import Mathlib.Data.List.Sort
import VariantOne.WorkFabric.Tables

/-!
# The outbox

Delivery takes items from the outbox under a lease: `claim_outbox` hands a batch
to a consumer, `acknowledge_outbox` and `reject_outbox` settle one item by the
consumer's name and the item's epoch, and an expired lease is returned to the
queue by the next claim or by `recover_expired_outbox`.  Neither settlement looks
at the clock.

An item is claimed when it is pending and due, or when its lease has expired (`claimable`); a rejection
gives it back with a delay, or for good when it was claimed often enough.  The operations are maps over
the rows of the table, which is how `WorkFabric.OutboxSpecs` describes them.
-/

namespace VariantOne
namespace WorkFabric

/-- The lease of an item has expired. -/
def outboxExpired (now : ℚ) (r : OutboxRow) : Bool :=
  r.status == .leased && r.leaseExpiresAt.any fun expires => expires ≤ now

/-- An expired item goes back to the queue. -/
def reclaimChange (now : ℚ) (r : OutboxRow) : OutboxRow :=
  { r with status := .pending, leaseOwner := "", leaseExpiresAt := none, availableAt := now }

/-- The rows a claim may take. -/
def claimable (now : ℚ) (r : OutboxRow) : Bool :=
  r.status == .pending && decide (r.availableAt ≤ now)

/-- What a claim writes. -/
def claimChange (owner : String) (expires : ℚ) (r : OutboxRow) : OutboxRow :=
  { r with
    status := .leased, leaseOwner := owner, leaseEpoch := r.leaseEpoch + 1,
    leaseExpiresAt := some expires, attempts := r.attempts + 1 }

/-- The loop of `claim_outbox` over the selected identifiers. -/
def claimItems (owner : String) (expires : ℚ) : List String → Work Unit
  | [] => pure ()
  | outboxId :: ids => do
      let changed ← updateOutboxRows (fun r => r.outboxId == outboxId && r.status == .pending)
        (claimChange owner expires) fun _ => rfl
      Txn.ensure (changed = 1) ⟨.workConflict, s!"outbox claim lost for {outboxId}"⟩
      claimItems owner expires ids

/-- An outbox row joined with its event. -/
def outboxItem (t : Tables) (r : OutboxRow) : Option OutboxItem :=
  (t.events.find? r.eventId).map fun event =>
    { outboxId := r.outboxId
      event := event
      status := r.status
      attempts := r.attempts
      availableAt := r.availableAt
      leaseOwner := r.leaseOwner
      leaseEpoch := r.leaseEpoch
      leaseExpiresAt := r.leaseExpiresAt.getD 0
      lastError := r.lastError
      createdAt := r.createdAt
      deliveredAt := r.deliveredAt.getD 0 }

/-- `ORDER BY event_sequence` -/
def bySequence (rows : List OutboxRow) : List OutboxRow :=
  rows.insertionSort fun a b => a.eventSequence ≤ b.eventSequence

/-- `min(1000, max(1, int(limit)))` -/
def claimLimit (limit : Int) : Nat := (min 1000 (max 1 limit)).toNat

/-- The identifiers a claim selects. -/
def claimIds (t : Tables) (now : ℚ) (limit : Int) : List String :=
  ((bySequence (t.outbox.rows.filter (claimable now))).take (claimLimit limit)).map (·.outboxId)

/-- `claim_outbox` -/
def claimOutbox (env : Env) (consumerId : String) (limit : Int) (leaseTtl : ℚ)
    (now : Option ℚ) : Work (List OutboxItem) := do
  let owner ← Txn.lift (text consumerId "consumer_id" true 512)
  let _ ← updateOutboxRows (outboxExpired (now.getD env.time))
    (reclaimChange (now.getD env.time)) fun _ => rfl
  let t ← Txn.read
  let ids := claimIds t (now.getD env.time) limit
  claimItems owner.val (now.getD env.time + max 1 leaseTtl) ids
  let t ← Txn.read
  pure ((bySequence (t.outbox.rows.filter fun r => ids.contains r.outboxId)).filterMap
    (outboxItem t))

/-- The item is leased under this name and epoch. -/
def heldBy (outboxId consumerId : String) (leaseEpoch : Nat) (r : OutboxRow) : Bool :=
  r.outboxId == outboxId && r.status == .leased && r.leaseOwner == consumerId &&
    r.leaseEpoch == leaseEpoch

/-- What an acknowledgement writes. -/
def deliverChange (now : ℚ) (r : OutboxRow) : OutboxRow :=
  { r with
    status := .delivered, deliveredAt := some now, leaseOwner := "", leaseExpiresAt := none,
    lastError := "" }

/-- The caller no longer holds the item. -/
def outboxLeaseLost (outboxId : String) : Raised :=
  ⟨.leaseLost, s!"outbox lease lost for {outboxId}"⟩

/-- `acknowledge_outbox` -/
def acknowledgeOutbox (env : Env) (outboxId consumerId : String) (leaseEpoch : Nat)
    (now : Option ℚ) : Work Unit := do
  let changed ← updateOutboxRows (heldBy outboxId consumerId leaseEpoch)
    (deliverChange (now.getD env.time)) fun _ => rfl
  Txn.ensure (changed = 1) (outboxLeaseLost outboxId)

/-- What a rejection writes. -/
def rejectChange (dead : Bool) (available : ℚ) (error : String) (r : OutboxRow) : OutboxRow :=
  { r with
    status := if dead then .dead else .pending, availableAt := available, leaseOwner := "",
    leaseExpiresAt := none, lastError := error }

/-- A rejected item is dead once it was claimed often enough. -/
def rejectDead (maxAttempts : Int) (r : OutboxRow) : Bool := decide (max 1 maxAttempts ≤ r.attempts)

/-- `reject_outbox` -/
def rejectOutbox (env : Env) (outboxId consumerId : String) (leaseEpoch : Nat) (error : String)
    (retryDelay : ℚ) (maxAttempts : Int) (now : Option ℚ) : Work OutboxStatus := do
  let t ← Txn.read
  match t.outbox.find? outboxId with
  | none => Txn.raise ⟨.workNotFound, s!"unknown outbox item: {outboxId}"⟩
  | some row =>
      Txn.ensure (heldBy outboxId consumerId leaseEpoch row = true) (outboxLeaseLost outboxId)
      let clean ← Txn.lift (text error "outbox error" false 4000)
      let _ ← updateOutboxRows (fun r => r.outboxId == outboxId)
        (rejectChange (rejectDead maxAttempts row)
          (if rejectDead maxAttempts row then now.getD env.time
            else now.getD env.time + max 0 retryDelay) clean.val) fun _ => rfl
      pure (if rejectDead maxAttempts row then .dead else .pending)

/-- What recovery writes. -/
def recoverOutboxChange (now : ℚ) (r : OutboxRow) : OutboxRow :=
  { r with
    status := .pending, availableAt := now, leaseOwner := "", leaseExpiresAt := none,
    lastError := if r.lastError = "" then "delivery lease expired" else r.lastError }

/-- `recover_expired_outbox` -/
def recoverExpiredOutbox (env : Env) (now : Option ℚ) : Work Nat :=
  updateOutboxRows (outboxExpired (now.getD env.time))
    (recoverOutboxChange (now.getD env.time)) fun _ => rfl

end WorkFabric
end VariantOne
