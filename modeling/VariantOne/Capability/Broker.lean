import VariantOne.Capability.Receipts
import VariantOne.Lib.Machine

/-!
# The capability broker

Invocations run side by side over one ledger.  An invocation is admitted under the ledger's
lock, prepares itself, waits for the desktop lock if it has to, starts the handler as a task
and polls it, and ends by storing one terminal receipt under its identity.  A guard stores
one for an invocation that was interrupted on the way.

A step is what runs between two suspensions, with what the environment gives there: probes,
exceptions, results, clocks and what the sinks do.  A batch starts invocations one after the
other, or side by side if all of its calls are harmless.
-/

namespace VariantOne
namespace Capability

variable {β : Type}

/-! ## 1.  The ledger -/

/-- An entry of the ledger.  An admitted entry belongs to the invocation that made it, so it
is known by that invocation. -/
inductive LedgerEntry (β : Type) where
  | admitted (fingerprint : String) (owner : Nat)
  | terminal (fingerprint : String) (receipt : CapabilityReceipt β)

abbrev Ledger (β : Type) := List (String × LedgerEntry β)

def LedgerEntry.isTerminal : LedgerEntry β → Bool
  | .terminal .. => true
  | .admitted .. => false

/-- The entry is the admission of an invocation. -/
def LedgerEntry.ownedBy (i : Nat) : LedgerEntry β → Bool
  | .admitted _ owner => decide (owner = i)
  | .terminal .. => false

/-- The eviction: only the newest terminal entries stay. -/
def evict (capacity : Nat) (ledger : Ledger β) : Ledger β :=
  let terminal := Dict.keys (ledger.filter fun e => e.2.isTerminal)
  let evicted := terminal.take (terminal.length - capacity)
  ledger.filter fun e => !evicted.contains e.1

/-- The terminal entry, moved to the end, and the eviction. -/
def storeTerminal (capacity : Nat) (ledger : Ledger β) (key fingerprint : String)
    (receipt : CapabilityReceipt β) : Ledger β :=
  evict capacity (ledger.filter (fun e => !decide (e.1 = key)) ++ [(key, .terminal fingerprint receipt)])

/-! ## 2.  Invocations on their way -/

/-- How a handler ends.  A result comes with its projection. -/
inductive HandlerEnd (β : Type) where
  | returned (projection : Except PyException (Projection β))
  | cancelled
  | raised (e : PyException)

/-- The task of a handler. -/
inductive TaskState (β : Type) where
  | created
  | running
  | finished (e : HandlerEnd β)

/-- Why a task was cancelled. -/
inductive StopReason where
  | authorityFailed (error : String)
  | requested
  | deadline
  | interrupted (e : PyException)

/-- Where an invocation stands.  `ending` calls `_finalize` for the first time, with what is
raised afterwards; `interrupted` is in the guard of `invoke`. -/
inductive Phase (β : Type) where
  | admitted
  | waiting (d : Dispatched)
  | controlled (d : Dispatched) (task : TaskState β)
  | stopping (d : Dispatched) (reason : StopReason) (running : Bool)
  | ending (receipt : CapabilityReceipt β) (owned : Ownership) (after : Option PyException)
  | interrupted (owned : Ownership) (e : PyException)
  | done (reply : Except PyException (CapabilityReceipt β))

/-- An invocation.  Whether its handler was started and how its dispatch ended are kept for
the record. -/
structure Process (β : Type) where
  call : Invocation
  started : Bool
  ended : Option (DispatchEnd β)
  phase : Phase β

/-- The invocation has not returned and has not raised. -/
def Process.active (p : Process β) : Bool :=
  match p.phase with
  | .done _ => false
  | _ => true

/-- `CapabilityCall` -/
structure CapabilityCall where
  ref : CapabilityRef
  args : PyDict
  nestedCallId : String
  deadlineMs : Int
  idempotencyKey : String

/-- A batch: how many of its calls may run side by side, and the invocation of each call
that was started. -/
structure Batch where
  calls : List CapabilityCall
  context : InvocationContext
  batchId : String
  admitted : Nat
  started : List (Nat × Nat)

/-- The broker with the invocations and the batches there ever were. -/
structure BrokerState (β : Type) where
  ledger : Ledger β
  procs : Nat → Option (Process β)
  batches : Nat → Option Batch

def BrokerState.empty : BrokerState β := ⟨[], fun _ => none, fun _ => none⟩

/-- The state with an invocation set. -/
def BrokerState.put (s : BrokerState β) (i : Nat) (p : Process β) : BrokerState β :=
  { s with procs := fun j => if j = i then some p else s.procs j }

/-! ## 3.  Steps -/

/-- A step of an invocation or of a batch, with what the environment gives. -/
inductive BrokerOp (β : Type) where
  | invoke (i : Nat) (ref : CapabilityRef) (args : Option PyDict) (context : InvocationContext)
      (now : String) (u : BitVec 128)
  | prepare (i : Nat) (probe : Except PyException CancellationProbe) (now attempted : String)
  /-- The desktop lock was acquired, or waiting for it raised. -/
  | enter (i : Nat) (raised : Option PyException) (now : String)
  | start (i : Nat)
  | finish (i : Nat) (e : HandlerEnd β)
  | poll (i : Nat) (probe : Except PyException CancellationProbe) (elapsedMs : Nat)
  /-- An exception is raised where the invocation waits for the handler. -/
  | interrupt (i : Nat) (e : PyException) (now : String)
  /-- The task was found done; `cancelling` says that the parent is being cancelled. -/
  | collect (i : Nat) (cancelling : Bool) (now : String)
  /-- A cancelled task ended. -/
  | settle (i : Nat) (e : HandlerEnd β) (now : String)
  | persist (i : Nat) (sinks : List (Option PyException))
  | recover (i : Nat) (sinks : List (Option PyException)) (now : String)
  | batch (b : Nat) (calls : List CapabilityCall) (context : InvocationContext)
      (maxConcurrency : Option Int) (u : BitVec 128)
  | batchInvoke (b index i : Nat) (now : String) (u : BitVec 128)

/-- What a step does to the outside. -/
inductive BrokerEvent (β : Type) where
  | quiet
  | admitted (i : Nat)
  | answered (i : Nat) (receipt : CapabilityReceipt β)
  | started (i : Nat) (key : String)
  | stored (i : Nat) (key : String) (receipt : CapabilityReceipt β)
  | raised (i : Nat) (e : PyException)
  | rejected (message : String)

/-- The answer to an invocation whose identity is in the ledger. -/
def Invocation.duplicate (c : Invocation) : LedgerEntry β → CapabilityReceipt β
  | .terminal fingerprint receipt =>
      if fingerprint = c.fingerprint then { receipt with deduplicated := true }
      else c.errorReceipt receipt.receiptId c.ref.unknown none c.acceptedAt
        ⟨.error, "duplicate_nested_call_conflict",
          "duplicate nested call ID conflicts with an existing admission", false, false, ""⟩
  | .admitted _ _ => c.errorReceipt c.receiptId c.ref.unknown none c.acceptedAt
      ⟨.error, "duplicate_nested_call_in_flight", "duplicate nested call ID is already in flight",
        false, false, ""⟩

/-- An exception of the host's own checks. -/
def ofRaised (e : Raised) : PyException := .printable "StrictJSONError" .exception none e.message

/-- A new invocation, which has no answer yet. -/
def Invocation.process (c : Invocation) (phase : Phase β) : Process β := ⟨c, false, none, phase⟩

/-- The admission of `_invoke_owned`. -/
def BrokerState.accept (s : BrokerState β) (i : Nat) (c : Invocation) : BrokerEvent β × BrokerState β :=
  match Dict.get? s.ledger c.key with
  | some entry => (.answered i (c.duplicate entry), s.put i (c.process (.done (.ok (c.duplicate entry)))))
  | none =>
      (.admitted i, { s with ledger := s.ledger ++ [(c.key, LedgerEntry.admitted c.fingerprint i)] }.put i
        (c.process .admitted))

variable (B : CapabilityBroker)

/-- An invocation that raised before it was admitted. -/
def rejectedCall (ref : CapabilityRef) (args : Option PyDict) (context : InvocationContext)
    (now : String) : Invocation :=
  ⟨ref, args.getD [], context, "", "", now, ""⟩

/-- The head of `invoke`, for an invocation that is not there yet. -/
def CapabilityBroker.invoke (s : BrokerState β) (i : Nat) (ref : CapabilityRef) (args : Option PyDict)
    (context : InvocationContext) (now : String) (u : BitVec 128) : BrokerEvent β × BrokerState β :=
  match s.procs i with
  | some _ => (.quiet, s)
  | none =>
      match B.accept ref args context now u with
      | .error e => (.raised i (ofRaised e),
          s.put i ((rejectedCall ref args context now).process (.done (.error (ofRaised e)))))
      | .ok c => s.accept i c

/-- The invocation takes the lock first. -/
def CapabilityBroker.needsLock (c : Invocation) (metadata : CapabilityMetadata) : Bool :=
  metadata.touchesDesktop && B.hasDesktopLock && !c.context.desktopLockHeld

/-- The phase after the preparation. -/
def CapabilityBroker.prepared (c : Invocation) (attempted : String) : Prepared β → Phase β
  | .finalize receipt owned => .ending receipt owned none
  | .interrupted owned e => .interrupted owned e
  | .dispatch metadata _ =>
      if B.needsLock c metadata then .waiting ⟨metadata, attempted⟩
      else .controlled ⟨metadata, attempted⟩ .created

/-- The dispatch ended: its receipt is made. -/
def Process.conclude (p : Process β) (d : Dispatched) (now : String) (e : DispatchEnd β) : Process β :=
  { p with
    ended := some e
    phase := match p.call.outcome d now e with
      | .ok (receipt, after) => .ending receipt d.owned after
      | .error e' => .interrupted d.owned e' }

/-- The deadline of a dispatch has passed. -/
def Invocation.pastDeadline (c : Invocation) (d : Dispatched) (elapsedMs : Nat) : Bool :=
  let deadline := if c.context.deadlineMs = 0 then d.metadata.defaultDeadlineMs else c.context.deadlineMs
  decide (0 < deadline ∧ deadline ≤ elapsedMs)

/-- What a poll of the control loop decides. -/
def Invocation.pollReason (c : Invocation) (d : Dispatched) (elapsedMs : Nat) :
    Except PyException CancellationProbe → Option StopReason
  | .error e => some (.interrupted e)
  | .ok probe =>
      if probe.authorityFailed then some (.authorityFailed probe.error)
      else if probe.requested then some .requested
      else if c.pastDeadline d elapsedMs then some .deadline
      else none

/-- What is raised for a reason. -/
def StopReason.raised : StopReason → DispatchEnd β
  | .authorityFailed error => .authorityFailed error
  | .requested => .cancelled "capability cancelled after dispatch"
  | .deadline => .timedOut
  | .interrupted e => .raised e

/-- What `_run_controlled` raises once a cancelled task has ended: an exception of the
handler takes the place of the reason. -/
def StopReason.settled (reason : StopReason) : HandlerEnd β → DispatchEnd β
  | .raised e => if e.cls = .cancelledError then reason.raised else .raised e
  | .returned _ | .cancelled => reason.raised

/-- A task that was cancelled, by itself or with its parent. -/
def taskCancelled (cancelling : Bool) : DispatchEnd β :=
  if cancelling then .raised .cancelledError
  else .cancelled "capability operation cancelled after dispatch"

/-- What `_run_controlled` makes of a task that is done. -/
def HandlerEnd.collected (cancelling : Bool) : HandlerEnd β → DispatchEnd β
  | .returned projection => .returned projection
  | .cancelled => taskCancelled cancelling
  | .raised e => if e.cls = .cancelledError then taskCancelled cancelling else .raised e

/-- The handler of a task was started and has not ended. -/
def TaskState.isRunning : TaskState β → Bool
  | .running => true
  | .created | .finished _ => false

/-- The task is cancelled; what it still does is awaited. -/
def Process.stop (p : Process β) (d : Dispatched) (task : TaskState β) (reason : StopReason) : Process β :=
  { p with phase := .stopping d reason task.isRunning }

/-- A step of an invocation that leaves the ledger alone, if the invocation is where the
step starts. -/
def CapabilityBroker.advance (p : Process β) (i : Nat) :
    BrokerOp β → Option (BrokerEvent β × Process β)
  | .prepare _ probe now attempted =>
      match p.phase with
      | .admitted => some (.quiet,
          { p with phase := B.prepared p.call attempted (B.prepare p.call probe now) })
      | _ => none
  | .enter _ raised now =>
      match p.phase, raised with
      | .waiting d, none => some (.quiet, { p with phase := .controlled d .created })
      | .waiting d, some e => some (.quiet, p.conclude d now (.raised e))
      | _, _ => none
  | .start _ =>
      match p.phase with
      | .controlled d .created =>
          some (.started i p.call.key, { p with started := true, phase := .controlled d .running })
      | _ => none
  | .finish _ e =>
      match p.phase with
      | .controlled d .running => some (.quiet, { p with phase := .controlled d (.finished e) })
      | _ => none
  | .poll _ probe elapsedMs =>
      match p.phase with
      | .controlled _ (.finished _) => none
      | .controlled d task => some (.quiet,
          ((p.call.pollReason d elapsedMs probe).map (p.stop d task)).getD p)
      | _ => none
  | .interrupt _ e now =>
      match p.phase with
      | .controlled d (.finished _) => some (.quiet, p.conclude d now (.raised e))
      | .controlled d task => some (.quiet, p.stop d task (.interrupted e))
      | _ => none
  | .collect _ cancelling now =>
      match p.phase with
      | .controlled d (.finished e) => some (.quiet, p.conclude d now (e.collected cancelling))
      | _ => none
  | .settle _ e now =>
      match p.phase with
      | .stopping d reason running => some (.quiet,
          p.conclude d now (if running then reason.settled e else reason.raised))
      | _ => none
  | _ => none

/-- What `invoke` gives after a receipt was stored. -/
def replied (after : Option PyException) (receipt : CapabilityReceipt β) :
    Except PyException (CapabilityReceipt β) :=
  match after with
  | none => .ok receipt
  | some e => .error e

/-- `_finalize`, once the sinks have returned. -/
def CapabilityBroker.store (s : BrokerState β) (i : Nat) (p : Process β) (receipt : CapabilityReceipt β)
    (after : Option PyException) : BrokerEvent β × BrokerState β :=
  (.stored i p.call.key receipt,
    { s with ledger := storeTerminal B.dedupeCapacity s.ledger p.call.key p.call.fingerprint receipt }.put i
      { p with phase := .done (replied after receipt) })

/-- The first `_finalize` of an invocation. -/
def CapabilityBroker.persist (s : BrokerState β) (i : Nat) (p : Process β)
    (sinks : List (Option PyException)) : BrokerEvent β × BrokerState β :=
  match p.phase with
  | .ending receipt owned after =>
      match sinkFailures (B.receiptSinks.zip sinks) with
      | .ok failures => B.store s i p (receipt.afterSinks failures) after
      | .error e => (.quiet, s.put i { p with phase := .interrupted owned e })
  | _ => (.quiet, s)

/-- The guard of `invoke`: an entry that is still the invocation's own is finalized, and what
is no `Exception` is raised again. -/
def CapabilityBroker.recover (s : BrokerState β) (i : Nat) (p : Process β)
    (sinks : List (Option PyException)) (now : String) : BrokerEvent β × BrokerState β :=
  match p.phase with
  | .interrupted owned e =>
      if (Dict.get? s.ledger p.call.key).any (LedgerEntry.ownedBy i) then
        match sinkFailures (B.receiptSinks.zip sinks) with
        | .ok failures => B.store s i p ((p.call.interruptedReceipt owned now e).afterSinks failures)
            (if e.cls = .exception then none else some e)
        | .error e' => (.raised i e', s.put i { p with phase := .done (.error e') })
      else (.raised i e, s.put i { p with phase := .done (.error e) })
  | _ => (.quiet, s)

/-! ## 4.  Batches -/

/-- The metadata of a call, unless it has none. -/
def CapabilityBroker.classify (call : CapabilityCall) : Except PyException (Option CapabilityMetadata) :=
  let metadata := do
    let (tool, _) ← B.resolve call.ref
    B.metadataForTool tool (some call.args)
  match metadata with
  | .ok m => .ok (some m)
  | .error e => if e.cls = .exception then .ok none else .error e

/-- The call may run beside others. -/
def harmless (metadata : Option CapabilityMetadata) : Bool :=
  metadata.any fun m => !m.effectful && m.parallelSafe

/-- How many calls of a batch may run side by side. -/
def CapabilityBroker.concurrency (metadata : List (Option CapabilityMetadata))
    (maxConcurrency : Option Int) : Nat :=
  let requested := maxConcurrency.elim (Int.ofNat B.maxFanout) id
  if metadata.all harmless then max 1 (min (min requested.toNat B.maxFanout) metadata.length) else 1

/-- The head of `invoke_many`. -/
def CapabilityBroker.openBatch (s : BrokerState β) (b : Nat) (calls : List CapabilityCall)
    (context : InvocationContext) (maxConcurrency : Option Int) (u : BitVec 128) :
    BrokerEvent β × BrokerState β :=
  if (s.batches b).isSome then (.quiet, s)
  else if calls = [] ∨ B.maxBatchCalls < calls.length then
    (.rejected s!"invoke_many requires 1-{B.maxBatchCalls} calls", s)
  else
    match calls.mapM B.classify with
    | .error e => (.raised b e, s)
    | .ok metadata =>
        let batch : Batch := ⟨calls, context, "batch_" ++ String.ofList ((uuidHex u).take 20),
          B.concurrency metadata maxConcurrency, []⟩
        (.quiet, { s with batches := fun b' => if b' = b then some batch else s.batches b' })

/-- The context of a call of a batch. -/
def Batch.child (batch : Batch) (index : Nat) (call : CapabilityCall) : InvocationContext :=
  { batch.context with
    nestedCallId := if call.nestedCallId = "" then s!"{batch.batchId}:{index}" else call.nestedCallId
    deadlineMs := if call.deadlineMs = 0 then batch.context.deadlineMs else call.deadlineMs
    idempotencyKey :=
      if call.idempotencyKey = "" then batch.context.idempotencyKey else call.idempotencyKey
    batchId := batch.batchId
    batchIndex := index }

/-- An invocation has returned a receipt. -/
def Process.reply (p : Process β) : Option (CapabilityReceipt β) :=
  match p.phase with
  | .done (.ok receipt) => some receipt
  | _ => none

/-- The receipt of the call of an index, once its invocation has returned. -/
def BrokerState.receiptOf (s : BrokerState β) (batch : Batch) (index : Nat) : Option (CapabilityReceipt β) := do
  let i ← Dict.get? batch.started index
  let p ← s.procs i
  p.reply

/-- The next call of a batch may start: after all the calls before it, or as long as fewer
than admitted are on their way. -/
def BrokerState.mayStart (s : BrokerState β) (batch : Batch) (index : Nat) : Bool :=
  if batch.admitted = 1 then
    decide (index = batch.started.length) &&
      (List.range index).all fun k => (s.receiptOf batch k).isSome
  else
    !(Dict.keys batch.started).contains index &&
      decide ((batch.started.countP fun e => (s.procs e.2).any Process.active) < batch.admitted)

/-- One `invoke_one` of a batch starts. -/
def CapabilityBroker.batchInvoke (s : BrokerState β) (b index i : Nat) (now : String) (u : BitVec 128) :
    BrokerEvent β × BrokerState β :=
  match s.batches b, s.procs i with
  | some batch, none =>
      match batch.calls[index]? with
      | none => (.quiet, s)
      | some call =>
          if s.mayStart batch index then
            let batch' := { batch with started := batch.started ++ [(index, i)] }
            let s' := { s with batches := fun b' => if b' = b then some batch' else s.batches b' }
            B.invoke s' i call.ref (some call.args) (batch.child index call) now u
          else (.quiet, s)
  | _, _ => (.quiet, s)

/-- What `invoke_many` returns: the receipts, in the order of the calls. -/
def BrokerState.batchReceipts (s : BrokerState β) (b : Nat) : Option (List (CapabilityReceipt β)) := do
  let batch ← s.batches b
  (List.range batch.calls.length).mapM (s.receiptOf batch)

/-! ## 5.  The machine -/

/-- A step of an invocation that leaves the ledger alone. -/
def CapabilityBroker.advanceAt (s : BrokerState β) (i : Nat) (op : BrokerOp β) :
    BrokerEvent β × BrokerState β :=
  match s.procs i with
  | none => (.quiet, s)
  | some p =>
      match B.advance p i op with
      | none => (.quiet, s)
      | some (event, p') => (event, s.put i p')

/-- One step. -/
def CapabilityBroker.step : BrokerOp β → BrokerState β → BrokerEvent β × BrokerState β
  | .invoke i ref args context now u, s => B.invoke s i ref args context now u
  | .persist i sinks, s => (s.procs i).elim (.quiet, s) fun p => B.persist s i p sinks
  | .recover i sinks now, s => (s.procs i).elim (.quiet, s) fun p => B.recover s i p sinks now
  | .batch b calls context maxConcurrency u, s => B.openBatch s b calls context maxConcurrency u
  | .batchInvoke b index i now u, s => B.batchInvoke s b index i now u
  | .prepare i probe now attempted, s => B.advanceAt s i (.prepare i probe now attempted)
  | .enter i raised now, s => B.advanceAt s i (.enter i raised now)
  | .start i, s => B.advanceAt s i (.start i)
  | .finish i e, s => B.advanceAt s i (.finish i e)
  | .poll i probe elapsedMs, s => B.advanceAt s i (.poll i probe elapsedMs)
  | .interrupt i e now, s => B.advanceAt s i (.interrupt i e now)
  | .collect i cancelling now, s => B.advanceAt s i (.collect i cancelling now)
  | .settle i e now, s => B.advanceAt s i (.settle i e now)

/-- The broker, under any interleaving of its invocations. -/
def CapabilityBroker.machine : Machine (BrokerState β) (BrokerOp β) (BrokerEvent β) :=
  ⟨BrokerState.empty, B.step⟩

end Capability
end VariantOne
