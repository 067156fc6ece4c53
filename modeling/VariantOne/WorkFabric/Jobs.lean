import Mathlib.Data.List.Sort
import VariantOne.WorkFabric.Events

/-!
# Job operations

The operations of the repository on `work_job`, as transaction bodies.  All of
them but `heartbeat_job` have one shape: read the row, check revision, lease and
state, compare and set the row with its revision advanced (`casJob`), then
publish the new row as an event and move the job's event cursor to it
(`publishJob`).  What an operation writes is a named function on rows
(`leaseChange`, `startChange`, ...), so that what it means can be read off
without the plumbing.

`recover_expired_job_leases` does this for every expired row, in one
transaction.
-/

namespace VariantOne
namespace WorkFabric

/-! ## Shared statements -/

/-- `_job_row_tx` -/
def jobRow (jobId : String) : Work JobRow := do
  let t ← Txn.read
  match t.job? jobId with
  | none => Txn.raise ⟨.workNotFound, s!"unknown work job: {jobId}"⟩
  | some row => pure row

/-- `_return_job_tx` -/
def returnJob (jobId : String) : Work JobRecord := do
  let row ← jobRow jobId
  pure row.record

/-- `_expect_revision` -/
def expectRevision (row : JobRow) (expectedRevision : Option Int) : Work Unit :=
  Txn.ensure (∀ v ∈ expectedRevision, (row.revision : Int) = v)
    ⟨.workConflict, s!"job revision changed for {row.jobId.val} " ++
      s!"({row.revision} != {expectedRevision.getD 0})"⟩

/-- The lease a row shows is the one given, in one of the allowed states, and has
not expired. -/
def LeaseHeld (row : JobRow) (leaseOwner : String) (leaseEpoch : Nat) (now : ℚ)
    (allowedStates : List JobStatus) : Prop :=
  row.status ∈ allowedStates ∧
    (row.leaseOwner = leaseOwner ∧ row.leaseEpoch = leaseEpoch) ∧
      now < row.leaseExpiresAt.getD 0

/-- `_expect_lease` -/
def expectLease (row : JobRow) (leaseOwner : String) (leaseEpoch : Nat) (now : ℚ)
    (allowedStates : List JobStatus := JobStatus.leasedStates) : Work Unit := do
  Txn.ensure (row.status ∈ allowedStates)
    ⟨.leaseLost, s!"job {row.jobId.val} is not in a leased state ({row.status.text})"⟩
  Txn.ensure (row.leaseOwner = leaseOwner ∧ row.leaseEpoch = leaseEpoch)
    ⟨.leaseLost, s!"job lease epoch lost for {row.jobId.val}"⟩
  Txn.ensure (now < row.leaseExpiresAt.getD 0)
    ⟨.leaseLost, s!"job lease expired for {row.jobId.val}"⟩

/-- `_job_payload` -/
def jobPayload (row : JobRow) (extra : PyDict) : PyDict :=
  Dict.merge
    [("job_id", .str row.jobId.val), ("kind", .str row.kind.val),
      ("status", .str row.status.text), ("revision", .int row.revision),
      ("attempt", .int row.attempt), ("max_attempts", .int row.maxAttempts),
      ("continuation", .bool row.continuation), ("progress", .dict (entriesToPy row.progress)),
      ("cancel_requested", .bool row.cancelRequested)]
    extra

/-- The arguments `_job_event_tx` passes to `_insert_event_tx`. -/
def jobEventArgs (row : JobRow) (eventType : String) (actor : Option WorkActor)
    (payload : PyDict) (correlationId idempotencyKey : String) : EventArgs where
  eventType := eventType
  aggregateKind := "job"
  aggregateId := row.jobId.val
  aggregateVersion := some row.revision
  expectedAggregateVersion := some (row.revision - 1)
  scope := row.scope
  actor := actor
  correlationId := correlationId
  idempotencyKey := idempotencyKey
  payload := jobPayload row payload

/-- The cursor of a job points at an event. -/
def cursorChange (sequence : Nat) (r : JobRow) : JobRow := { r with eventCursor := sequence }

@[simp] theorem cursorChange_jobId (sequence : Nat) (r : JobRow) :
    (cursorChange sequence r).jobId = r.jobId := rfl

/-- `_job_event_tx` -/
def jobEvent (H : Host) (env : Env) (row : JobRow) (eventType : String)
    (actor : Option WorkActor) (payload : PyDict) (correlationId idempotencyKey : String) :
    Work WorkEvent := do
  let event ← insertEvent H env
    (jobEventArgs row eventType actor payload correlationId idempotencyKey)
  let _ ← updateJobRows row.jobId.val (fun _ => true) (cursorChange event.sequence) fun _ => rfl
  pure event

/-- Compare and set a row: `UPDATE work_job SET change WHERE job_id=? AND cond`,
and the check that it hit one row. -/
def casJob (jobId : String) (cond : JobRow → Bool) (change : JobRow → JobRow)
    (hchange : ∀ r, (change r).jobId.val = r.jobId.val) (lost : String) : Work Unit := do
  let changed ← updateJobRows jobId cond change hchange
  Txn.ensure (changed = 1) ⟨.workConflict, s!"{lost} for {jobId}"⟩

/-- Publish the row as it now is, and return its record. -/
def publishJob (H : Host) (env : Env) (jobId eventType : String) (actor : Option WorkActor)
    (payload : JobRow → PyDict) : Work JobRecord := do
  let row ← jobRow jobId
  let _ ← jobEvent H env row eventType actor (payload row) "" ""
  returnJob jobId

/-- The payload of an event that adds nothing to the row. -/
def noExtra (_ : JobRow) : PyDict := []

/-- The progress an operation stores: the argument when there is one. -/
def progressOr (H : Host) (progress : Option PyDict) (row : JobRow) :
    Except Raised (List (String × Json)) :=
  match progress with
  | none => .ok row.progress
  | some value => inlineJson H value

/-! ## Creating a job -/

/-- The keyword arguments of `create_job`. -/
structure JobArgs where
  kind : String
  ownerKind : String
  ownerId : String
  scope : WorkScope := .empty
  priority : Int := 0
  inputManifest : PyDict := []
  artifactRefs : List String := []
  retryPolicy : PyDict := []
  maxAttempts : Int := 1
  idempotencyKey : String := ""
  availableAt : Option ℚ := none
  jobId : String := ""
  actor : Option WorkActor := none
  correlationId : String := ""

/-- The arguments after cleaning. -/
structure CleanJob where
  kind : Text true 240
  ownerKind : Text true 100
  ownerId : Text true 512
  idem : Text false 512
  refs : List (Text true 2000)
  requestedIdentifier : Text false 512

/-- The cleaning at the head of `create_job`. -/
def cleanJob (a : JobArgs) : Except Raised CleanJob := do
  let kind ← text a.kind "job kind" true 240
  let ownerKind ← text a.ownerKind "owner kind" true 100
  let ownerId ← text a.ownerId "owner id" true 512
  let idem ← text a.idempotencyKey "idempotency_key" false 512
  let refs ← a.artifactRefs.mapM fun ref => text ref "artifact ref" true 2000
  if 1000 < refs.length then
    .error (valueError "a job cannot reference more than 1000 input artifacts")
  let requestedIdentifier ← text a.jobId "job_id" false 512
  pure ⟨kind, ownerKind, ownerId, idem, refs, requestedIdentifier⟩

/-- `max(1, int(max_attempts))` -/
def JobArgs.retries (a : JobArgs) : Nat := (max 1 a.maxAttempts).toNat

theorem JobArgs.retries_pos (a : JobArgs) : 0 < a.retries := by
  unfold JobArgs.retries
  omega

/-- `requested_identifier or _new_id("job")` -/
def CleanJob.identifier (c : CleanJob) (u : BitVec 128) : Text true 512 :=
  if h : c.requestedIdentifier.val = "" then newJobId u
  else
    ⟨c.requestedIdentifier.val, c.requestedIdentifier.stripped, c.requestedIdentifier.short,
      c.requestedIdentifier.noNul, fun _ => h⟩

/-- The fingerprint of a creation. -/
def jobFingerprint (H : Host) (c : CleanJob) (a : JobArgs) : Except Raised String :=
  requestFingerprint H "work.job.create" (.dict
    [("kind", .str c.kind.val),
      ("owner", .dict [("kind", .str c.ownerKind.val), ("id", .str c.ownerId.val)]),
      ("scope", .dict a.scope.toDict), ("priority", .int a.priority),
      ("input_manifest", .dict a.inputManifest),
      ("artifact_refs", .list (c.refs.map fun ref => .str ref.val)),
      ("retry_policy", .dict a.retryPolicy), ("max_attempts", .int a.retries)])

/-- The job an idempotency key already names. -/
def priorJob (t : Tables) (c : CleanJob) : Option JobRow :=
  if c.idem.val = "" then none
  else t.jobs.rows.find? fun r =>
    r.ownerKind.val == c.ownerKind.val && r.ownerId.val == c.ownerId.val &&
      r.kind.val == c.kind.val && r.idempotencyKey.val == c.idem.val

/-- The creation agrees with the job its key named: none of the comparisons of
the replay check fails. -/
def sameRequest (existing : JobRow) (c : CleanJob) (a : JobArgs) (fingerprint : String) : Prop :=
  existing.requestFingerprint = fingerprint ∧
  (c.requestedIdentifier.val = "" ∨ existing.jobId.val = c.requestedIdentifier.val) ∧
  existing.scope = a.scope ∧ existing.priority = a.priority ∧
  eqDict a.inputManifest existing.inputManifest = true ∧ existing.artifactRefs = c.refs ∧
  eqDict a.retryPolicy existing.retryPolicy = true ∧ existing.maxAttempts = a.retries ∧
  ∀ ready ∈ a.availableAt, existing.availableAt = ready

instance (existing : JobRow) (c : CleanJob) (a : JobArgs) (fingerprint : String) :
    Decidable (sameRequest existing c a fingerprint) := by
  unfold sameRequest
  infer_instance

/-- The replay check's refusal. -/
def jobKeyReused : Raised :=
  ⟨.workConflict, "job idempotency key was reused with different arguments"⟩

/-- The row `create_job` inserts. -/
def newJobRow (c : CleanJob) (a : JobArgs) (identifier : Text true 512) (fingerprint : String)
    (inputManifest retryPolicy : List (String × Json)) (now : ℚ) : JobRow where
  jobId := identifier
  ownerKind := c.ownerKind
  ownerId := c.ownerId
  kind := c.kind
  status := .queued
  scope := a.scope
  priority := a.priority
  revision := 1
  inputManifest := inputManifest
  artifactRefs := c.refs
  leaseOwner := ""
  leaseEpoch := 0
  leaseExpiresAt := none
  continuation := false
  syncHandler := false
  attempt := 0
  maxAttempts := a.retries
  maxAttempts_pos := a.retries_pos
  retryPolicy := retryPolicy
  progress := []
  eventCursor := 0
  resultRef := ""
  diagnosticsRef := ""
  idempotencyKey := c.idem
  requestFingerprint := fingerprint
  cancelRequested := false
  cancelReason := ""
  availableAt := a.availableAt.getD now
  createdAt := now
  updatedAt := now
  startedAt := none
  heartbeatAt := none
  completedAt := none
  error := ""

/-- `create_job` -/
def createJob (H : Host) (env : Env) (a : JobArgs) : Work JobRecord := do
  let c ← Txn.lift (cleanJob a)
  let fingerprint ← Txn.lift (jobFingerprint H c a)
  let t ← Txn.read
  match priorJob t c with
  | some existing =>
      Txn.ensure (sameRequest existing c a fingerprint) jobKeyReused
      pure existing.record
  | none =>
      let _ ← Txn.lift (inlineJson H a.scope.toDict)
      let inputManifest ← Txn.lift (inlineJson H a.inputManifest)
      Txn.ensure (fitsInline H (.arr (c.refs.map fun ref => .str ref.val))) inlineTooLarge
      let retryPolicy ← Txn.lift (inlineJson H a.retryPolicy)
      let row := newJobRow c a (c.identifier (env.uuid "job" t.eventSequence)) fingerprint
        inputManifest retryPolicy env.time
      insertJobRow row
      let _ ← jobEvent H env row "job.created" a.actor [] a.correlationId c.idem.val
      returnJob row.jobId.val

/-! ## Leasing, starting, keeping alive -/

/-- The rows `lease_next_job` may pick. -/
def leasable (now : ℚ) (kinds excluded : List String) (r : JobRow) : Bool :=
  r.status == .queued && decide (r.availableAt ≤ now) && !r.cancelRequested &&
    (decide (r.attempt < r.maxAttempts) || r.continuation) &&
    (kinds.isEmpty || kinds.contains r.kind.val) && !excluded.contains r.jobId.val

/-- `ORDER BY priority DESC, available_at, created_at, job_id` -/
def leaseOrder (a b : JobRow) : Prop :=
  if a.priority ≠ b.priority then b.priority < a.priority
  else if a.availableAt ≠ b.availableAt then a.availableAt < b.availableAt
  else if a.createdAt ≠ b.createdAt then a.createdAt < b.createdAt
  else a.jobId.val ≤ b.jobId.val

instance : DecidableRel leaseOrder := fun a b => by
  unfold leaseOrder
  infer_instance

/-- The row the next lease goes to. -/
def nextLeasable (t : Tables) (now : ℚ) (kinds excluded : List String) : Option JobRow :=
  ((t.jobs.rows.filter (leasable now kinds excluded)).insertionSort leaseOrder).head?

/-- What `lease_next_job` writes. -/
def leaseChange (owner : String) (now expires : ℚ) (r : JobRow) : JobRow :=
  { r with
    status := .leased, leaseOwner := owner, leaseEpoch := r.leaseEpoch + 1,
    leaseExpiresAt := some expires,
    attempt := r.attempt + (if r.continuation then 0 else 1),
    revision := r.revision + 1, heartbeatAt := some now, updatedAt := now,
    startedAt := some (r.startedAt.getD now), error := "" }

/-- The payload of a lease. -/
def leasePayload (H : Host) (expires : ℚ) (r : JobRow) : PyDict :=
  [("lease_epoch", .int r.leaseEpoch), ("lease_expires_at", .float (H.floatText expires))]

/-- `lease_next_job` -/
def leaseNextJob (H : Host) (env : Env) (leaseOwner : String) (kinds : List String)
    (excludeJobIds : List String) (leaseTtl : ℚ) (now : Option ℚ) : Work (Option JobRecord) := do
  let owner ← Txn.lift (text leaseOwner "lease_owner" true 512)
  let cleanKinds ← Txn.lift (kinds.mapM fun kind => text kind "job kind" true 240)
  let t ← Txn.read
  match nextLeasable t (now.getD env.time) (cleanKinds.map (·.val)) excludeJobIds with
  | none => pure none
  | some row =>
      casJob row.jobId.val (fun r => r.status == .queued && r.revision == row.revision)
        (leaseChange owner.val (now.getD env.time) (now.getD env.time + max 2 leaseTtl))
        (fun _ => rfl) "job claim lost"
      let record ← publishJob H env row.jobId.val "job.leased" (some (.worker owner.val))
        (leasePayload H (now.getD env.time + max 2 leaseTtl))
      pure (some record)

/-- What `start_job` writes. -/
def startChange (syncHandler : Bool) (now : ℚ) (r : JobRow) : JobRow :=
  { r with
    status := .running, continuation := false, syncHandler := syncHandler,
    revision := r.revision + 1, heartbeatAt := some now, updatedAt := now }

/-- `start_job` -/
def startJob (H : Host) (env : Env) (jobId leaseOwner : String) (leaseEpoch : Nat)
    (syncHandler : Bool) (expectedRevision : Option Int) (now : Option ℚ) : Work JobRecord := do
  let row ← jobRow jobId
  expectRevision row expectedRevision
  expectLease row leaseOwner leaseEpoch (now.getD env.time) [.leased]
  casJob jobId (fun r => r.revision == row.revision)
    (startChange syncHandler (now.getD env.time)) (fun _ => rfl) "job start CAS lost"
  publishJob H env jobId "job.started" (some (.worker leaseOwner)) noExtra

/-- What `heartbeat_job` writes. -/
def heartbeatChange (now expires : ℚ) (progress : List (String × Json)) (r : JobRow) : JobRow :=
  { r with
    leaseExpiresAt := some expires, heartbeatAt := some now, updatedAt := now,
    progress := progress }

/-- `heartbeat_job`: no revision, no event. -/
def heartbeatJob (H : Host) (env : Env) (jobId leaseOwner : String) (leaseEpoch : Nat)
    (leaseTtl : ℚ) (progress : Option PyDict) (now : Option ℚ) : Work JobRecord := do
  let row ← jobRow jobId
  expectLease row leaseOwner leaseEpoch (now.getD env.time)
  let stored ← Txn.lift (progressOr H progress row)
  casJob jobId (fun r => r.revision == row.revision)
    (heartbeatChange (now.getD env.time) (now.getD env.time + max 2 leaseTtl) stored)
    (fun _ => rfl) "job heartbeat CAS lost"
  returnJob jobId

/-! ## Progress, waiting, waking, pausing -/

/-- What `update_job_progress` writes. -/
def progressChange (now : ℚ) (progress : List (String × Json)) (r : JobRow) : JobRow :=
  { r with progress := progress, revision := r.revision + 1, updatedAt := now }

/-- The check of `update_job_progress`: a lease in the leased states, nothing in
`waiting` and `paused`. -/
def expectProgress (row : JobRow) (leaseOwner : String) (leaseEpoch : Nat) (now : ℚ) :
    Work Unit :=
  if row.status ∈ JobStatus.leasedStates then expectLease row leaseOwner leaseEpoch now
  else Txn.ensure (row.status = .waiting ∨ row.status = .paused)
    ⟨.invalidTransition,
      s!"cannot update progress for {row.jobId.val} in {row.status.text}"⟩

/-- `update_job_progress` -/
def updateJobProgress (H : Host) (env : Env) (jobId : String) (progress : PyDict)
    (leaseOwner : String) (leaseEpoch : Nat) (expectedRevision : Option Int) (merge : Bool)
    (actor : Option WorkActor) (now : Option ℚ) : Work JobRecord := do
  let row ← jobRow jobId
  expectRevision row expectedRevision
  expectProgress row leaseOwner leaseEpoch (now.getD env.time)
  let stored ← Txn.lift (inlineJson H
    (if merge then Dict.merge (entriesToPy row.progress) progress else progress))
  casJob jobId (fun r => r.revision == row.revision)
    (progressChange (now.getD env.time) stored) (fun _ => rfl) "job progress CAS lost"
  publishJob H env jobId "job.progressed"
    (some (actor.getD (.worker (if leaseOwner = "" then "variant1" else leaseOwner)))) noExtra

/-- What `mark_job_waiting` writes. -/
def waitChange (now : ℚ) (progress : List (String × Json)) (r : JobRow) : JobRow :=
  { r with
    status := .waiting, progress := progress, leaseOwner := "", leaseExpiresAt := none,
    continuation := true, revision := r.revision + 1, updatedAt := now }

/-- `mark_job_waiting` -/
def markJobWaiting (H : Host) (env : Env) (jobId leaseOwner : String) (leaseEpoch : Nat)
    (progress : Option PyDict) (now : Option ℚ) : Work JobRecord := do
  let row ← jobRow jobId
  expectLease row leaseOwner leaseEpoch (now.getD env.time) [.running]
  let stored ← Txn.lift (progressOr H progress row)
  casJob jobId (fun r => r.revision == row.revision)
    (waitChange (now.getD env.time) stored) (fun _ => rfl) "job wait CAS lost"
  publishJob H env jobId "job.waiting" (some (.worker leaseOwner)) noExtra

/-- What `wake_job` writes. -/
def wakeChange (now ready : ℚ) (r : JobRow) : JobRow :=
  { r with
    status := .queued, availableAt := ready, cancelRequested := false, cancelReason := "",
    revision := r.revision + 1, updatedAt := now }

/-- `wake_job` -/
def wakeJob (H : Host) (env : Env) (jobId : String) (expectedRevision : Option Int)
    (availableAt : Option ℚ) (actor : Option WorkActor) : Work JobRecord := do
  let row ← jobRow jobId
  expectRevision row expectedRevision
  Txn.ensure (row.status = .waiting ∨ row.status = .paused)
    ⟨.invalidTransition, s!"cannot wake {jobId} from {row.status.text}"⟩
  casJob jobId (fun r => r.revision == row.revision)
    (wakeChange env.time (availableAt.getD env.time)) (fun _ => rfl) "job wake CAS lost"
  publishJob H env jobId "job.woken" actor noExtra

/-- What `pause_job` writes. -/
def pauseChange (now : ℚ) (progress : List (String × Json)) (r : JobRow) : JobRow :=
  { r with
    status := .paused, progress := progress, revision := r.revision + 1, updatedAt := now }

/-- The progress of a paused job names the reason it was given. -/
def pauseProgress (reason : String) (row : JobRow) : Except Raised PyDict :=
  if reason = "" then .ok (entriesToPy row.progress)
  else do
    let clean ← text reason "pause reason" false 4000
    pure (Dict.set (entriesToPy row.progress) "pause_reason" (.str clean.val))

/-- `pause_job` -/
def pauseJob (H : Host) (env : Env) (jobId reason : String) (expectedRevision : Option Int)
    (actor : Option WorkActor) : Work JobRecord := do
  let row ← jobRow jobId
  expectRevision row expectedRevision
  Txn.ensure (row.status = .queued ∨ row.status = .waiting)
    ⟨.invalidTransition,
      s!"only queued or waiting jobs can pause immediately ({row.status.text})"⟩
  let progress ← Txn.lift (pauseProgress reason row)
  let stored ← Txn.lift (inlineJson H progress)
  casJob jobId (fun r => r.revision == row.revision)
    (pauseChange env.time stored) (fun _ => rfl) "job pause CAS lost"
  publishJob H env jobId "job.paused" actor noExtra

/-! ## Cancelling -/

/-- The states in which a cancellation takes effect at once. -/
def cancelsAtOnce (s : JobStatus) : Bool :=
  s == .queued || s == .waiting || s == .paused || s == .leased

/-- What `request_job_cancel` writes. -/
def cancelChange (now : ℚ) (reason : String) (immediate : Bool) (r : JobRow) : JobRow :=
  { r with
    status := if immediate then .cancelled else r.status,
    cancelRequested := true, cancelReason := reason,
    leaseOwner := if immediate then "" else r.leaseOwner,
    leaseExpiresAt := if immediate then none else r.leaseExpiresAt,
    completedAt := if immediate then some now else none,
    revision := r.revision + 1, updatedAt := now }

/-- `request_job_cancel` -/
def requestJobCancel (H : Host) (env : Env) (jobId reason : String)
    (expectedRevision : Option Int) (actor : Option WorkActor) : Work JobRecord := do
  let cleanReason ← Txn.lift (text reason "cancel reason" false 4000)
  let row ← jobRow jobId
  expectRevision row expectedRevision
  if row.status ∈ JobStatus.terminal then returnJob jobId
  else if row.cancelRequested = true then returnJob jobId
  else do
    casJob jobId (fun r => r.revision == row.revision)
      (cancelChange env.time cleanReason.val (cancelsAtOnce row.status)) (fun _ => rfl)
      "job cancellation CAS lost"
    publishJob H env jobId
      (if cancelsAtOnce row.status then "job.cancelled" else "job.cancel_requested") actor
      fun _ => [("reason", .str cleanReason.val)]

/-- What `acknowledge_job_cancel` writes. -/
def acknowledgeChange (now : ℚ) (r : JobRow) : JobRow :=
  { r with
    status := .cancelled, leaseOwner := "", leaseExpiresAt := none, completedAt := some now,
    revision := r.revision + 1, updatedAt := now }

/-- `acknowledge_job_cancel`: the one update that does not look at its row count. -/
def acknowledgeJobCancel (H : Host) (env : Env) (jobId leaseOwner : String) (leaseEpoch : Nat)
    (now : Option ℚ) : Work JobRecord := do
  let row ← jobRow jobId
  if row.status = .cancelled then returnJob jobId
  else do
    expectLease row leaseOwner leaseEpoch (now.getD env.time)
    Txn.ensure (row.cancelRequested = true)
      ⟨.invalidTransition, s!"job {jobId} has no cancellation request"⟩
    let _ ← updateJobRows jobId (fun r => r.revision == row.revision)
      (acknowledgeChange (now.getD env.time)) fun _ => rfl
    publishJob H env jobId "job.cancelled" (some (.worker leaseOwner)) noExtra

/-! ## Finishing, releasing, retrying -/

/-- What `finish_job` writes. -/
def finishChange (target : JobStatus) (resultRef diagnosticsRef error : String)
    (progress : List (String × Json)) (now : ℚ) (r : JobRow) : JobRow :=
  { r with
    status := target, resultRef := resultRef, diagnosticsRef := diagnosticsRef,
    progress := progress, error := error, leaseOwner := "", leaseExpiresAt := none,
    completedAt := some now, revision := r.revision + 1, updatedAt := now }

/-- The payload of a finished job. -/
def finishPayload (r : JobRow) : PyDict :=
  [("result_ref", .str r.resultRef), ("diagnostics_ref", .str r.diagnosticsRef),
    ("error", .str r.error)]

/-- The body of `finish_job`, on the caller's connection. -/
def finishJob (H : Host) (env : Env) (jobId status leaseOwner : String) (leaseEpoch : Nat)
    (resultRef diagnosticsRef : String) (progress : Option PyDict) (error : String) (now : ℚ) :
    Work JobRecord := do
  match JobStatus.terminal.find? fun s => s.text == status with
  | none => Txn.raise (valueError s!"invalid terminal job state: {status}")
  | some target =>
      let row ← jobRow jobId
      expectLease row leaseOwner leaseEpoch now
      Txn.ensure (¬ (row.cancelRequested = true ∧ target = .succeeded))
        ⟨.invalidTransition, s!"job {jobId} cannot succeed after cancellation was requested"⟩
      let stored ← Txn.lift (progressOr H progress row)
      let cleanResult ← Txn.lift (text resultRef "result_ref" false 2000)
      let cleanDiagnostics ← Txn.lift (text diagnosticsRef "diagnostics_ref" false 2000)
      let cleanError ← Txn.lift (text error "job error" false 16000)
      casJob jobId (fun r => r.revision == row.revision)
        (finishChange target cleanResult.val cleanDiagnostics.val cleanError.val stored now)
        (fun _ => rfl) "job finish CAS lost"
      publishJob H env jobId s!"job.{target.text}" (some (.worker leaseOwner)) finishPayload

/-- Where `release_job` sends a job. -/
def releaseTarget (unknownEffect : Bool) (r : JobRow) : JobStatus :=
  if r.cancelRequested then .cancelled
  else if unknownEffect then .unknownEffect
  else if r.attempt < r.maxAttempts then .queued
  else .failed

/-- What `release_job` writes. -/
def releaseChange (target : JobStatus) (available : ℚ) (error : String) (now : ℚ) (r : JobRow) :
    JobRow :=
  { r with
    status := target, availableAt := available, error := error, leaseOwner := "",
    leaseExpiresAt := none,
    completedAt := if target ∈ JobStatus.terminal then some now else none,
    revision := r.revision + 1, updatedAt := now }

/-- The event that announces where a released or recovered job went. -/
def settledEvent (queued : String) : JobStatus → String
  | .queued => queued
  | .cancelled => "job.cancelled"
  | .unknownEffect => "job.unknown_effect"
  | _ => "job.failed"

/-- The payload of a released job. -/
def releasePayload (H : Host) (available : ℚ) (r : JobRow) : PyDict :=
  [("error", .str r.error), ("available_at", .float (H.floatText available))]

/-- `release_job` -/
def releaseJob (H : Host) (env : Env) (jobId leaseOwner : String) (leaseEpoch : Nat)
    (error : String) (retryDelay : ℚ) (unknownEffect : Bool) (now : Option ℚ) :
    Work JobRecord := do
  let row ← jobRow jobId
  expectLease row leaseOwner leaseEpoch (now.getD env.time)
  let cleanError ← Txn.lift (text error "job error" false 16000)
  casJob jobId (fun r => r.revision == row.revision)
    (releaseChange (releaseTarget unknownEffect row) (now.getD env.time + max 0 retryDelay)
      cleanError.val (now.getD env.time)) (fun _ => rfl) "job release CAS lost"
  publishJob H env jobId (settledEvent "job.retry_scheduled" (releaseTarget unknownEffect row))
    (some (.worker leaseOwner)) (releasePayload H (now.getD env.time + max 0 retryDelay))

/-- What `retry_job` writes. -/
def retryChange (resetAttempts : Bool) (now ready : ℚ) (r : JobRow) : JobRow :=
  { r with
    status := .queued, attempt := if resetAttempts then 0 else r.attempt, availableAt := ready,
    resultRef := "", diagnosticsRef := "", error := "", cancelRequested := false,
    cancelReason := "", continuation := false, completedAt := none,
    revision := r.revision + 1, updatedAt := now }

/-- `retry_job` -/
def retryJob (H : Host) (env : Env) (jobId : String) (expectedRevision : Option Int)
    (availableAt : Option ℚ) (resetAttempts : Bool) (actor : Option WorkActor) :
    Work JobRecord := do
  let row ← jobRow jobId
  expectRevision row expectedRevision
  Txn.ensure (row.status = .failed ∨ row.status = .unknownEffect)
    ⟨.invalidTransition, s!"cannot retry {jobId} from {row.status.text}"⟩
  Txn.ensure (resetAttempts = true ∨ row.attempt < row.maxAttempts)
    ⟨.invalidTransition, s!"job {jobId} exhausted {row.maxAttempts} attempts"⟩
  casJob jobId (fun r => r.revision == row.revision)
    (retryChange resetAttempts env.time (availableAt.getD env.time)) (fun _ => rfl)
    "job retry CAS lost"
  publishJob H env jobId "job.retry_scheduled" actor fun _ =>
    [("available_at", .float (H.floatText (availableAt.getD env.time))),
      ("attempts_reset", .bool resetAttempts)]

/-! ## Recovering expired leases -/

/-- The lease of a row has expired. -/
def leaseExpired (now : ℚ) (r : JobRow) : Bool :=
  r.status ∈ JobStatus.leasedStates && r.leaseExpiresAt.any fun expires => expires ≤ now

/-- `ORDER BY lease_expires_at, job_id` -/
def expiryOrder (a b : JobRow) : Prop :=
  if a.leaseExpiresAt.getD 0 ≠ b.leaseExpiresAt.getD 0 then
    a.leaseExpiresAt.getD 0 < b.leaseExpiresAt.getD 0
  else a.jobId.val ≤ b.jobId.val

instance : DecidableRel expiryOrder := fun a b => by
  unfold expiryOrder
  infer_instance

/-- `str(policy.get("on_lease_expiry") or "unknown_effect")`, as far as it is
compared: only a text can be one of the two policies. -/
def expiryPolicy (policy : List (String × Json)) : String :=
  match Dict.get? policy "on_lease_expiry" with
  | some (.str s) => if s = "" then "unknown_effect" else s
  | _ => "unknown_effect"

/-- Where recovery sends a job. -/
def recoverTarget (r : JobRow) : JobStatus :=
  if r.cancelRequested then .cancelled
  else if r.status = .leased then if r.attempt < r.maxAttempts then .queued else .failed
  else if r.syncHandler then .unknownEffect
  else if expiryPolicy r.retryPolicy = "retry" ∧ r.attempt < r.maxAttempts then .queued
  else if expiryPolicy r.retryPolicy = "fail" then .failed
  else .unknownEffect

/-- `float(policy.get(name) or 0.0)` -/
def policyNumber (H : Host) (policy : List (String × Json)) (name : String) :
    Except Raised ℚ :=
  match Dict.get? policy name with
  | none | some .null | some (.bool false) | some (.arr []) | some (.obj []) => .ok 0
  | some (.bool true) => .ok 1
  | some (.int i) => .ok i
  | some (.float x) => .ok x.value
  | some (.str s) =>
      if s = "" then .ok 0
      else match H.readFloat s with
        | some x => .ok x
        | none => .error (valueError s!"could not convert string to float: '{s}'")
  | some (.arr _) =>
      .error ⟨.typeError, "float() argument must be a string or a real number, not 'list'"⟩
  | some (.obj _) =>
      .error ⟨.typeError, "float() argument must be a string or a real number, not 'dict'"⟩

/-- Why a job was recovered. -/
def recoverReason (s : JobStatus) : String :=
  if s = .leased then "job lease expired before handler start"
  else "job lease expired while handler was running"

/-- What `recover_expired_job_leases` writes. -/
def recoverChange (old : JobRow) (available now : ℚ) (r : JobRow) : JobRow :=
  { r with
    status := recoverTarget old, availableAt := available, leaseOwner := "",
    leaseExpiresAt := none,
    continuation := old.status == .leased && recoverTarget old == .queued,
    error := recoverReason old.status,
    completedAt := if recoverTarget old ∈ JobStatus.terminal then some now else none,
    revision := r.revision + 1, updatedAt := now }

/-- The iteration of the recovery loop for one row. -/
def recoverJob (H : Host) (env : Env) (now : ℚ) (row : JobRow) : Work JobRecord := do
  let delay ← Txn.lift (policyNumber H row.retryPolicy "base_delay_s")
  casJob row.jobId.val (fun r => r.revision == row.revision)
    (recoverChange row (now + max 0 delay) now) (fun _ => rfl) "expired job recovery lost"
  publishJob H env row.jobId.val (settledEvent "job.lease_recovered" (recoverTarget row)) none
    fun _ => [("previous_status", .str row.status.text),
      ("reason", .str (recoverReason row.status))]

/-- The recovery loop. -/
def recoverJobs (H : Host) (env : Env) (now : ℚ) : List JobRow → Work (List JobRecord)
  | [] => pure []
  | row :: rows => do
      let record ← recoverJob H env now row
      let records ← recoverJobs H env now rows
      pure (record :: records)

/-- The rows recovery finds. -/
def expiredJobs (t : Tables) (now : ℚ) : List JobRow :=
  (t.jobs.rows.filter (leaseExpired now)).insertionSort expiryOrder

/-- `recover_expired_job_leases` -/
def recoverExpiredJobLeases (H : Host) (env : Env) (now : Option ℚ) :
    Work (List JobRecord) := do
  let t ← Txn.read
  recoverJobs H env (now.getD env.time) (expiredJobs t (now.getD env.time))

/-! ## Publishing a result together with success -/

/-- `JobResult` -/
structure JobResult where
  resultRef : String
  diagnosticsRef : String
  progress : PyDict

/-- `JobExecutionContext.commit_result`: the caller publishes between two checks
and the job succeeds in the same transaction.  `publish` is what the caller's
function returned or raised; the rows it writes are not the repository's. -/
def commitResult (H : Host) (env : Env) (jobId leaseOwner : String) (leaseEpoch : Nat)
    (cancelledBefore cancelledDuring : Bool) (publish : Except Raised JobResult) :
    Work JobRecord := do
  let row ← jobRow jobId
  expectLease row leaseOwner leaseEpoch env.time
  Txn.ensure (¬ (cancelledBefore = true ∨ row.cancelRequested = true))
    ⟨.cancelled, "job cancelled before publication commit"⟩
  let result ← Txn.lift publish
  Txn.ensure (¬ cancelledDuring = true)
    ⟨.cancelled, "job cancelled during publication commit"⟩
  finishJob H env jobId "succeeded" leaseOwner leaseEpoch result.resultRef
    result.diagnosticsRef (some result.progress) "" env.finishTime

end WorkFabric
end VariantOne
