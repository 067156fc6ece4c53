import VariantOne.Core.Text

/-!
# Records of the work fabric

The value contracts the repository and its services share: the states of a job
and of an outbox item, the scope and the actor a command carries, and the
records a caller gets back.  A job's columns are `JobFields`; the stored row and
the record a caller sees (`JobRow`, `JobRecord`) differ only in how an absent
time is written.

States are inductive types with the tables of transitions as functions on them; a text that was cleaned
is a `Text`, so the rows cannot hold a blank id.  What is written of a record and what is read of a row
are two functions, and they agree on everything but absent times.
-/

namespace VariantOne
namespace WorkFabric

/-! ## States -/

/-- `JOB_STATES` -/
inductive JobStatus where
  | queued | leased | running | waiting | paused | succeeded | failed | cancelled | unknownEffect
  deriving DecidableEq, Repr

namespace JobStatus

/-- The text a state is stored and published as. -/
def text : JobStatus → String
  | queued => "queued"
  | leased => "leased"
  | running => "running"
  | waiting => "waiting"
  | paused => "paused"
  | succeeded => "succeeded"
  | failed => "failed"
  | cancelled => "cancelled"
  | unknownEffect => "unknown_effect"

/-- `JOB_TERMINAL_STATES` -/
def terminal : List JobStatus := [succeeded, failed, cancelled, unknownEffect]

/-- `JOB_LEASED_STATES` -/
def leasedStates : List JobStatus := [leased, running]

theorem text_injective {s s' : JobStatus} (h : s.text = s'.text) : s = s' := by
  revert h
  cases s <;> cases s' <;> decide

end JobStatus

/-- `OUTBOX_STATES` -/
inductive OutboxStatus where
  | pending | leased | delivered | dead
  deriving DecidableEq, Repr

/-! ## Scope and actor -/

/-- A cleaned scope identifier. -/
abbrev Identifier := Text false 512

/-- `WorkScope`: host-owned identifiers, cleaned at construction. -/
structure WorkScope where
  chatId : Identifier
  conversationId : Identifier
  branchId : Identifier
  workspaceId : Identifier
  workspaceRevision : Nat
  goalId : Identifier
  goalRunId : Identifier
  stepId : Identifier
  attempt : Nat
  worktreeId : Identifier
  kernelGeneration : Nat
  catalogReleaseId : Identifier
  deriving DecidableEq

namespace WorkScope

/-- `EMPTY_WORK_SCOPE` -/
def empty : WorkScope :=
  ⟨Text.none 512, Text.none 512, Text.none 512, Text.none 512, 0, Text.none 512, Text.none 512,
    Text.none 512, 0, Text.none 512, 0, Text.none 512⟩

/-- `WorkScope.to_dict` -/
def toDict (s : WorkScope) : PyDict :=
  [("chat_id", .str s.chatId.val), ("conversation_id", .str s.conversationId.val),
    ("branch_id", .str s.branchId.val), ("workspace_id", .str s.workspaceId.val),
    ("workspace_revision", .int s.workspaceRevision), ("goal_id", .str s.goalId.val),
    ("goal_run_id", .str s.goalRunId.val), ("step_id", .str s.stepId.val),
    ("attempt", .int s.attempt), ("worktree_id", .str s.worktreeId.val),
    ("kernel_generation", .int s.kernelGeneration),
    ("catalog_release_id", .str s.catalogReleaseId.val)]

end WorkScope

/-- `WorkActor` -/
structure WorkActor where
  kind : String
  actorId : String
  deriving DecidableEq, Repr

namespace WorkActor

/-- The default actor. -/
def system : WorkActor := ⟨"system", "variant1"⟩

/-- A worker, known by the name it leases under. -/
def worker (name : String) : WorkActor := ⟨"worker", name⟩

/-- `WorkActor.to_dict` -/
def toDict (a : WorkActor) : PyDict := [("kind", .str a.kind), ("id", .str a.actorId)]

end WorkActor

/-! ## Events and outbox items -/

/-- `WorkEvent` -/
structure WorkEvent where
  eventId : String
  sequence : Nat
  aggregateKind : Text true 100
  aggregateId : Text true 512
  aggregateVersion : Nat
  eventType : Text true 240
  scope : WorkScope
  actor : WorkActor
  correlationId : Text false 512
  causationId : Text false 512
  idempotencyKey : Text false 512
  requestFingerprint : String
  payloadRef : Text false 2000
  payload : List (String × Json)
  createdAt : ℚ

/-- `OutboxItem`: an outbox row joined with its event. -/
structure OutboxItem where
  outboxId : String
  event : WorkEvent
  status : OutboxStatus
  attempts : Nat
  availableAt : ℚ
  leaseOwner : String
  leaseEpoch : Nat
  leaseExpiresAt : ℚ
  lastError : String
  createdAt : ℚ
  deliveredAt : ℚ

/-! ## Jobs -/

/-- The columns a job's row and its record have in common.  A job allows at
least one attempt. -/
structure JobFields where
  jobId : Text true 512
  ownerKind : Text true 100
  ownerId : Text true 512
  kind : Text true 240
  status : JobStatus
  scope : WorkScope
  priority : Int
  revision : Nat
  inputManifest : List (String × Json)
  artifactRefs : List (Text true 2000)
  leaseOwner : String
  leaseEpoch : Nat
  continuation : Bool
  attempt : Nat
  maxAttempts : Nat
  retryPolicy : List (String × Json)
  progress : List (String × Json)
  eventCursor : Nat
  resultRef : String
  diagnosticsRef : String
  idempotencyKey : Text false 512
  requestFingerprint : String
  cancelRequested : Bool
  cancelReason : String
  availableAt : ℚ
  createdAt : ℚ
  updatedAt : ℚ
  error : String
  maxAttempts_pos : 0 < maxAttempts

/-- A row of `work_job`. -/
structure JobRow extends JobFields where
  leaseExpiresAt : Option ℚ
  syncHandler : Bool
  startedAt : Option ℚ
  heartbeatAt : Option ℚ
  completedAt : Option ℚ

/-- `JobRecord` -/
structure JobRecord extends JobFields where
  leaseExpiresAt : ℚ
  startedAt : ℚ
  heartbeatAt : ℚ
  completedAt : ℚ

/-- `_job_from_row`: an absent time reads as 0. -/
def JobRow.record (row : JobRow) : JobRecord where
  toJobFields := row.toJobFields
  leaseExpiresAt := row.leaseExpiresAt.getD 0
  startedAt := row.startedAt.getD 0
  heartbeatAt := row.heartbeatAt.getD 0
  completedAt := row.completedAt.getD 0

@[simp] theorem JobRow.record_toJobFields (row : JobRow) :
    row.record.toJobFields = row.toJobFields := rfl

/-- `ProjectionSnapshot` -/
structure ProjectionSnapshot where
  name : Text true 240
  lastSequence : Nat
  state : PyDict
  updatedAt : ℚ

end WorkFabric
end VariantOne
