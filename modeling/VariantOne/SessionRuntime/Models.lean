import VariantOne.Core.Text
import VariantOne.Lib.Dict
import VariantOne.Lib.Table

/-!
# Records of the session runtime

A chat owns one durable runtime record and a queue of input tickets.  What lives
only in the process, the admitted run and the two fences that exclude it, is a
`LiveRuntime`.

The states of a ticket and the lifecycle of a runtime are inductive types; which states of a ticket are
terminal is a function on them (`TicketState.terminal`), and a record is deleted from the moment its
deletion begins (`ChatRuntimeRecord.deleted`).
-/

namespace VariantOne
namespace SessionRuntime

/-! ## What is raised -/

/-- The exceptions of the session runtime; `RuntimeDeleted` and `BudgetExhausted`
are kinds of `RuntimeError`. -/
inductive SessionError where
  | runtime (message : String)
  | value (message : String)
  | lookup (message : String)
  | type (message : String)
  | runtimeDeleted (message : String)
  | budgetExhausted (message : String)
  deriving DecidableEq, Repr

/-! ## Input tickets -/

/-- `TICKET_STATES` -/
inductive TicketState where
  | parked | queued | resumeQueued | selected | preparing | transcriptCommitting
  | transcriptFailed | running | completed | cancelled | rejected
  deriving DecidableEq, Repr

/-- `TICKET_TERMINAL_STATES` -/
def TicketState.terminal : TicketState → Bool
  | completed | cancelled | rejected | transcriptFailed => true
  | parked | queued | resumeQueued | selected | preparing | transcriptCommitting | running => false

/-- `InputTicket` -/
structure InputTicket where
  ticketId : String
  chatId : String
  delivery : String
  text : String
  state : TicketState
  clientId : String
  source : String
  attachmentId : String
  runId : String
  createdAt : ℚ
  updatedAt : ℚ
  selectedAt : ℚ
  transcriptCommittedAt : ℚ
  completedAt : ℚ
  proof : PyDict
  error : String

/-- The tickets, by id. -/
abbrev TicketTable := Table InputTicket String InputTicket.ticketId

/-! ## The runtime record -/

/-- The lifecycle states of a runtime. -/
inductive Lifecycle where
  | creating | active | deleting | deleted
  deriving DecidableEq, Repr

/-- `RuntimeIdentity` -/
structure RuntimeIdentity where
  actionSurface : String
  providerToolSchemaRevision : String
  graphRevision : String
  catalogReleaseId : String
  environmentDigest : String
  trustProfile : String
  disclosureProfileId : String
  disclosureProfileRevision : String
  discoveryStateRef : String
  mountRevision : Option Int
  selectedCategoryId : String
  overlayRevision : Int
  deriving DecidableEq, Repr

/-- Budget amounts by key; amounts are exact. -/
abbrev Amounts := List (String × ℚ)

/-- `ChatRuntimeRecord` -/
structure ChatRuntimeRecord where
  chatId : String
  lifecycleState : Lifecycle
  identity : RuntimeIdentity
  continuationState : String
  mutationWriteEnabled : Bool
  mutationAuthorityRevision : Nat
  mutationAuthorityUpdatedAt : ℚ
  mutationAuthorityActor : String
  budgetLimits : Amounts
  budgetUsed : Amounts
  creationSagaState : String
  version : Nat
  createdAt : ℚ
  updatedAt : ℚ

/-- The runtime records, by chat. -/
abbrev RuntimeTable := Table ChatRuntimeRecord String ChatRuntimeRecord.chatId

/-- `ChatRuntimeRecord.deleted` -/
def ChatRuntimeRecord.deleted (record : ChatRuntimeRecord) : Bool :=
  record.lifecycleState == .deleting || record.lifecycleState == .deleted

/-! ## The live runtime -/

/-- `_RunAdmission`: one admitted run. -/
structure RunAdmission where
  admissionId : String
  chatId : String
  attachmentId : String
  reservedAt : ℚ
  runId : String
  threadId : String
  background : Bool
  acceptingInputs : Bool
  budgetBaseline : Amounts

/-- `_LiveRuntime`: the admission, the pending settings change and the claimed
retirement of the kernel.  A retirement is known by its future. -/
structure LiveRuntime where
  admission : Option RunAdmission
  kernelLease : Bool
  settingsChangeId : String
  kernelRetirement : Option Nat
  queueParkReason : String

/-- `_LiveRuntime(chat_id)` -/
def LiveRuntime.new : LiveRuntime := ⟨none, false, "", none, ""⟩

end SessionRuntime
end VariantOne
