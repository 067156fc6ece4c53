import VariantOne.Core.Dynamic
import VariantOne.Core.Fingerprint

/-!
# Receipts of capability invocations

An invocation resolves a capability, asks for its metadata under the arguments of the call,
looks for a cancellation, checks the arguments and dispatches the handler.  Every way out
of this ends in one receipt, which says whether the effect may have been applied.

Durations, trace events and the typed content blocks are not modelled: what the projection
of a result gives is the environment's.

An exception is told by its class, by the fields a tool error carries and by whether its text can be had
at all, for that is what the handlers of the source look at.  The ways out of an invocation are functions of
their own, in the order in which the source tries them (`Prepared`, `DispatchEnd`), so what a receipt says
can be followed back to what happened.
-/

namespace VariantOne
namespace Capability

/-! ## 1.  Exceptions -/

/-- How `except` clauses see an exception. -/
inductive ExceptionClass where
  | cancelledError | exception | baseException
  deriving DecidableEq, Repr

/-- The fields of a `ToolError`. -/
structure ToolErrorFields where
  code : String
  causeClass : String
  deriving DecidableEq, Repr

/-- An exception, with what `str(exc)` gives: a text, or another exception. -/
inductive PyException where
  | printable (typeName : String) (cls : ExceptionClass) (tool : Option ToolErrorFields)
      (text : String)
  | unprintable (typeName : String) (cls : ExceptionClass) (tool : Option ToolErrorFields)
      (raised : PyException)
  deriving DecidableEq, Repr

namespace PyException

/-- `type(exc).__name__` -/
def typeName : PyException → String
  | printable name _ _ _ | unprintable name _ _ _ => name

def cls : PyException → ExceptionClass
  | printable _ cls _ _ | unprintable _ cls _ _ => cls

/-- The fields of the exception, if it is a `ToolError`. -/
def tool : PyException → Option ToolErrorFields
  | printable _ _ tool _ | unprintable _ _ tool _ => tool

/-- `str(exc)` -/
def str : PyException → Except PyException String
  | printable _ _ _ text => .ok text
  | unprintable _ _ _ raised => .error raised

/-- A `ToolError` with its default code. -/
def toolError (message : String) : PyException :=
  printable "ToolError" .exception (some ⟨"tool_error", "capability"⟩) message

/-- What a cancelled task raises. -/
def cancelledError : PyException := printable "CancelledError" .cancelledError none ""

end PyException

/-! ## 2.  Capabilities -/

/-- `CapabilityMetadata` -/
structure CapabilityMetadata where
  capabilityId : String
  schemaRevision : String
  handlerRevision : String
  effectClass : String
  parallelSafe : Bool
  idempotency : String
  touchesDesktop : Bool
  mayReturnSecrets : Bool
  defaultDeadlineMs : Int
  resultProjection : String
  deriving DecidableEq, Repr

/-- `_effectful` -/
def CapabilityMetadata.effectful (m : CapabilityMetadata) : Bool :=
  !(["pure", "read"].contains m.effectClass)

/-- `CapabilityRef` -/
structure CapabilityRef where
  capabilityId : String
  schemaRevision : String
  handlerRevision : String
  catalogReleaseId : String
  slotId : String
  slotVersion : Int
  deriving DecidableEq, Repr

/-- The metadata of a capability that was not resolved. -/
def CapabilityRef.unknown (ref : CapabilityRef) : CapabilityMetadata :=
  ⟨ref.capabilityId, ref.schemaRevision, ref.handlerRevision, "external_side_effect", false, "none",
    false, false, 0, "typed-content-v1"⟩

/-- `"\0".join(texts)` -/
def nulJoin (texts : List String) : String := String.intercalate (String.singleton (Char.ofNat 0)) texts

/-- `opaque_id` -/
def CapabilityRef.opaqueId (H : Host) (ref : CapabilityRef) : String :=
  let basis := nulJoin [ref.catalogReleaseId, ref.capabilityId, ref.schemaRevision,
    ref.handlerRevision, ref.slotId, toString ref.slotVersion]
  "cap_" ++ String.ofList ((H.sha256 basis.toList).toList.take 28)

/-- A tool, as the broker uses it: its handler is the environment's. -/
structure CapabilityTool where
  name : String
  /-- `broker_metadata()` -/
  brokerMetadata : Except PyException PyDict
  /-- `broker_metadata_for_args(args)`, if the tool has it. -/
  metadataForArgs : Option (PyDict → Except PyException PyDict)
  /-- `validate_args(args)` -/
  validateArgs : PyDict → Except PyException PyDict

/-- What a broker is built from.  `receiptSinks` says of each sink whether it is
required. -/
structure CapabilityBroker where
  H : Host
  P : Interpreter
  registry : String → Except PyException (Option CapabilityTool)
  usesDesktopSurface : String → Bool
  hasDesktopLock : Bool
  receiptSinks : List Bool
  configuredDedupeCapacity : Int
  configuredBatchCalls : Int
  configuredFanout : Int

/-- `max(128, int(dedupe_capacity))` -/
def CapabilityBroker.dedupeCapacity (B : CapabilityBroker) : Nat :=
  max 128 B.configuredDedupeCapacity.toNat

/-- `max(1, int(max_batch_calls))` -/
def CapabilityBroker.maxBatchCalls (B : CapabilityBroker) : Nat := max 1 B.configuredBatchCalls.toNat

/-- `max(1, int(max_fanout))` -/
def CapabilityBroker.maxFanout (B : CapabilityBroker) : Nat := max 1 B.configuredFanout.toNat

variable (B : CapabilityBroker)

/-- `str(raw.get(key) or default)` -/
def CapabilityBroker.textOr (raw : PyDict) (key default : String) : String :=
  B.P.text (orElse (Dict.get? raw key) (.str default))

/-- `bool(raw.get(key))` -/
def flag (raw : PyDict) (key : String) : Bool := (Dict.get? raw key).any PyValue.truthy

/-- The metadata of a tool under arguments, before it is normalised. -/
def CapabilityTool.rawMetadata (tool : CapabilityTool) (args : Option PyDict) :
    Except PyException PyDict := do
  let raw ← tool.brokerMetadata
  match args, tool.metadataForArgs with
  | some a, some f => (f a).map (Dict.merge raw)
  | _, _ => return raw

/-- `metadata_for_tool` -/
def CapabilityBroker.metadataForTool (tool : CapabilityTool) (args : Option PyDict) :
    Except PyException CapabilityMetadata := do
  let raw ← tool.rawMetadata args
  let touches := match Dict.get? raw "touches_desktop" with
    | none | some .none => B.usesDesktopSurface tool.name
    | some v => v.truthy
  match B.P.toInt (orElse (Dict.get? raw "default_deadline_ms") (.int 0)) with
  | none => .error (.printable "ValueError" .exception none "invalid default_deadline_ms")
  | some deadline =>
      return { capabilityId := B.textOr raw "capability_id" tool.name
               schemaRevision := B.textOr raw "schema_revision" "unversioned-schema"
               handlerRevision := B.textOr raw "handler_revision" "unversioned-handler"
               effectClass := B.textOr raw "effect_class" "external_side_effect"
               parallelSafe := flag raw "parallel_safe" && !touches
               idempotency := B.textOr raw "idempotency" "none"
               touchesDesktop := touches
               mayReturnSecrets := flag raw "may_return_secrets"
               defaultDeadlineMs := max 0 deadline
               resultProjection := B.textOr raw "result_projection" "typed-content-v1" }

/-- `_resolve` -/
def CapabilityBroker.resolve (ref : CapabilityRef) :
    Except PyException (CapabilityTool × CapabilityMetadata) := do
  match ← B.registry ref.capabilityId with
  | none => .error (.toolError s!"capability is unavailable: {ref.capabilityId}")
  | some tool =>
      let metadata ← B.metadataForTool tool none
      if metadata.schemaRevision ≠ ref.schemaRevision ∨ metadata.handlerRevision ≠ ref.handlerRevision then
        .error (.toolError "stale capability reference: schema or handler revision changed")
      else return (tool, metadata)

/-! ## 3.  Invocations -/

/-- `InvocationContext`, of the fields that decide anything or name the invocation. -/
structure InvocationContext where
  chatId : String
  runId : String
  outerToolCallId : String
  cellExecutionId : String
  nestedCallId : String
  catalogReleaseId : String
  deadlineMs : Int
  idempotencyKey : String
  batchId : String
  batchIndex : Int
  desktopLockHeld : Bool
  deriving DecidableEq, Repr

/-- `_ledger_key` -/
def InvocationContext.ledgerKey (context : InvocationContext) : String :=
  nulJoin [context.chatId, context.runId, context.cellExecutionId, context.nestedCallId]

/-- What an invocation has computed before it is admitted. -/
structure Invocation where
  ref : CapabilityRef
  rawArgs : PyDict
  context : InvocationContext
  argumentsSha256 : String
  fingerprint : String
  acceptedAt : String
  receiptId : String

/-- The identity of the invocation in the ledger. -/
def Invocation.key (c : Invocation) : String := c.context.ledgerKey

/-- `_fingerprint` -/
def CapabilityBroker.fingerprint (ref : CapabilityRef) (argumentsSha256 : String) :
    Except Raised String :=
  requestFingerprint B.H "capability.invoke"
    (.dict [("ref_id", .str (ref.opaqueId B.H)), ("arguments_sha256", .str argumentsSha256)])

/-- A context whose nested call has a name. -/
def InvocationContext.named (context : InvocationContext) (u : BitVec 128) : InvocationContext :=
  if context.nestedCallId = "" then
    { context with nestedCallId := "nested_" ++ String.ofList (uuidHex u) }
  else context

/-- The head of `_invoke_owned`. -/
def CapabilityBroker.accept (ref : CapabilityRef) (args : Option PyDict) (context : InvocationContext)
    (now : String) (u : BitVec 128) : Except Raised Invocation := do
  let context := context.named u
  let rawArgs := args.getD []
  let canonical ← strictJsonValue (.dict rawArgs) "$"
  let argumentsSha256 := B.H.sha256 (Json.dumps canonical)
  let fingerprint ← B.fingerprint ref argumentsSha256
  let seed := nulJoin [context.ledgerKey, now]
  return { ref := ref, rawArgs := rawArgs, context := context, argumentsSha256 := argumentsSha256
           fingerprint := fingerprint, acceptedAt := now
           receiptId := "rcpt_" ++ String.ofList ((B.H.sha256 seed.toList).toList.take 28) }

/-! ## 4.  Receipts -/

/-- `CAPABILITY_STATUSES`, of those the broker gives. -/
inductive ReceiptStatus where
  | ok | error | cancelled | cancelledBeforeStart | timedOut | needsReconciliation
  deriving DecidableEq, Repr

/-- `CapabilityErrorInfo` -/
structure CapabilityErrorInfo where
  code : String
  message : String
  retryable : Bool
  mayHaveApplied : Bool
  causeClass : String
  deriving DecidableEq, Repr

/-- `EffectRecord`.  Nothing was attempted before dispatch. -/
structure EffectRecord where
  effectClass : String
  acceptedAt : String
  attemptedAt : Option String
  observedAt : String
  idempotencyKey : String
  deriving DecidableEq, Repr

/-- What the projection of a result keeps of it. -/
structure Projection (β : Type) where
  content : β
  terminate : Bool

/-- `CapabilityReceipt` -/
structure CapabilityReceipt (β : Type) where
  receiptId : String
  status : ReceiptStatus
  ref : CapabilityRef
  metadata : CapabilityMetadata
  argumentsSha256 : String
  content : Option β
  error : Option CapabilityErrorInfo
  effect : EffectRecord
  attribution : InvocationContext
  /-- `result_metadata["receipt_persistence_failures"]` -/
  persistenceFailures : List String
  terminate : Bool
  deduplicated : Bool

/-- The error says that the effect may have been applied. -/
def CapabilityReceipt.mayHaveApplied {β : Type} (r : CapabilityReceipt β) : Bool :=
  r.error.any (·.mayHaveApplied)

def CapabilityReceipt.retryable {β : Type} (r : CapabilityReceipt β) : Bool :=
  r.error.any (·.retryable)

/-- A text occurs in another. -/
def occursIn (needle hay : String) : Bool := hay.toList.tails.any (needle.toList.isPrefixOf ·)

/-- The cause class that the code of an error implies. -/
def inferredCauseClass (code : String) : String :=
  if ["cancellation_authority_failed", "capability_handler_error",
      "receipt_persistence_failed"].contains code then "harness"
  else if ["invalid_arguments", "duplicate_nested_call_conflict"].contains code then "model"
  else if occursIn "cancelled" code then "unknown"
  else if code = "facility_disabled_by_user" then "user"
  else "capability"

/-- What an error receipt says of its error. -/
structure Failure where
  status : ReceiptStatus
  code : String
  message : String
  retryable : Bool
  mayHaveApplied : Bool
  /-- Blank if the code implies it. -/
  causeClass : String

/-- `_error_receipt` -/
def Invocation.errorReceipt {β : Type} (c : Invocation) (receiptId : String)
    (metadata : CapabilityMetadata) (attemptedAt : Option String) (observedAt : String) (f : Failure) :
    CapabilityReceipt β where
  receiptId := receiptId
  status := f.status
  ref := c.ref
  metadata := metadata
  argumentsSha256 := c.argumentsSha256
  content := none
  error := some { code := f.code, message := if f.message = "" then f.code else f.message
                  retryable := f.retryable, mayHaveApplied := f.mayHaveApplied
                  causeClass := if f.causeClass = "" then inferredCauseClass f.code else f.causeClass }
  effect := ⟨metadata.effectClass, c.acceptedAt, attemptedAt, observedAt, c.context.idempotencyKey⟩
  attribution := c.context
  persistenceFailures := []
  terminate := false
  deduplicated := false

/-! ## 5.  Before dispatch -/

/-- `CancellationProbeResult` -/
structure CancellationProbe where
  requested : Bool
  authorityFailed : Bool
  error : String
  deriving DecidableEq, Repr

/-- Nothing asks for cancellation. -/
def CancellationProbe.clear : CancellationProbe := ⟨false, false, ""⟩

/-- What `ownership` says of an invocation when it is interrupted. -/
structure Ownership where
  metadata : Option CapabilityMetadata
  attemptedAt : Option String

/-- How the preparation of an admitted invocation ends. -/
inductive Prepared (β : Type) where
  | finalize (receipt : CapabilityReceipt β) (owned : Ownership)
  | interrupted (owned : Ownership) (e : PyException)
  | dispatch (metadata : CapabilityMetadata) (args : PyDict)

/-- `except Exception as exc`, with a failure that is made of `str(exc)`. -/
def Invocation.failPrepared {β : Type} (c : Invocation) (metadata : CapabilityMetadata)
    (owned : Ownership) (now : String) (e : PyException) (failure : String → Failure) : Prepared β :=
  match e.cls, e.str with
  | .exception, .ok text =>
      .finalize (c.errorReceipt c.receiptId metadata none now (failure text)) owned
  | .exception, .error e' => .interrupted owned e'
  | _, _ => .interrupted owned e

/-- The receipt of a cancellation before dispatch. -/
def Invocation.cancelledBeforeStart {β : Type} (c : Invocation) (metadata : CapabilityMetadata)
    (now : String) (probe : CancellationProbe) : CapabilityReceipt β :=
  c.errorReceipt c.receiptId metadata none now
    { status := .cancelledBeforeStart
      code := if probe.authorityFailed then "cancellation_authority_failed"
        else "broker_cancelled_before_start"
      message := if probe.authorityFailed then
          "cancellation authority failed before handler dispatch: " ++ probe.error
        else "capability cancelled before handler dispatch"
      retryable := !metadata.effectful
      mayHaveApplied := false
      causeClass := "" }

/-- The check of the arguments. -/
def Invocation.validate {β : Type} (c : Invocation) (tool : CapabilityTool)
    (metadata : CapabilityMetadata) (now : String) : Prepared β :=
  match tool.validateArgs c.rawArgs with
  | .error e => c.failPrepared metadata ⟨some metadata, none⟩ now e fun text =>
      ⟨.error, "invalid_arguments", if text = "" then "invalid capability arguments" else text, true,
        false, ""⟩
  | .ok args => .dispatch metadata args

/-- The cancellation that is asked for before dispatch. -/
def Invocation.checkCancelled {β : Type} (c : Invocation) (tool : CapabilityTool)
    (metadata : CapabilityMetadata) (probe : Except PyException CancellationProbe) (now : String) :
    Prepared β :=
  match probe with
  | .error e => .interrupted ⟨some metadata, none⟩ e
  | .ok probe =>
      if probe.requested then
        .finalize (c.cancelledBeforeStart metadata now probe) ⟨some metadata, none⟩
      else c.validate tool metadata now

/-- From admission to dispatch. -/
def CapabilityBroker.prepare {β : Type} (c : Invocation) (probe : Except PyException CancellationProbe)
    (now : String) : Prepared β :=
  match B.resolve c.ref with
  | .error e => c.failPrepared c.ref.unknown ⟨none, none⟩ now e fun text =>
      ⟨.error, if c.ref.schemaRevision = "unavailable" then "capability_unavailable"
        else "capability_resolution_error", text, false, false, ""⟩
  | .ok (tool, _) =>
      match B.metadataForTool tool (some c.rawArgs) with
      | .error e => .interrupted ⟨none, none⟩ e
      | .ok metadata => c.checkCancelled tool metadata probe now

/-! ## 6.  After dispatch -/

/-- How a dispatch ends: the projection of the result, or what `_dispatch` raises. -/
inductive DispatchEnd (β : Type) where
  | returned (projection : Except PyException (Projection β))
  | authorityFailed (error : String)
  | cancelled (message : String)
  | timedOut
  | raised (e : PyException)

/-- A dispatched invocation. -/
structure Dispatched where
  metadata : CapabilityMetadata
  attemptedAt : String

def Dispatched.owned (d : Dispatched) : Ownership := ⟨some d.metadata, some d.attemptedAt⟩

/-- The codes that declare that nothing was applied. -/
def harmlessCodes : List String :=
  ["facility_disabled_by_user", "stale_mcp_handle", "stale_execution_handle",
    "artifact_destination_exists", "desktop_invalid_target"]

/-- The mark of a disabled desktop facility in the text of an error. -/
def unavailableMark : String := "[desktop_error:TOOL_UNAVAILABLE]"

/-- The code and the cause class of an exception of the handler. -/
def PyException.fault (e : PyException) (text : String) : ToolErrorFields :=
  match e.tool with
  | none => ⟨"capability_handler_error", "harness"⟩
  | some tool =>
      let code := if tool.code = "" then "tool_error" else tool.code
      if code = "tool_error" ∧ occursIn unavailableMark text then ⟨"facility_disabled_by_user", "user"⟩
      else ⟨code, if tool.causeClass = "" then "capability" else tool.causeClass⟩

/-- The receipt of a dispatch that did not return. -/
def Invocation.afterDispatch {β : Type} (c : Invocation) (d : Dispatched) (now : String) (f : Failure) :
    CapabilityReceipt β :=
  c.errorReceipt c.receiptId d.metadata (some d.attemptedAt) now f

/-- A stop by the broker: uncertain for an effect, harmless otherwise. -/
def Dispatched.stopped (d : Dispatched) (status : ReceiptStatus) (code message cause : String) : Failure :=
  ⟨if d.metadata.effectful then .needsReconciliation else status, code, message,
    !d.metadata.effectful, d.metadata.effectful, cause⟩

/-- The failure that an exception of the handler is. -/
def Dispatched.failed (d : Dispatched) (e : PyException) (text : String) : Failure :=
  let fault := e.fault text
  ⟨.error, fault.code, if text = "" then e.typeName else text, !d.metadata.effectful,
    d.metadata.effectful && !harmlessCodes.contains fault.code, fault.causeClass⟩

/-- The receipt of a result. -/
def Invocation.okReceipt {β : Type} (c : Invocation) (d : Dispatched) (now : String)
    (projection : Projection β) : CapabilityReceipt β where
  receiptId := c.receiptId
  status := .ok
  ref := c.ref
  metadata := d.metadata
  argumentsSha256 := c.argumentsSha256
  content := some projection.content
  error := none
  effect := ⟨d.metadata.effectClass, c.acceptedAt, some d.attemptedAt, now, c.context.idempotencyKey⟩
  attribution := c.context
  persistenceFailures := []
  terminate := projection.terminate
  deduplicated := false

/-- The receipt of an exception of the handler, or what interrupts its making. -/
def Invocation.raisedOutcome {β : Type} (c : Invocation) (d : Dispatched) (now : String)
    (e : PyException) : Except PyException (CapabilityReceipt β × Option PyException) :=
  match e.cls with
  | .baseException => .error e
  | .cancelledError => .ok (c.afterDispatch d now (d.stopped .cancelled
      "broker_parent_cancelled_after_dispatch" "parent task cancelled capability after dispatch" ""),
      some e)
  | .exception => e.str.map fun text => (c.afterDispatch d now (d.failed e text), none)

/-- The receipt of a result that was returned. -/
def Invocation.returnedOutcome {β : Type} (c : Invocation) (d : Dispatched) (now : String) :
    Except PyException (Projection β) → Except PyException (CapabilityReceipt β × Option PyException)
  | .ok projection => .ok (c.okReceipt d now projection, none)
  | .error e =>
      if e.cls = .exception then
        e.str.map fun text => (c.afterDispatch d now (d.stopped .error
          "capability_result_projection_failed"
          s!"The capability returned, but its result could not be retained: {e.typeName}: {text}"
          "harness"), none)
      else .error e

/-- The receipt of a dispatch, with what is raised after it is stored; or what interrupts
its making. -/
def Invocation.outcome {β : Type} (c : Invocation) (d : Dispatched) (now : String) :
    DispatchEnd β → Except PyException (CapabilityReceipt β × Option PyException)
  | .raised e => c.raisedOutcome d now e
  | .authorityFailed error => .ok (c.afterDispatch d now (d.stopped .cancelled
      "cancellation_authority_failed" ("cancellation authority failed after dispatch: " ++ error) ""),
      none)
  | .cancelled message => .ok (c.afterDispatch d now (d.stopped .cancelled
      "broker_cancelled_after_dispatch" message ""), none)
  | .timedOut => .ok (c.afterDispatch d now (d.stopped .timedOut "broker_deadline_exceeded"
      "capability deadline exceeded after dispatch" ""), none)
  | .returned projection => c.returnedOutcome d now projection

/-- The receipt of the guard of `invoke`, for an invocation that was interrupted. -/
def Invocation.interruptedReceipt {β : Type} (c : Invocation) (owned : Ownership) (now : String)
    (e : PyException) : CapabilityReceipt β :=
  let metadata := owned.metadata.getD c.ref.unknown
  let uncertain := owned.attemptedAt.isSome && metadata.effectful
  let detail := match e.str with
    | .ok text => text
    | .error _ => "exception text unavailable"
  c.errorReceipt c.receiptId metadata owned.attemptedAt now
    ⟨if uncertain then .needsReconciliation else .error, "capability_admission_interrupted",
      s!"{e.typeName}: {detail}", false, uncertain, "harness"⟩

/-! ## 7.  The sinks -/

/-- The failures of the required sinks, or what a sink raises through `_finalize`: anything
that is no `Exception`, and what the text of a required sink's failure raises. -/
def sinkFailures : List (Bool × Option PyException) → Except PyException (List String)
  | [] => .ok []
  | (_, none) :: sinks => sinkFailures sinks
  | (required, some e) :: sinks =>
      if e.cls ≠ .exception then .error e
      else if required then
        match e.str with
        | .error e' => .error e'
        | .ok text => (sinkFailures sinks).map
            (String.ofList (s!"sink:{e.typeName}: {text}".toList.take 500) :: ·)
      else sinkFailures sinks

/-- The receipt that is stored, after the sinks. -/
def CapabilityReceipt.afterSinks {β : Type} (r : CapabilityReceipt β) (failures : List String) :
    CapabilityReceipt β :=
  if failures ≠ [] ∧ r.metadata.effectful then
    { r with
      status := .needsReconciliation
      error := some { code := "receipt_persistence_failed"
                      message := "The capability may have applied, but its mandatory durable " ++
                        "receipt could not be persisted. Do not retry automatically."
                      retryable := false, mayHaveApplied := true, causeClass := "harness" }
      persistenceFailures := failures
      terminate := false }
  else r

end Capability
end VariantOne
