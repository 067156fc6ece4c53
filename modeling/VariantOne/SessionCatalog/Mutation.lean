import VariantOne.Core.Value
import VariantOne.Lib.Interleave
import VariantOne.SessionCatalog.Transactions

/-!
# The operations of session mutation

Each operation of the `MutationManager` is a program over the database
transactions: it reads, computes, awaits a worker, and commits.  Between two of
its transactions any transaction of another operation may come, which is what
`mutationService` makes of them.

What a worker answers, what a caller passes and what the clock says belong to
the request.

An operation is written as a `Prog` of `Lib/Interleave`: a request, the reply of the tables, and what is
done next.  `MutationManager.program` assigns one to each request of the service, so an invariant of the
tables is shown for all interleavings by looking at one transaction and at one program at a time.
-/

namespace VariantOne
namespace SessionCatalog

/-- A program over the transactions of a chat. -/
abbrev Op (α : Type) := Prog DbTxn DbTxn.Reply Refusal α

/-- One transaction. -/
abbrev txn (t : DbTxn) : Op t.Reply := Prog.request t

namespace MutationManager

variable (m : MutationManager)

/-! ## Authority -/

/-- `_require_write_authority`. -/
def requireWriteAuthority (expectedRevision : Option Int) : Op Runtime := do
  let (runtime, allowed) : Runtime × Bool ← txn .readRuntime
  Prog.ensure (∀ r ∈ expectedRevision, runtime.authorityRevision = r)
    (.mutation .mutationAuthorityChanged
      "session mutation authority changed while the operation was running")
  Prog.ensure (runtime.writeEnabled = true) (.mutation .mutationWriteDisabled
    "session mutation write authority is off for this chat")
  Prog.ensure (allowed = true) (.mutation .mutationFrozen
    "session mutation is frozen by the host")
  return runtime

/-- `_require_recovery_authority`. -/
def requireRecoveryAuthority (expectedRevision : Option Int) : Op Runtime := do
  let (runtime, _) : Runtime × Bool ← txn .readRuntime
  Prog.ensure (∀ r ∈ expectedRevision, runtime.authorityRevision = r)
    (.mutation .mutationAuthorityChanged
      "session mutation authority changed while recovery was running")
  return runtime

/-- `_record_failure`. -/
def recordFailure (draftId : String) (stage : FailureStage) (code : String) : Op Unit := do
  let fingerprint ← (do
    let draft : Draft ← txn (.readDraft draftId)
    return draft.proposalFingerprint : Op String).handle fun _ => pure ""
  txn (.insertFailure ⟨draftId, stage, fingerprint, code⟩)

/-- `draft_target_proxy`. -/
def draftTargetProxy (draft : Draft) : Except Refusal String :=
  if draft.declaredKind = .method then
    (m.resolve "" draft.slotId).map fun r =>
      if r.slot.bundle ≠ "" ∧ draft.aliasName ≠ "" then s!"{r.slot.bundle}.{draft.aliasName}" else ""
  else .ok ""

/-! ## propose -/

end MutationManager

/-- What `propose` is given; an empty parent is none. -/
structure ProposeRequest where
  draftId : String
  kind : String
  slot : String
  aliasName : String
  purpose : String
  schema : Json
  source : String
  tests : List Json
  parent : String
  expectedRevision : Option Int

/-- `MAX_SOURCE_BYTES`. -/
def maxSourceBytes : Nat := 64 * 1024

/-- `MAX_PURPOSE_CHARS`. -/
def maxPurposeChars : Nat := 2000

/-- `MAX_EXAMPLE_CASES`. -/
def maxExampleCases : Nat := 20

/-- `MAX_EXAMPLE_BYTES`. -/
def maxExampleBytes : Nat := 64 * 1024

namespace MutationManager

variable (m : MutationManager)

/-- The slot that a parent refers to, which has to be the target slot. -/
def parentSlot (runtime : Runtime) (parent slotId : String) (required mismatch : String) :
    Op String := do
  Prog.ensure (parent ≠ "") (.mutation .parentRequired required)
  let target ← Prog.ofExcept (m.resolve runtime.selectedCategoryId parent)
  Prog.ensure (target.id m.loaded = slotId) (.mutation .parentMismatch mismatch)
  return target.id m.loaded

/-- `_active_slot_draft`. -/
def activeSlotDraft (slotId : String) : Op (Option Draft) := do
  let active : Option (Int × String) ← txn (.readActiveSlot slotId)
  match active with
  | none => return none
  | some (_, draftId) => return some (← txn (.readDraft draftId))

/-- The shape that a proposal needs of its slot, and its parent slot. -/
def proposalParent (runtime : Runtime) (q : ProposeRequest) (kind : DeclaredKind)
    (target : ResolvedSlot) (cleanAlias : String) : Op String := do
  let slotId := target.id m.loaded
  match kind with
  | .mutate | .method =>
      let text := kind.text
      Prog.ensure (target.slot.status = "seed")
        (.mutation .shapeMismatch s!"{text} requires an occupied seed slot")
      let parentSlotId ← m.parentSlot runtime q.parent slotId
        s!"{text} requires its owning slot as parent"
        "mutation parent must equal the target slot"
      Prog.ensure (kind = .method → target.slot.projectionText = "object")
        (.mutation .shapeMismatch "method mutation requires a coherent object slot")
      return parentSlotId
  | .revise =>
      let activeParent ← activeSlotDraft slotId
      Prog.ensure (target.slot.status = "vacant" ∧
          ∃ d ∈ activeParent, d.declaredKind.onSeed = false)
        (.mutation .shapeMismatch "revise requires an active synthesized direct-tool slot")
      let parentSlotId ← m.parentSlot runtime q.parent slotId
        "revise requires its active synthesized slot as parent"
        "revision parent must equal the target synthesized slot"
      Prog.ensure (∀ d ∈ activeParent, cleanAlias = d.aliasName)
        (.mutation .aliasMismatch "revision alias must retain the active synthesized tool alias")
      return parentSlotId
  | .create =>
      Prog.ensure (target.slot.status = "vacant")
        (.mutation .shapeMismatch "create requires a vacant catalog slot")
      let activeParent ← activeSlotDraft slotId
      Prog.ensure (activeParent.isNone) (.mutation .slotAlreadyActive
        "vacant catalog slot already has an active synthesized tool; revise that mounted tool instead")
      Prog.ensure (q.parent = "") (.mutation .parentForbidden "create cannot declare a parent")
      return ""

/-- The declared order of the parameters: of the helper, else of what is replaced. -/
def proposalOrder (q : ProposeRequest) (kind : DeclaredKind) (target : ResolvedSlot)
    (cleanAlias : String) (params : Json) : Op (List String) := do
  let declared := m.wrappedHelperOrder q.source
  let declared := if declared = [] ∧ kind.onSeed then
    m.slotParameterOrder target.slot cleanAlias kind else declared
  let declared ← if declared = [] ∧ kind = .revise then do
      let parent ← activeSlotDraft (target.id m.loaded)
      pure (match parent with
        | some d => d.parameterOrder
        | none => [])
    else pure declared
  return if declared = [] then [] else m.parameterOrder params declared

/-- `propose`. -/
def propose (q : ProposeRequest) : Op Receipt := do
  let runtime ← requireWriteAuthority q.expectedRevision
  let kind ← Prog.ofExcept (match DeclaredKind.ofText? (m.casefold (strip q.kind)) with
    | some kind => .ok kind
    | none => .error (.mutation .invalidKind
        "mutation kind must be mutate, method, create, or revise"))
  let target ← Prog.ofExcept (m.resolve runtime.selectedCategoryId q.slot)
  let slotId := target.id m.loaded
  let cleanAlias := strip q.aliasName
  let problem := m.proxyNameProblem cleanAlias (if kind.onSeed then [] else toolsReservedNames)
  Prog.ensure (problem = "")
    (.mutation .invalidAlias s!"mutation alias '{cleanAlias}' {problem}")
  let parentSlotId ← m.proposalParent runtime q kind target cleanAlias
  let bundle := target.slot.bundle
  Prog.ensure (kind = .method → cleanAlias ∈ target.slot.methods)
    (.mutation .unknownMethod s!"{bundle}.{cleanAlias} is not a mounted method")
  Prog.ensure (strip q.source ≠ "" ∧ q.source.utf8ByteSize ≤ maxSourceBytes)
    (.mutation .sourceQuota s!"mutation source must be 1..{maxSourceBytes} bytes")
  let purpose := strip q.purpose
  Prog.ensure (purpose ≠ "" ∧ purpose.length ≤ maxPurposeChars)
    (.mutation .invalidPurpose s!"mutation purpose must be 1..{maxPurposeChars} characters")
  let (schema, params) ← Prog.ofExcept (m.publicSchema q.schema)
  let parameterOrder ← m.proposalOrder q kind target cleanAlias params
  Prog.ensure (q.tests.length ≤ maxExampleCases ∧ m.canonicalSize (.arr q.tests) ≤ maxExampleBytes)
    (.mutation .testQuota
      s!"examples are limited to {maxExampleCases} cases and {maxExampleBytes} bytes per registration")
  let contracts : List Contract ← txn (.readContracts slotId
    (if kind = .method then s!"{bundle}.{cleanAlias}" else ""))
  let dependencies ← Prog.ofExcept (m.sourceDependencies q.source contracts)
  let (sourceRef, sourceSha256) := m.putText q.source
  let fingerprint := m.digest (.obj [("catalog_release_id", .str m.loaded.releaseId),
    ("slot_id", .str slotId), ("kind", .str kind.text), ("source_sha256", .str sourceSha256),
    ("schema", schema), ("dependencies", .arr (dependencies.map Contract.document))])
  txn (.insertDraft runtime.authorityRevision
    { draftId := q.draftId
      catalogReleaseId := m.loaded.releaseId
      categoryId := target.categoryId
      position := target.position
      slotId := slotId
      declaredKind := kind
      parentSlotId := parentSlotId
      aliasName := cleanAlias
      purpose := purpose
      schema := schema
      params := params
      sourceRef := sourceRef
      sourceSha256 := sourceSha256
      proposalFingerprint := fingerprint
      parameterOrder := parameterOrder
      dependencies := dependencies
      tests := q.tests
      status := .draft
      validation := none
      hostTest := none }
    runtime.mountRevision)

/-! ## validate and test -/

/-- `validate`. -/
def validate (draftId : String) (expectedRevision : Option Int) : Op Receipt := do
  let runtime ← requireWriteAuthority expectedRevision
  let draft : Draft ← txn (.readDraft draftId)
  Prog.ensure (draft.status = .draft) (.mutation .draftNotValidatable
    "mutation validation requires a draft in draft status")
  let source ← Prog.ofExcept (m.readText draft.sourceRef)
  let exclude ← Prog.ofExcept (m.draftTargetProxy draft)
  let _ ← txn (.readContracts draft.slotId exclude)
  match m.checkSource source with
  | none =>
      txn (.commitValidation runtime.authorityRevision draftId .validated
        ⟨true, none, m.executionStatus⟩)
  | some failure =>
      let receipt : Receipt ← txn (.commitValidation runtime.authorityRevision draftId .rejected
        ⟨false, some failure, m.executionStatus⟩)
      recordFailure draftId .validation failure.1
      return receipt

/-- `_merge_observed_dependencies`: the contracts of the proxies that were called
go to the dependencies of the draft. -/
def mergeObservedDependencies (draftId : String) (contracts : List Contract)
    (observedCalls : List String) : Op Unit := do
  let observed := contracts.filter fun c => observedCalls.contains c.proxy
  if observed.isEmpty then return ()
  else
    let draft : Draft ← txn (.readDraft draftId)
    let known := (draft.dependencies.filter fun c => c.proxy ≠ "").map fun c => (c.proxy, c)
    let merged := Dict.merge (Dict.merge [] known) (observed.map fun c => (c.proxy, c))
    txn (.writeDependencies draftId ((Dict.sort merged).map Prod.snd))

end MutationManager

/-- What a worker reports of a run. -/
structure WorkerReport where
  result : Json
  observedCalls : List String

/-- A run of the worker: its report, or the code and message of what it raised. -/
abbrev WorkerOutcome := Except (String × String) WorkerReport

/-- What `test` is given.  `worker` answers for the case of an index. -/
structure TestRequest where
  draftId : String
  cases : Option (List Json)
  authority : String
  persistStatus : Bool
  expectedRevision : Option Int
  worker : Nat → Json → WorkerOutcome

/-- The arguments of an example case and the value it expects, if it expects one. -/
def exampleCase? : Json → Option (Json × Option Json)
  | .obj entries =>
      match Dict.get? entries "arguments" with
      | none => some (.obj [], Dict.get? entries "expected")
      | some (.obj arguments) => some (.obj arguments, Dict.get? entries "expected")
      | some _ => none
  | _ => none

namespace MutationManager

variable (m : MutationManager)

/-- Run the example cases from an index on: their results. -/
def runCases (schema : Json) (worker : Nat → Json → WorkerOutcome) :
    Nat → List Json → Except Refusal (List CaseResult)
  | _, [] => .ok []
  | index, case :: cases =>
      match exampleCase? case with
      | none => .error (.mutation .invalidTest s!"test case {index} is invalid")
      | some (arguments, expected) => do
          let arguments ← m.normalizeArguments schema arguments
          let result : CaseResult := match worker index arguments with
            | .error failure => ⟨index, false, "", [], some failure⟩
            | .ok report =>
                ⟨index, match expected with
                  | none => true
                  | some value => report.result.toPy.eqJson value,
                  m.digest report.result, report.observedCalls, none⟩
          let results ← runCases schema worker (index + 1) cases
          return result :: results

/-- `test`. -/
def test (q : TestRequest) : Op Receipt := do
  let runtime ← requireWriteAuthority q.expectedRevision
  let draft : Draft ← txn (.readDraft q.draftId)
  Prog.ensure (q.persistStatus → draft.status.preactivation = true) (.mutation .draftNotTestable
    "persisted mutation tests require a pre-activation draft")
  let _ ← Prog.ofExcept (m.readText draft.sourceRef)
  let selected := q.cases.getD draft.tests
  Prog.ensure (selected.length ≤ 20) (.mutation .testQuota "too many mutation test cases")
  let exclude ← Prog.ofExcept (m.draftTargetProxy draft)
  let contracts : List Contract ← txn (.readContracts draft.slotId exclude)
  let results ← Prog.ofExcept (m.runCases draft.schema q.worker 0 selected)
  let ok := results.all CaseResult.ok
  if q.persistStatus then
    mergeObservedDependencies q.draftId contracts (results.flatMap CaseResult.observedCalls)
  let receipt : Receipt ← txn (.commitTest runtime.authorityRevision draft q.persistStatus
    ⟨ok, q.authority, selected.length, m.digest (.arr selected), results⟩)
  if ok = false ∧ q.authority = "host" then
    recordFailure q.draftId .hostTest "case_failure"
  return receipt

end MutationManager

/-! ## activate -/

/-- What `activate` is given. -/
structure ActivateRequest where
  draftId : String
  expectedMountRevision : Option Int
  expectedRevision : Option Int
  worker : Nat → Json → WorkerOutcome
  now : ℚ

/-- `receipt.get("ok") is True`, of the receipt of a validation. -/
def Receipt.passed (r : Receipt) : Bool :=
  match r.body with
  | .validated report => report.ok
  | _ => false

namespace MutationManager

variable (m : MutationManager)

/-- `_activation_invocation`: the qualified name of the callable. -/
def activationInvocation (draft : Draft) : Except Refusal String :=
  if draft.declaredKind.onSeed then
    (m.resolve "" draft.slotId).map fun r =>
      let nameSpace := if r.slot.projectionText = "object" ∧ r.slot.bundle ≠ "" then r.slot.bundle
        else "tools"
      s!"{nameSpace}.{draft.aliasName}"
  else .ok s!"tools.{draft.aliasName}"

/-- The validation of a draft that is to be activated. -/
def activationValidation (draft : Draft) (revision : Int) : Op Receipt := do
  let validation ← match draft.status with
    | .draft => some <$> m.validate draft.draftId (some revision)
    | .validated | .tested => pure draft.validation
    | .rejected | .probation | .active =>
        throw (.mutation .draftNotActivatable
          "mutation activation requires a draft, validated, or tested candidate")
  Prog.ofExcept (match validation with
    | some receipt =>
        if receipt.passed then .ok receipt
        else .error (.mutation .validationFailed "draft validation did not pass")
    | none => .error (.mutation .validationFailed "draft validation did not pass"))

/-- `_activate_once`. -/
def activateOnce (q : ActivateRequest) : Op ActivationResult := do
  let runtime ← requireWriteAuthority q.expectedRevision
  let draft : Draft ← txn (.readDraft q.draftId)
  let _ ← Prog.ofExcept (m.activationInvocation draft)
  let validation ← m.activationValidation draft runtime.authorityRevision
  let hostTest ← m.test ⟨q.draftId, none, "host", true, some runtime.authorityRevision, q.worker⟩
  let draft : Draft ← txn (.readDraft q.draftId)
  txn (.commitActivation ⟨runtime.authorityRevision,
    q.expectedMountRevision.getD runtime.mountRevision, draft, validation.receiptDigest,
    hostTest.receiptDigest, q.now⟩)

/-- `activate`. -/
def activate (q : ActivateRequest) : Op ActivationResult :=
  (m.activateOnce q).handle fun e => do
    match e with
    | .mutation code _ =>
        if code.ofAuthority = false then
          recordFailure q.draftId .activation code.text
    | .mountConflict _ => recordFailure q.draftId .activation "mount_conflict"
    | _ => recordFailure q.draftId .activation "activation_exception"
    throw e

/-- `propose_activate`. -/
def proposeActivate (p : ProposeRequest) (worker : Nat → Json → WorkerOutcome) (now : ℚ) :
    Op ActivationResult := do
  let runtime ← requireWriteAuthority none
  let _ ← m.propose { p with expectedRevision := some runtime.authorityRevision }
  m.activate ⟨p.draftId, some runtime.mountRevision, some runtime.authorityRevision, worker, now⟩

/-! ## rollback, reset and collection -/

/-- `_transition`. -/
def transition (slotReference : String) (targetVersion : Int) (action : Recovery)
    (expectedMountRevision expectedRevision : Option Int) : Op TransitionResult := do
  let runtime ← requireRecoveryAuthority expectedRevision
  let target ← Prog.ofExcept (m.resolve runtime.selectedCategoryId slotReference)
  txn (.commitTransition ⟨runtime.authorityRevision,
    expectedMountRevision.getD runtime.mountRevision, target.id m.loaded, targetVersion, action⟩)

/-- `rollback`. -/
def rollback (slot : String) (toVersion expectedMountRevision expectedRevision : Option Int) :
    Op TransitionResult := do
  let runtime ← requireRecoveryAuthority expectedRevision
  let target ← Prog.ofExcept (m.resolve runtime.selectedCategoryId slot)
  let slotId := target.id m.loaded
  let current : Option Int ← txn (.readRollbackTarget slotId)
  let previousVersion ← Prog.ofExcept (match current with
    | some previousVersion => .ok previousVersion
    | none => .error (.mutation .notMutated "slot has no active session mutation"))
  m.transition slotId (toVersion.getD previousVersion) .rollback expectedMountRevision
    (some runtime.authorityRevision)

/-- `reset_slot`. -/
def resetSlot (slot : String) (expectedMountRevision expectedRevision : Option Int) :
    Op TransitionResult :=
  m.transition slot 0 .reset expectedMountRevision expectedRevision

/-- The loop of `reset_all`: each slot expects the revision that the one before left. -/
def resetSlots (revision : Int) : List String → Int → Op (List TransitionResult)
  | [], _ => pure []
  | slotId :: slotIds, expected => do
      let result ← m.resetSlot slotId (some expected) (some revision)
      let results ← resetSlots revision slotIds result.mountRevision
      return result :: results

/-- `reset_all`. -/
def resetAll : Op (List TransitionResult) := do
  let runtime ← requireRecoveryAuthority none
  let slotIds : List String ← txn .readActiveSlots
  m.resetSlots runtime.authorityRevision slotIds runtime.mountRevision

/-- `gc`. -/
def gc (now olderThan : ℚ) : Op Nat := txn (.collect (now - max 0 olderThan))

/-! ## invoke -/

/-- `_probation_result`: without authority, nothing is observed. -/
def probationResult (slotId : String) (version : Int) (ok mechanical : Bool) : Op Unit :=
  (do
    let runtime ← requireWriteAuthority none
    txn (.commitProbation runtime.authorityRevision slotId version ok mechanical) :
      Op Unit).handle fun e =>
    match e with
    | .mutation code _ => if code.ofAuthority then pure () else throw e
    | _ => throw e

end MutationManager

/-- What `invoke` is given.  An empty method alias is none. -/
structure InvokeRequest where
  slotId : String
  slotVersion : Int
  methodAlias : String
  arguments : Json
  worker : Json → WorkerOutcome

/-- The codes of failures that are not the candidate's. -/
def mechanicalCodes : List String :=
  ["worker_timeout", "worker_crash", "worker_protocol", "worker_frame_quota",
    "worker_unavailable", "candidate_contract_error"]

namespace MutationManager

variable (m : MutationManager)

/-- `_active_row` and `_active_method_row`. -/
def invokedDraft (q : InvokeRequest) : Op Draft := do
  let draftId : String ← txn (.readActiveRow q.slotId q.slotVersion)
  let draft : Draft ← txn (.readDraft draftId)
  if q.methodAlias = "" then return draft
  else
    let methodDraftId : String ← txn (.readMethodRow q.slotId q.slotVersion q.methodAlias)
    txn (.readDraft methodDraftId)

/-- `invoke`. -/
def invoke (q : InvokeRequest) : Op Json := do
  Prog.ensure (q.slotId ≠ "" ∧ 0 < q.slotVersion)
    (.toolError "mutation invocation lacks an admitted slot version")
  let draft ← invokedDraft q
  let arguments ← Prog.ofExcept (m.normalizeArguments draft.schema q.arguments)
  let _ ← Prog.ofExcept (m.readText draft.sourceRef)
  let _ ← requireRecoveryAuthority none
  let exclude ← Prog.ofExcept (m.draftTargetProxy draft)
  let contracts : List Contract ← txn (.readContracts q.slotId exclude)
  match q.worker arguments with
  | .error (code, message) =>
      txn (.insertInvocation ⟨q.slotId, q.slotVersion, draft.draftId, false, [],
        m.digest (.obj [("code", .str code), ("message", .str message)])⟩)
      recordFailure draft.draftId .invocation code
      probationResult q.slotId q.slotVersion false (mechanicalCodes.contains code)
      throw (.toolError s!"session mutation failed [{code}]: {message}")
  | .ok report =>
      mergeObservedDependencies draft.draftId contracts report.observedCalls
      txn (.insertInvocation ⟨q.slotId, q.slotVersion, draft.draftId, true,
        report.observedCalls, m.digest report.result⟩)
      probationResult q.slotId q.slotVersion true false
      return report.result

end MutationManager

/-! ## The service -/

/-- A call of the manager. -/
inductive Request where
  | propose (q : ProposeRequest)
  | validate (draftId : String) (expectedRevision : Option Int)
  | test (q : TestRequest)
  | activate (q : ActivateRequest)
  | proposeActivate (p : ProposeRequest) (worker : Nat → Json → WorkerOutcome) (now : ℚ)
  | rollback (slot : String) (toVersion expectedMountRevision expectedRevision : Option Int)
  | resetSlot (slot : String) (expectedMountRevision expectedRevision : Option Int)
  | resetAll
  | gc (now olderThan : ℚ)
  | probationResult (slotId : String) (version : Int) (ok mechanical : Bool)
  | invoke (q : InvokeRequest)

/-- What a call returns. -/
inductive Answer where
  | receipt (r : Receipt)
  | activated (r : ActivationResult)
  | recovered (r : TransitionResult)
  | reset (results : List TransitionResult)
  | collected (count : Nat)
  | observed
  | value (v : Json)

/-- The program of a call. -/
def MutationManager.program (m : MutationManager) : Request → Op Answer
  | .propose q => Answer.receipt <$> m.propose q
  | .validate draftId expectedRevision => Answer.receipt <$> m.validate draftId expectedRevision
  | .test q => Answer.receipt <$> m.test q
  | .activate q => Answer.activated <$> m.activate q
  | .proposeActivate p worker now => Answer.activated <$> m.proposeActivate p worker now
  | .rollback slot toVersion mount revision =>
      Answer.recovered <$> m.rollback slot toVersion mount revision
  | .resetSlot slot mount revision => Answer.recovered <$> m.resetSlot slot mount revision
  | .resetAll => Answer.reset <$> m.resetAll
  | .gc now olderThan => Answer.collected <$> MutationManager.gc now olderThan
  | .probationResult slotId version ok mechanical =>
      (fun _ => Answer.observed) <$> MutationManager.probationResult slotId version ok mechanical
  | .invoke q => Answer.value <$> m.invoke q

/-- What happens outside the calls: the chat's authority and the host's controls
change, and a process that starts repairs derived rows. -/
inductive Event where
  | setMutationWriteEnabled (enabled : Bool) (actor : String) (expectedRevision : Option Int)
  | setHost (controls : HostControls)
  | recoverActivations
  | recoverProbation

/-- The transaction of an event. -/
def Event.txn : Event → DbTxn
  | .setMutationWriteEnabled enabled actor expectedRevision =>
      .setWriteEnabled enabled actor expectedRevision
  | .setHost controls => .setHost controls
  | .recoverActivations => .recoverActivations
  | .recoverProbation => .recoverProbation

/-- The calls of a chat, interleaved at its transactions. -/
def mutationService (m : MutationManager) :
    Service Store DbTxn DbTxn.Reply Refusal Request Answer Event where
  perform := perform m
  program := m.program
  outside := Event.txn

/-- The machine of a chat. -/
abbrev mutationMachine (m : MutationManager) (c : Chat) := (mutationService m).machine c.store

end SessionCatalog
end VariantOne
