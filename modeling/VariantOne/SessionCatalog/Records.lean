import VariantOne.Core.Text
import VariantOne.Lib.Table

/-!
# What the session catalog stores for a chat

Session tools are *drafts* that become *versions* of a catalog slot.  Which
version of a slot is mounted is said by its active *activation* row; every
change of that moves the chat's mount revision and writes a mount-history row
and a receipt.  A version on *probation* is observed until it is known good.

The rows are those of one chat, without its id.  A contract, a schema and a
report are the documents they are; times that no statement compares are left
out.

The tables are keyed (`Lib/Table`), so two versions of a slot with one number cannot be written.  The
catalog is a parameter that does not change during a run: slots, the methods of object slots and the
bindings that are callable.
-/

namespace VariantOne
namespace SessionCatalog

/-! ## What is raised -/

/-- The codes of `MutationError`.  `other` stands for the codes that the schema
check, the dependency scan and the worker bring along. -/
inductive MutationCode where
  | mutationAuthorityChanged | mutationWriteDisabled | mutationFrozen | runtimeUnavailable
  | unknownDraft | retiredProjection | invalidProjectedAlias | aliasConflict | invalidKind
  | invalidAlias | shapeMismatch | parentRequired | parentMismatch | aliasMismatch
  | slotAlreadyActive | parentForbidden | unknownMethod | sourceQuota | invalidPurpose | testQuota
  | draftNotValidatable | draftNotTestable | invalidTest | draftNotActivatable | validationFailed
  | revisionParentChanged | staleMutationRef | unknownVersion | notMutated | invalidSlot
  | other (code : String)
  deriving DecidableEq, Repr

/-- The text of a code. -/
def MutationCode.text : MutationCode → String
  | .mutationAuthorityChanged => "mutation_authority_changed"
  | .mutationWriteDisabled => "mutation_write_disabled"
  | .mutationFrozen => "mutation_frozen"
  | .runtimeUnavailable => "runtime_unavailable"
  | .unknownDraft => "unknown_draft"
  | .retiredProjection => "retired_projection"
  | .invalidProjectedAlias => "invalid_projected_alias"
  | .aliasConflict => "alias_conflict"
  | .invalidKind => "invalid_kind"
  | .invalidAlias => "invalid_alias"
  | .shapeMismatch => "shape_mismatch"
  | .parentRequired => "parent_required"
  | .parentMismatch => "parent_mismatch"
  | .aliasMismatch => "alias_mismatch"
  | .slotAlreadyActive => "slot_already_active"
  | .parentForbidden => "parent_forbidden"
  | .unknownMethod => "unknown_method"
  | .sourceQuota => "source_quota"
  | .invalidPurpose => "invalid_purpose"
  | .testQuota => "test_quota"
  | .draftNotValidatable => "draft_not_validatable"
  | .draftNotTestable => "draft_not_testable"
  | .invalidTest => "invalid_test"
  | .draftNotActivatable => "draft_not_activatable"
  | .validationFailed => "validation_failed"
  | .revisionParentChanged => "revision_parent_changed"
  | .staleMutationRef => "stale_mutation_ref"
  | .unknownVersion => "unknown_version"
  | .notMutated => "not_mutated"
  | .invalidSlot => "invalid_slot"
  | .other code => code

/-- The codes that an operation does not record as a failure of the draft. -/
def MutationCode.ofAuthority (code : MutationCode) : Bool :=
  code = .mutationWriteDisabled || code = .mutationAuthorityChanged || code = .mutationFrozen

/-- A raised exception. -/
inductive Refusal where
  | mutation (code : MutationCode) (message : String)
  | mountConflict (message : String)
  | toolError (message : String)
  | integrityError (message : String)
  | valueError (message : String)
  | runtimeError (message : String)
  deriving DecidableEq, Repr

/-! ## Drafts and versions -/

/-- What a draft declares itself to be. -/
inductive DeclaredKind where
  | mutate | method | create | revise
  deriving DecidableEq, Repr

/-- The text of a kind. -/
def DeclaredKind.text : DeclaredKind → String
  | .mutate => "mutate"
  | .method => "method"
  | .create => "create"
  | .revise => "revise"

/-- The kind of a text. -/
def DeclaredKind.ofText? (text : String) : Option DeclaredKind :=
  [DeclaredKind.mutate, .method, .create, .revise].find? fun kind => kind.text = text

/-- A draft that replaces a seed, or a method of one. -/
def DeclaredKind.onSeed : DeclaredKind → Bool
  | .mutate | .method => true
  | .create | .revise => false

/-- Where a draft stands. -/
inductive DraftStatus where
  | draft | validated | rejected | tested | probation | active
  deriving DecidableEq, Repr

/-- The text of a status. -/
def DraftStatus.text : DraftStatus → String
  | .draft => "draft"
  | .validated => "validated"
  | .rejected => "rejected"
  | .tested => "tested"
  | .probation => "probation"
  | .active => "active"

/-- A status before activation. -/
def DraftStatus.preactivation : DraftStatus → Bool
  | .draft | .validated | .tested => true
  | .rejected | .probation | .active => false

/-- A proxy contract: the qualified name of the proxy, and the document that
describes it. -/
structure Contract where
  proxy : String
  document : Json

/-- The report of a source check: whether it passed, the error if not, and what
the host adds about the execution. -/
structure CheckReport where
  ok : Bool
  error : Option (String × String)
  execution : Json

/-- The outcome of one example case. -/
structure CaseResult where
  index : Nat
  ok : Bool
  resultSha256 : String
  observedCalls : List String
  error : Option (String × String)

/-- The outcome of a test. -/
structure TestPayload where
  ok : Bool
  authority : String
  caseCount : Nat
  casesSha256 : String
  results : List CaseResult

/-- The two ways back from a version. -/
inductive Recovery where
  | rollback | reset
  deriving DecidableEq, Repr

/-- What an activation or a recovery did to a slot. -/
structure SlotChange where
  slotId : String
  /-- The version that was active, zero for the catalog seed. -/
  oldVersion : Int
  /-- The version that is active now. -/
  newVersion : Int
  toMountRevision : Int
  deriving DecidableEq, Repr

/-- The body of a receipt. -/
inductive ReceiptBody where
  | proposed (slotId : String) (kind : DeclaredKind) (sourceSha256 schemaSha256 : String)
      (mountRevision : Int)
  | validated (report : CheckReport)
  | tested (payload : TestPayload)
  | activated (change : SlotChange) (fromMountRevision : Int)
      (validationReceiptDigest hostTestReceiptDigest : String)
  | recovered (action : Recovery) (change : SlotChange)

/-- A row of `mutation_receipt`. -/
structure Receipt where
  draftId : String
  body : ReceiptBody
  receiptDigest : String

/-- The change of the active versions that a receipt names. -/
def Receipt.change? (r : Receipt) : Option SlotChange :=
  match r.body with
  | .activated change _ _ _ => some change
  | .recovered _ change => some change
  | _ => none

/-- A row of `mutation_draft`. -/
structure Draft where
  draftId : String
  catalogReleaseId : String
  categoryId : String
  position : Int
  slotId : String
  declaredKind : DeclaredKind
  parentSlotId : String
  aliasName : String
  purpose : String
  schema : Json
  params : Json
  sourceRef : String
  sourceSha256 : String
  proposalFingerprint : String
  parameterOrder : List String
  dependencies : List Contract
  tests : List Json
  status : DraftStatus
  validation : Option Receipt
  hostTest : Option Receipt

/-- What a version row says about itself. -/
inductive VersionStatus where
  | probation | lkg | garbageCollected
  deriving DecidableEq, Repr

/-- A row of `astb_slot_version`. -/
structure SlotVersion where
  slotId : String
  version : Int
  draftId : String
  contentSha256 : String
  previousVersion : Int
  status : VersionStatus
  createdAt : ℚ

/-- The primary key of a version. -/
def SlotVersion.key (v : SlotVersion) : String × Int := (v.slotId, v.version)

/-- How an activation row came about. -/
inductive ActivationAction where
  | activate
  | recovery (action : Recovery)
  deriving DecidableEq, Repr

/-- A row of `astb_activation`. -/
structure Activation where
  slotId : String
  version : Int
  draftId : String
  active : Bool
  action : ActivationAction
  mountRevision : Int
  receiptDigest : String
  deriving DecidableEq, Repr

/-- Where a version on probation stands. -/
inductive ProbationStatus where
  | probation | passed
  deriving DecidableEq, Repr

/-- A row of `mutation_probation`. -/
structure Probation where
  slotId : String
  version : Int
  draftId : String
  previousVersion : Int
  lkgVersion : Int
  status : ProbationStatus
  calls : Int
  successfulCalls : Int
  semanticErrors : Int
  mechanicalErrors : Int
  deriving DecidableEq, Repr

/-- Why the mount revision moved. -/
inductive MountReason where
  | selected
  | mutationActivate
  | mutationRecovery (action : Recovery)
  deriving DecidableEq, Repr

/-- A row of `astb_mount_history`. -/
structure MountHistory where
  mountRevision : Int
  catalogReleaseId : String
  categoryId : String
  reason : MountReason
  deriving DecidableEq, Repr

/-- A row of `mutation_invocation`. -/
structure Invocation where
  slotId : String
  version : Int
  draftId : String
  ok : Bool
  observedCalls : List String
  resultSha256 : String

/-- The stage at which something failed. -/
inductive FailureStage where
  | validation | hostTest | activation | invocation
  deriving DecidableEq, Repr

/-- A row of `mutation_failure`. -/
structure FailureRow where
  draftId : String
  stage : FailureStage
  proposalFingerprint : String
  code : String

/-! ## The chat -/

/-- The row of `astb_chat_runtime`. -/
structure Runtime where
  lifecycleState : String
  creationSagaState : String
  selectedCategoryId : String
  mountRevision : Int
  overlayRevision : Int
  writeEnabled : Bool
  authorityRevision : Int
  deriving DecidableEq, Repr

/-- What the host says at the moment it is asked: whether mutation is allowed,
and which tools are enabled. -/
structure HostControls where
  mutationAllowed : Bool
  enabled : List String

/-- A chat as the catalog creates it: a runtime and the mount history so far,
which has no revision above the current one. -/
structure Chat where
  runtime : Runtime
  host : HostControls
  mountHistory : Table MountHistory Int MountHistory.mountRevision
  history_le : ∀ row ∈ mountHistory.rows, row.mountRevision ≤ runtime.mountRevision

/-- The tables of a chat. -/
structure Store where
  runtime : Runtime
  host : HostControls
  drafts : Table Draft String Draft.draftId
  versions : Table SlotVersion (String × Int) SlotVersion.key
  activations : List Activation
  probation : Table Probation String Probation.slotId
  receipts : List Receipt
  mountHistory : Table MountHistory Int MountHistory.mountRevision
  invocations : List Invocation
  failures : List FailureRow

/-- A chat without session tools. -/
def Chat.store (c : Chat) : Store where
  runtime := c.runtime
  host := c.host
  drafts := .empty
  versions := .empty
  activations := []
  probation := .empty
  receipts := []
  mountHistory := c.mountHistory
  invocations := []
  failures := []

namespace Store

/-- The active row of a slot. -/
def activeRow (s : Store) (slotId : String) : Option Activation :=
  s.activations.find? fun a => a.slotId = slotId && a.active

/-- The active version of a slot, zero for the catalog seed. -/
def activeVersion (s : Store) (slotId : String) : Int :=
  match s.activeRow slotId with
  | some a => a.version
  | none => 0

/-- `_active_slot_draft`, and the `JOIN` of an active row with its draft. -/
def activeDraft (s : Store) (slotId : String) : Option (Activation × Draft) :=
  match s.activeRow slotId with
  | none => none
  | some a => (s.drafts.find? a.draftId).map fun d => (a, d)

/-- The changes of the active versions that the receipts name. -/
def changes (s : Store) : List SlotChange := s.receipts.filterMap Receipt.change?

end Store

/-! ## The catalog -/

/-- A binding of a slot. -/
structure Binding where
  toolName : String
  nameSpace : String
  aliasName : String

/-- A slot of the catalog. -/
structure CatalogSlot where
  position : Int
  status : String
  projection : String
  bundle : String
  bindings : List Binding
  methods : List String

/-- `str(slot.get("projection") or "seeds")`. -/
def CatalogSlot.projectionText (slot : CatalogSlot) : String :=
  if slot.projection = "" then "seeds" else slot.projection

/-- A category of the catalog. -/
structure Category where
  categoryId : String
  slots : List CatalogSlot

/-- The catalog release that a chat is pinned to. -/
structure LoadedCatalog where
  releaseId : String
  categories : List Category

/-- A resolved slot reference. -/
structure ResolvedSlot where
  categoryId : String
  position : Int
  slot : CatalogSlot

/-- The id of a slot. -/
def LoadedCatalog.slotId (loaded : LoadedCatalog) (categoryId : String) (position : Int) : String :=
  s!"{loaded.releaseId}/{categoryId}/{position}"

/-- The id of a resolved slot. -/
def ResolvedSlot.id (r : ResolvedSlot) (loaded : LoadedCatalog) : String :=
  loaded.slotId r.categoryId r.position

/-- What a `MutationManager` works with: the pinned catalog, and the code around
it whose results the operations take as they come.  `resolve` is
`resolve_slot(loaded, selected_slot_reference(record, reference))`. -/
structure MutationManager where
  loaded : LoadedCatalog
  resolve : String → String → Except Refusal ResolvedSlot
  casefold : String → String
  /-- `stable_digest`. -/
  digest : Json → String
  /-- The digest of a receipt's body. -/
  receiptDigest : ReceiptBody → String
  /-- The size of `canonical_bytes`. -/
  canonicalSize : Json → Nat
  publicSchema : Json → Except Refusal (Json × Json)
  wrappedHelperOrder : String → List String
  slotParameterOrder : CatalogSlot → String → DeclaredKind → List String
  parameterOrder : Json → List String → List String
  sourceDependencies : String → List Contract → Except Refusal (List Contract)
  /-- `_proxy_contracts`, of the chat as it stands. -/
  proxyContracts : Store → String → String → List Contract
  /-- `artifact_store.put_text`: the reference and the hash of a source. -/
  putText : String → String × String
  readText : String → Except Refusal String
  normalizeArguments : Json → Json → Except Refusal Json
  /-- `_check_source`: nothing, or the code and message of what it raised. -/
  checkSource : String → Option (String × String)
  executionStatus : Json
  isIdentifier : String → Bool
  keywords : List String
  /-- The order in which the database happens to return rows. -/
  scanBefore : SlotVersion → SlotVersion → Bool

/-- The digest of what a version runs: its source, its schema and what it
depends on. -/
def MutationManager.contentSha256 (m : MutationManager) (sourceSha256 : String) (schema : Json)
    (dependencies : List Contract) : String :=
  m.digest (.obj [("source", .str sourceSha256), ("schema", schema),
    ("dependencies", .arr (dependencies.map Contract.document))])

end SessionCatalog
end VariantOne
