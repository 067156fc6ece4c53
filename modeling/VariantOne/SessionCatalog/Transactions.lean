import VariantOne.Lib.Txn
import VariantOne.SessionCatalog.Records

/-!
# The database transactions of session mutation

Every operation of the `MutationManager` is a sequence of short transactions on
the session database: single reads, and bodies between `BEGIN IMMEDIATE` and
`COMMIT`.  `DbTxn` names them with what they are given, `perform` is what each
does to the tables of the chat and what it replies.  A body that raises leaves
the tables as they were.

The bodies check again whatever an operation decided on before: the revision of the mount, the version
that is active, the authority to write.  A reply tells an operation what the tables said, so all that it
knows of other operations it knows from replies.
-/

namespace VariantOne
namespace SessionCatalog

/-- A transaction body on the tables of a chat. -/
abbrev Body (α : Type) := Txn Store Refusal α

/-! ## Rows -/

/-- Insert a draft; its id is the primary key. -/
def insertDraftRow (d : Draft) : Body Unit := do
  let s ← Txn.read
  match s.drafts.insert? d with
  | none => Txn.raise (.integrityError "UNIQUE constraint failed: mutation_draft.draft_id")
  | some drafts => Txn.modify fun s => { s with drafts := drafts }

/-- `UPDATE mutation_draft SET … WHERE draft_id=?`, of columns that are not its key. -/
def Store.updateDraft (s : Store) (draftId : String) (f : Draft → Draft)
    (hf : ∀ d, (f d).draftId = d.draftId) : Store :=
  { s with drafts := s.drafts.updateWhere (fun d => d.draftId = draftId) f hf }

/-- `UPDATE astb_slot_version SET status=? WHERE slot_id=? AND version=?`, for each
of some versions of a slot. -/
def Store.setVersionStatus (s : Store) (slotId : String) (versions : List Int)
    (status : VersionStatus) : Store :=
  let restated := s.versions.updateWhere
    (fun v => v.slotId = slotId && versions.contains v.version)
    (fun v => { v with status := status }) fun _ => rfl
  { s with versions := restated }

/-- `_receipt_in_conn`. -/
def addReceipt (m : MutationManager) (draftId : String) (body : ReceiptBody) : Body Receipt := do
  let receipt : Receipt := ⟨draftId, body, m.receiptDigest body⟩
  Txn.modify fun s => { s with receipts := s.receipts ++ [receipt] }
  return receipt

/-- Add a mount-history row; the mount revision is its primary key. -/
def addMountHistory (row : MountHistory) : Body Unit := do
  let s ← Txn.read
  match s.mountHistory.insert? row with
  | none => Txn.raise (.integrityError "UNIQUE constraint failed: astb_mount_history.mount_revision")
  | some history => Txn.modify fun s => { s with mountHistory := history }

/-- Make an activation row the active one of its slot. -/
def Store.activate (s : Store) (row : Option Activation) (slotId : String) : Store :=
  { s with activations :=
      (s.activations.map fun a =>
        if a.slotId = slotId && a.active then { a with active := false } else a) ++ row.toList }

/-- Move the mount and overlay revisions of the chat. -/
def Store.setMount (s : Store) (mountRevision overlayRevision : Int) : Store :=
  { s with runtime := { s.runtime with
      mountRevision := mountRevision, overlayRevision := overlayRevision } }

/-- Write the probation row of a slot. -/
def Store.setProbation (s : Store) (row : Probation) : Store :=
  { s with probation :=
      match s.probation.insert? row with
      | some probation => probation
      | none => s.probation.updateWhere (fun p => p.slotId = row.slotId)
          (fun p => { row with slotId := p.slotId }) fun _ => rfl }

/-- `DELETE FROM mutation_probation WHERE …`. -/
def Store.dropProbation (s : Store) (drop : Probation → Bool) : Store :=
  { s with probation :=
      { rows := s.probation.rows.filter fun p => !drop p
        unique := s.probation.unique.sublist (List.filter_sublist.map _) } }

/-! ## Authority -/

/-- `_assert_write_authority_in_conn`. -/
def assertWriteAuthority (expectedRevision : Int) : Body Unit := do
  let s ← Txn.read
  Txn.ensure (s.runtime.authorityRevision = expectedRevision) (.mutation .mutationAuthorityChanged
    "session mutation authority changed while the operation was running")
  Txn.ensure (s.runtime.writeEnabled = true) (.mutation .mutationWriteDisabled
    "session mutation write authority is off for this chat")
  Txn.ensure (s.host.mutationAllowed = true) (.mutation .mutationFrozen
    "session mutation is frozen by the host")

/-- `_assert_recovery_authority_in_conn`. -/
def assertRecoveryAuthority (expectedRevision : Int) : Body Unit := do
  let s ← Txn.read
  Txn.ensure (s.runtime.authorityRevision = expectedRevision) (.mutation .mutationAuthorityChanged
    "session mutation authority changed while recovery was running")

/-- `mutation_authority_cas`. -/
def mutationAuthorityCas (enabled : Bool) (actor : String) (expectedRevision : Option Int) :
    Body Runtime := do
  Txn.ensure (strip actor ≠ "") (.valueError "mutation write authority requires an actor")
  Txn.ensure ((strip actor).length ≤ 200)
    (.valueError "mutation write authority actor exceeds 200 characters")
  Txn.ensure (∀ r ∈ expectedRevision, 0 ≤ r)
    (.valueError "mutation authority revision cannot be negative")
  let s ← Txn.read
  Txn.ensure (s.runtime.lifecycleState = "active") (.runtimeError "chat runtime is not active")
  Txn.ensure (enabled = false ∨ ¬ (s.runtime.creationSagaState.startsWith "child:" ∨
      s.runtime.creationSagaState.startsWith "worker:"))
    (.runtimeError "mutation write authority is unavailable to child or worker runtimes")
  Txn.ensure (∀ r ∈ expectedRevision, s.runtime.authorityRevision = r)
    (.runtimeError "mutation authority CAS failed")
  if s.runtime.writeEnabled = enabled then
    return s.runtime
  else
    let runtime := { s.runtime with
      writeEnabled := enabled, authorityRevision := s.runtime.authorityRevision + 1 }
    Txn.modify fun s => { s with runtime := runtime }
    return runtime

/-! ## The projected namespace -/

/-- `proxy_name_problem`, empty when there is none. -/
def MutationManager.proxyNameProblem (m : MutationManager) (name : String)
    (reserved : List String) : String :=
  if ¬ (name.toList.all (fun c => c.toNat < 128) = true ∧ m.isIdentifier name = true ∧
      name.length ≤ 64) then
    "must be an ASCII Python identifier of at most 64 characters"
  else if name ∈ m.keywords then "is a Python keyword"
  else if name ∈ reserved then "is reserved by the mounted namespace"
  else ""

/-- `TOOLS_RESERVED_NAMES`. -/
def toolsReservedNames : List String := ["aliases", "methods", "describe", "documentation"]

/-- The names that a slot projects, with the draft active in it, if any. -/
def CatalogSlot.projections (slot : CatalogSlot) (enabled : List String) :
    Option Draft → Except Refusal (List (String × String))
  | some overlay =>
      if overlay.declaredKind.onSeed then
        if slot.projectionText = "seeds" then .ok [("tools", overlay.aliasName)]
        else if slot.projectionText = "object" then .ok [("globals", slot.bundle)]
        else
          let projection := slot.projectionText
          .error (.mutation .retiredProjection s!"slot uses retired projection: '{projection}'")
      else .ok [("tools", overlay.aliasName)]
  | none =>
      let admitted := slot.bindings.filter fun b => enabled.contains b.toolName
      if admitted = [] then .ok []
      else if slot.projectionText = "seeds" then
        .ok (admitted.map fun b => (if b.nameSpace = "" then "tools" else b.nameSpace, b.aliasName))
      else if slot.projectionText = "object" then .ok [("globals", slot.bundle)]
      else .error (.mutation .retiredProjection "catalog slot uses a retired projection")

/-- Claim names for a slot: each must be one the kernel can mount, and no other
slot of the category may have it. -/
def MutationManager.claimNames (m : MutationManager) (slotId : String) :
    List (String × String) → List (String × String) → Except Refusal (List (String × String))
  | [], owners => .ok owners
  | (nameSpace, aliasName) :: names, owners =>
      let reserved := if nameSpace = "tools" then toolsReservedNames else []
      let qualified := s!"{nameSpace}.{aliasName}"
      if m.proxyNameProblem nameSpace [] ≠ "" ∨ m.proxyNameProblem aliasName reserved ≠ "" then
        .error (.mutation .invalidProjectedAlias s!"projected name is invalid: {qualified}")
      else
        match Dict.get? owners qualified with
        | some prior =>
            if prior ≠ slotId then
              .error (.mutation .aliasConflict
                s!"projected name '{qualified}' conflicts between '{prior}' and '{slotId}'")
            else m.claimNames slotId names owners
        | none => m.claimNames slotId names (Dict.set owners qualified slotId)

/-- The draft active in a slot of the pinned release, with a replacement in one. -/
def Store.overlay (s : Store) (loaded : LoadedCatalog) (targetSlotId : String)
    (replacement : Option Draft) (slotId : String) : Option Draft :=
  if slotId = targetSlotId then replacement
  else
    ((s.activations.filter fun a => a.active).filterMap fun a => s.drafts.find? a.draftId).filter
      (fun d => d.catalogReleaseId = loaded.releaseId && d.slotId = slotId) |>.getLast?

/-- `_assert_projected_namespace_in_conn`. -/
def MutationManager.projectedNamespace (m : MutationManager) (s : Store) (targetSlotId : String)
    (replacement : Option Draft) : Except Refusal Unit :=
  m.loaded.categories.forM fun category => do
    let _ ← category.slots.foldlM (fun owners slot => do
      let slotId := m.loaded.slotId category.categoryId slot.position
      let names ← slot.projections s.host.enabled
        (s.overlay m.loaded targetSlotId replacement slotId)
      m.claimNames slotId (names.filter fun n => n.1 ≠ "" && n.2 ≠ "").eraseDups owners) []
    return ()

/-! ## Authoring -/

/-- The transaction of `propose`. -/
def insertDraft (m : MutationManager) (expectedRevision : Int) (draft : Draft)
    (mountRevision : Int) : Body Receipt := do
  assertWriteAuthority expectedRevision
  insertDraftRow draft
  addReceipt m draft.draftId (.proposed draft.slotId draft.declaredKind draft.sourceSha256
    (m.digest draft.schema) mountRevision)

/-- The statement of `_merge_observed_dependencies`. -/
def Store.writeDependencies (s : Store) (draftId : String) (dependencies : List Contract) : Store :=
  s.updateDraft draftId (fun d => { d with dependencies := dependencies }) fun _ => rfl

/-- The transaction of `validate`. -/
def commitValidation (m : MutationManager) (expectedRevision : Int) (draftId : String)
    (status : DraftStatus) (report : CheckReport) : Body Receipt := do
  assertWriteAuthority expectedRevision
  let receipt ← addReceipt m draftId (.validated report)
  let s ← Txn.read
  Txn.ensure (∃ d ∈ s.drafts.find? draftId, d.status = .draft) (.mutation .draftNotValidatable
    "mutation validation requires a draft in draft status")
  Txn.modify fun s => s.updateDraft draftId
    (fun d => { d with status := status, validation := some receipt }) fun _ => rfl
  return receipt

/-- The transaction of `test`. -/
def commitTest (m : MutationManager) (expectedRevision : Int) (draft : Draft)
    (persistStatus : Bool) (payload : TestPayload) : Body Receipt := do
  assertWriteAuthority expectedRevision
  let receipt ← addReceipt m draft.draftId (.tested payload)
  if persistStatus ∧ (payload.authority = "host" ∨ payload.ok) then
    let s ← Txn.read
    Txn.ensure (∃ d ∈ s.drafts.find? draft.draftId, d.status.preactivation)
      (.mutation .draftNotTestable "mutation draft activated while isolated tests were running")
    let hostTest := if payload.authority = "host" then some receipt else draft.hostTest
    Txn.modify fun s => s.updateDraft draft.draftId
      (fun d => { d with status := .tested, hostTest := hostTest }) fun _ => rfl
  return receipt

/-! ## Activation -/

/-- `RETAINED_SLOT_VERSIONS`. -/
def retainedSlotVersions : Nat := 8

/-- The versions to retire: the oldest candidates, while too many are retained. -/
def retireOldest : Nat → List Int → List Int
  | _, [] => []
  | retained, oldest :: candidates =>
      if retainedSlotVersions ≤ retained then oldest :: retireOldest (retained - 1) candidates
      else []

/-- The versions that the probation row of a slot names. -/
def Store.probationRefs (s : Store) (slotId : String) : List Int :=
  match s.probation.find? slotId with
  | none => []
  | some p => [p.version, p.previousVersion, p.lkgVersion]

/-- The versions of a slot that can be selected, in increasing order. -/
def Store.retained (s : Store) (slotId : String) : List Int :=
  ((s.versions.rows.filter fun v => v.slotId = slotId && v.status ≠ .garbageCollected).map
    SlotVersion.version).insertionSort (· ≤ ·)

/-- The versions that `_retire_inactive_versions_in_conn` retires. -/
def Store.retired (s : Store) (slotId : String) (keep : List Int) : List Int :=
  let protectedVersions := keep.filter (0 < ·) ++ s.probationRefs slotId
  let retained := s.retained slotId
  retireOldest retained.length (retained.filter fun v => !protectedVersions.contains v)

/-- `SELECT COALESCE(MAX(version),0)+1`. -/
def Store.nextVersion (s : Store) (slotId : String) : Int :=
  ((s.versions.rows.filter fun v => v.slotId = slotId).map SlotVersion.version).foldl max 0 + 1

/-- The version made of a draft, if there is one. -/
def Store.versionOf (s : Store) (slotId draftId : String) : Option SlotVersion :=
  s.versions.rows.find? fun v => v.slotId = slotId && v.draftId = draftId

/-- Register the next version of a slot. -/
def registerVersion (m : MutationManager) (draft : Draft) (previousVersion : Int) (now : ℚ) :
    Body Int := do
  Txn.modify fun s => s.setVersionStatus draft.slotId
    (s.retired draft.slotId [previousVersion]) .garbageCollected
  let s ← Txn.read
  let version := s.nextVersion draft.slotId
  match s.versions.insert? ⟨draft.slotId, version, draft.draftId,
      m.contentSha256 draft.sourceSha256 draft.schema draft.dependencies, previousVersion,
      .probation, now⟩ with
  | none => Txn.raise (.integrityError "UNIQUE constraint failed: astb_slot_version.version")
  | some versions =>
      Txn.modify fun s => { s with versions := versions }
      return version

/-- What the activation transaction is given. -/
structure ActivationCommit where
  expectedRevision : Int
  expectedMountRevision : Int
  /-- The draft as the operation last read it. -/
  draft : Draft
  validationReceiptDigest : String
  hostTestReceiptDigest : String
  now : ℚ

/-- What the activation transaction replies. -/
structure ActivationResult where
  alreadyActive : Bool
  slotId : String
  slotVersion : Int
  previousSlotVersion : Int
  mountRevision : Int
  overlayRevision : Int
  deriving DecidableEq, Repr

/-- The rows that a change of the active version of a slot writes. -/
def moveSlot (m : MutationManager) (draftId : String) (body : SlotChange → ReceiptBody)
    (change : SlotChange) (action : ActivationAction) (history : MountHistory) : Body Unit := do
  let receipt ← addReceipt m draftId (body change)
  let row : Activation :=
    ⟨change.slotId, change.newVersion, draftId, true, action, change.toMountRevision,
      receipt.receiptDigest⟩
  Txn.modify fun s =>
    (s.activate (if change.newVersion = 0 then none else some row) change.slotId).setMount
      change.toMountRevision (s.runtime.overlayRevision + 1)
  addMountHistory history

/-- The transaction of `activate`. -/
def commitActivation (m : MutationManager) (c : ActivationCommit) : Body ActivationResult := do
  let before ← Txn.read
  let draft := c.draft
  assertWriteAuthority c.expectedRevision
  Txn.ensure (before.runtime.lifecycleState = "active")
    (.mutation .runtimeUnavailable "chat runtime is unavailable")
  let currentMount := before.runtime.mountRevision
  let expected := c.expectedMountRevision
  Txn.ensure (currentMount = expected)
    (.mountConflict s!"mutation activation CAS failed ({currentMount} != {expected})")
  let current := before.activeDraft draft.slotId
  Txn.ensure (¬ (draft.declaredKind = .create ∧ current.isSome)) (.mutation .slotAlreadyActive
    "a new create cannot replace an active synthesized slot; revise the mounted tool instead")
  Txn.ensure (draft.declaredKind = .revise →
      ∃ p ∈ current, p.2.declaredKind.onSeed = false ∧ p.2.aliasName = draft.aliasName)
    (.mutation .revisionParentChanged
      "active synthesized revision parent changed before activation")
  let previousVersion := match current with
    | some p => p.1.version
    | none => 0
  Txn.lift (m.projectedNamespace before draft.slotId (some draft))
  let version ← match before.versionOf draft.slotId draft.draftId with
    | some existing => pure existing.version
    | none => registerVersion m draft previousVersion c.now
  if current.isSome ∧ previousVersion = version then
    -- `conn.rollback()`
    Txn.modify fun _ => before
    return ⟨true, draft.slotId, version, previousVersion, currentMount,
      before.runtime.overlayRevision⟩
  else
    let change : SlotChange := ⟨draft.slotId, previousVersion, version, currentMount + 1⟩
    moveSlot m draft.draftId
      (fun change => .activated change currentMount c.validationReceiptDigest
        c.hostTestReceiptDigest)
      change .activate
      ⟨currentMount + 1, draft.catalogReleaseId, before.runtime.selectedCategoryId,
        .mutationActivate⟩
    Txn.modify fun s =>
      (s.setProbation ⟨draft.slotId, version, draft.draftId, previousVersion,
        (match s.probation.find? draft.slotId with
          | some p => p.lkgVersion
          | none => previousVersion), .probation, 0, 0, 0, 0⟩).updateDraft draft.draftId
        (fun d => { d with status := .probation }) fun _ => rfl
    return ⟨false, draft.slotId, version, previousVersion, currentMount + 1,
      before.runtime.overlayRevision + 1⟩

/-! ## Recovery -/

/-- What the transition transaction is given. -/
structure TransitionCommit where
  expectedRevision : Int
  expectedMountRevision : Int
  slotId : String
  targetVersion : Int
  action : Recovery
  deriving DecidableEq, Repr

/-- What the transition transaction replies. -/
structure TransitionResult where
  alreadySelected : Bool
  slotId : String
  slotVersion : Int
  previousSlotVersion : Int
  mountRevision : Int
  overlayRevision : Int
  deriving DecidableEq, Repr

/-- The version that a transition goes to, with its draft; nothing for the seed. -/
def Store.transitionTarget (s : Store) (slotId : String) (targetVersion : Int) :
    Except Refusal (Option Draft) :=
  if targetVersion = 0 then .ok none
  else
    match s.versions.find? (slotId, targetVersion) with
    | none => .error (.mutation .unknownVersion "requested mutation version is unavailable")
    | some target =>
        if target.status = .garbageCollected then
          .error (.mutation .unknownVersion "requested mutation version is unavailable")
        else
          match s.drafts.find? target.draftId with
          | none => .error (.mutation .unknownVersion
              "requested mutation version has no durable draft")
          | some draft => .ok (some draft)

/-- The transaction of `_transition`. -/
def commitTransition (m : MutationManager) (c : TransitionCommit) : Body TransitionResult := do
  assertRecoveryAuthority c.expectedRevision
  let s ← Txn.read
  Txn.ensure (s.runtime.mountRevision = c.expectedMountRevision)
    (.mountConflict "mutation transition CAS failed")
  let currentVersion := s.activeVersion c.slotId
  if c.targetVersion = currentVersion then
    return ⟨true, c.slotId, c.targetVersion, currentVersion, c.expectedMountRevision,
      s.runtime.overlayRevision⟩
  else
    let replacement ← Txn.lift (s.transitionTarget c.slotId c.targetVersion)
    Txn.lift (m.projectedNamespace s c.slotId replacement)
    let draftId := match replacement with
      | some draft => draft.draftId
      | none => ""
    let nextMount := c.expectedMountRevision + 1
    moveSlot m draftId (.recovered c.action) ⟨c.slotId, currentVersion, c.targetVersion, nextMount⟩
      (.recovery c.action)
      ⟨nextMount, m.loaded.releaseId, s.runtime.selectedCategoryId, .mutationRecovery c.action⟩
    Txn.modify fun s => s.dropProbation fun p => p.slotId = c.slotId
    return ⟨false, c.slotId, c.targetVersion, currentVersion, nextMount,
      s.runtime.overlayRevision + 1⟩

/-! ## Probation and collection -/

/-- The counters of a probation row after one more call. -/
def Probation.observe (p : Probation) (ok mechanical : Bool) : Probation :=
  { p with
    status := if ok ∧ 2 ≤ p.successfulCalls + 1 then .passed else .probation
    calls := p.calls + 1
    successfulCalls := p.successfulCalls + if ok then 1 else 0
    semanticErrors := p.semanticErrors + if !ok && !mechanical then 1 else 0
    mechanicalErrors := p.mechanicalErrors + if mechanical then 1 else 0 }

/-- The transaction of `_probation_result`. -/
def commitProbation (expectedRevision : Int) (slotId : String) (version : Int)
    (ok mechanical : Bool) : Body Unit := do
  assertWriteAuthority expectedRevision
  let s ← Txn.read
  match s.probation.find? slotId with
  | none => return ()
  | some row =>
      if row.version ≠ version ∨ row.status = .passed then return ()
      else
        let observed := row.observe ok mechanical
        if observed.status = .passed then
          Txn.modify fun s => (s.setVersionStatus slotId [version] .lkg).updateDraft row.draftId
            (fun d => { d with status := .active }) fun _ => rfl
        Txn.modify fun s => s.setProbation observed

/-- The versions that `gc` collects: inactive, not known good, older than the
cutoff, and at most a hundred of them. -/
def Store.collectable (s : Store) (m : MutationManager) (cutoff : ℚ) : List SlotVersion :=
  ((s.versions.rows.filter fun v =>
    (s.activations.all fun a =>
      !(a.slotId = v.slotId && a.version = v.version && a.active)) &&
    v.status = .probation && v.createdAt < cutoff).mergeSort m.scanBefore).take 100

/-- The transaction of `gc`: it replies how many versions it collected. -/
def collect (m : MutationManager) (cutoff : ℚ) : Body Nat := do
  let s ← Txn.read
  let rows := s.collectable m cutoff
  let restated := s.versions.updateWhere (fun v => (rows.map SlotVersion.key).contains v.key)
    (fun v => { v with status := .garbageCollected }) fun _ => rfl
  Txn.modify fun s => { s with versions := restated }
  return rows.length

/-- The first statement of `_recover_state_in_conn`. -/
def Store.recoverActivations (s : Store) : Store :=
  { s with activations := s.activations.map fun a =>
      if a.active && s.versions.rows.all fun v =>
          !(v.slotId = a.slotId && v.version = a.version && v.draftId = a.draftId) then
        { a with active := false }
      else a }

/-- The second statement of `_recover_state_in_conn`. -/
def Store.recoverProbation (s : Store) : Store :=
  s.dropProbation fun p => s.activations.all fun a =>
    !(a.slotId = p.slotId && a.version = p.version && a.active)

/-! ## The transactions -/

/-- A transaction, with what it is given. -/
inductive DbTxn where
  | readRuntime
  | readDraft (draftId : String)
  | readActiveSlot (slotId : String)
  | readActiveRow (slotId : String) (version : Int)
  | readMethodRow (slotId : String) (version : Int) (aliasName : String)
  | readRollbackTarget (slotId : String)
  | readActiveSlots
  | readContracts (excludeSlotId excludeProxy : String)
  | insertDraft (expectedRevision : Int) (draft : Draft) (mountRevision : Int)
  | writeDependencies (draftId : String) (dependencies : List Contract)
  | commitValidation (expectedRevision : Int) (draftId : String) (status : DraftStatus)
      (report : CheckReport)
  | commitTest (expectedRevision : Int) (draft : Draft) (persistStatus : Bool)
      (payload : TestPayload)
  | commitActivation (c : ActivationCommit)
  | commitTransition (c : TransitionCommit)
  | commitProbation (expectedRevision : Int) (slotId : String) (version : Int)
      (ok mechanical : Bool)
  | insertInvocation (row : Invocation)
  | insertFailure (row : FailureRow)
  | collect (cutoff : ℚ)
  | recoverActivations
  | recoverProbation
  | setWriteEnabled (enabled : Bool) (actor : String) (expectedRevision : Option Int)
  | setHost (controls : HostControls)

/-- What a transaction replies. -/
def DbTxn.Reply : DbTxn → Type
  | .readRuntime => Runtime × Bool
  | .readDraft _ => Draft
  | .readActiveSlot _ => Option (Int × String)
  | .readActiveRow _ _ => String
  | .readMethodRow _ _ _ => String
  | .readRollbackTarget _ => Option Int
  | .readActiveSlots => List String
  | .readContracts _ _ => List Contract
  | .insertDraft _ _ _ => Receipt
  | .commitValidation _ _ _ _ => Receipt
  | .commitTest _ _ _ _ => Receipt
  | .commitActivation _ => ActivationResult
  | .commitTransition _ => TransitionResult
  | .collect _ => Nat
  | .setWriteEnabled _ _ _ => Runtime
  | .writeDependencies _ _ | .commitProbation _ _ _ _ _ | .insertInvocation _ | .insertFailure _
  | .recoverActivations | .recoverProbation | .setHost _ => Unit

/-- The draft of the newest version, from a version of an object slot down, that
provides a method.  The columns it reads never change, so its reads are one. -/
def Store.methodDraft (s : Store) (slotId aliasName : String) : Nat → Int → Option String
  | 0, _ => none
  | fuel + 1, current =>
      if current ≤ 0 then none
      else
        match s.versions.find? (slotId, current) with
        | none => none
        | some v =>
            match s.drafts.find? v.draftId with
            | none => none
            | some d =>
                if d.declaredKind.onSeed ∧ d.aliasName = aliasName then some d.draftId
                else if d.declaredKind = .mutate then none
                else s.methodDraft slotId aliasName fuel v.previousVersion

/-- What a transaction does to the tables of the chat, and what it replies. -/
def perform (m : MutationManager) : (t : DbTxn) → Store → Except Refusal t.Reply × Store
  | .readRuntime, s => (.ok (s.runtime, s.host.mutationAllowed), s)
  | .readDraft draftId, s =>
      match s.drafts.find? draftId with
      | some d => (.ok d, s)
      | none => (.error (.mutation .unknownDraft "unknown session mutation draft"), s)
  | .readActiveSlot slotId, s =>
      (.ok ((s.activeRow slotId).map fun a => (a.version, a.draftId)), s)
  | .readActiveRow slotId version, s =>
      match s.activeDraft slotId with
      | some (a, d) =>
          if a.version = version then (.ok d.draftId, s)
          else (.error (.mutation .staleMutationRef "mutation slot/version is no longer active"), s)
      | none =>
          (.error (.mutation .staleMutationRef "mutation slot/version is no longer active"), s)
  | .readMethodRow slotId version aliasName, s =>
      match s.methodDraft slotId aliasName (s.versions.rows.length + 1) version with
      | some draftId => (.ok draftId, s)
      | none => (.error (.mutation .staleMutationRef
          s!"active object mutation no longer provides method '{aliasName}'"), s)
  | .readRollbackTarget slotId, s =>
      (.ok (match s.activeRow slotId with
        | none => none
        | some a => (s.versions.find? (slotId, a.version)).map SlotVersion.previousVersion), s)
  | .readActiveSlots, s =>
      (.ok (((s.activations.filter fun a => a.active).map Activation.slotId).insertionSort (· ≤ ·)), s)
  | .readContracts excludeSlotId excludeProxy, s =>
      (.ok (m.proxyContracts s excludeSlotId excludeProxy), s)
  | .insertDraft expectedRevision draft mountRevision, s =>
      (insertDraft m expectedRevision draft mountRevision).unitOfWork none s
  | .writeDependencies draftId dependencies, s =>
      (.ok (), s.writeDependencies draftId dependencies)
  | .commitValidation expectedRevision draftId status report, s =>
      (commitValidation m expectedRevision draftId status report).unitOfWork none s
  | .commitTest expectedRevision draft persistStatus payload, s =>
      (commitTest m expectedRevision draft persistStatus payload).unitOfWork none s
  | .commitActivation c, s => (commitActivation m c).unitOfWork none s
  | .commitTransition c, s => (commitTransition m c).unitOfWork none s
  | .commitProbation expectedRevision slotId version ok mechanical, s =>
      (commitProbation expectedRevision slotId version ok mechanical).unitOfWork none s
  | .insertInvocation row, s => (.ok (), { s with invocations := s.invocations ++ [row] })
  | .insertFailure row, s => (.ok (), { s with failures := s.failures ++ [row] })
  | .collect cutoff, s => (collect m cutoff).unitOfWork none s
  | .recoverActivations, s => (.ok (), s.recoverActivations)
  | .recoverProbation, s => (.ok (), s.recoverProbation)
  | .setWriteEnabled enabled actor expectedRevision, s =>
      (mutationAuthorityCas enabled actor expectedRevision).unitOfWork none s
  | .setHost controls, s => (.ok (), { s with host := controls })

end SessionCatalog
end VariantOne
