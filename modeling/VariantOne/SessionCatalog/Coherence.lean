import VariantOne.SessionCatalog.Mutation

/-!
# The tables of session mutation agree

`Coherent` says that every version and every activation is of a draft of its own slot, and that a slot has at
most one active version.  A transaction keeps that, given that a draft it activates is a draft of the store
(`keeps_perform`); a program activates only a draft that it has read (`commits_program`).  So it holds in
every state of every run (`coherent_of_run`).

Most transactions rewrite no version and no activation, and for these coherence is a frame fact.  What an
operation knows of a draft it knows from a reply of the store, so that the draft is stored is carried
through its program (`commits_activateOnce`).
-/

namespace VariantOne
namespace SessionCatalog

/-! ## 1.  Coherent tables -/

/-- A draft of this id and slot is stored. -/
def Store.HasDraft (s : Store) (draftId slotId : String) : Prop :=
  ∃ d, s.drafts.find? draftId = some d ∧ d.slotId = slotId

/-- No slot has two active versions. -/
def OneActive (rows : List Activation) : Prop :=
  rows.Pairwise fun a b => ¬ (a.active = true ∧ b.active = true ∧ a.slotId = b.slotId)

structure Store.Coherent (s : Store) : Prop where
  registered : ∀ v ∈ s.versions.rows, s.HasDraft v.draftId v.slotId
  activated : ∀ a ∈ s.activations, s.HasDraft a.draftId a.slotId
  single : OneActive s.activations

/-- Every draft stays, in its slot. -/
def Store.DraftsKept (s s' : Store) : Prop :=
  ∀ draftId slotId, s.HasDraft draftId slotId → s'.HasDraft draftId slotId

theorem Store.coherent_start (c : Chat) : c.store.Coherent where
  registered := fun _ hv => absurd hv List.not_mem_nil
  activated := fun _ ha => absurd ha List.not_mem_nil
  single := List.Pairwise.nil

/-- A change of the tables that keeps them coherent. -/
def Store.Keeps (s s' : Store) : Prop := s'.Coherent ∧ s.DraftsKept s'

theorem Store.keeps_self {s : Store} (h : s.Coherent) : s.Keeps s := ⟨h, fun _ _ hd => hd⟩

theorem Store.Keeps.trans {s s' s'' : Store} (h : s.Keeps s') (h' : s'.Keeps s'') : s.Keeps s'' :=
  ⟨h'.1, fun draftId slotId hd => h'.2 draftId slotId (h.2 draftId slotId hd)⟩

/-- The drafts, versions and activations as they were. -/
theorem Store.keeps_of_eq {s s' : Store} (h : s.Coherent) (hdrafts : s'.drafts = s.drafts)
    (hversions : s'.versions = s.versions) (hactivations : s'.activations = s.activations) :
    s.Keeps s' := by
  have hkept : s.DraftsKept s' := fun draftId slotId hd => by
    unfold HasDraft at hd ⊢
    rwa [hdrafts]
  refine ⟨⟨fun v hv => ?_, fun a ha => ?_, by rw [hactivations]; exact h.single⟩, hkept⟩
  · exact hkept _ _ (h.registered v (hversions ▸ hv))
  · exact hkept _ _ (h.activated a (hactivations ▸ ha))

/-- Drafts change in columns other than the slot. -/
theorem Store.keeps_updateDraft {s : Store} (h : s.Coherent) (draftId : String) {f : Draft → Draft}
    (hf : ∀ d, (f d).draftId = d.draftId) (hslot : ∀ d, (f d).slotId = d.slotId) :
    s.Keeps (s.updateDraft draftId f hf) := by
  have hkept : s.DraftsKept (s.updateDraft draftId f hf) := by
    rintro id slotId ⟨d, hd, rfl⟩
    have hfind : (s.updateDraft draftId f hf).drafts.find? id =
        some (if d.draftId = draftId then f d else d) := by
      unfold updateDraft
      rw [Table.find?_updateWhere, hd, Option.map_some]
      simp
    refine ⟨_, hfind, ?_⟩
    split
    · exact hslot d
    · rfl
  exact ⟨⟨fun v hv => hkept _ _ (h.registered v hv), fun a ha => hkept _ _ (h.activated a ha), h.single⟩,
    hkept⟩

/-- Versions change in their status. -/
theorem Store.keeps_versions {s : Store} (h : s.Coherent) {p : SlotVersion → Bool} {status : VersionStatus}
    {versions : Table SlotVersion (String × Int) SlotVersion.key}
    (hrows : versions.rows = s.versions.rows.map fun v => if p v then { v with status := status } else v) :
    s.Keeps { s with versions := versions } := by
  refine ⟨⟨fun v hv => ?_, h.activated, h.single⟩, fun _ _ hd => hd⟩
  obtain ⟨v₀, hv₀, rfl⟩ := List.mem_map.mp (hrows ▸ hv)
  have hd := h.registered v₀ hv₀
  split
  · exact hd
  · exact hd

theorem Store.keeps_setVersionStatus {s : Store} (h : s.Coherent) (slotId : String) (versions : List Int)
    (status : VersionStatus) : s.Keeps (s.setVersionStatus slotId versions status) :=
  s.keeps_versions h rfl

/-- A version of a stored draft is registered. -/
theorem Store.keeps_insertVersion {s : Store} (h : s.Coherent) {v : SlotVersion}
    {versions : Table SlotVersion (String × Int) SlotVersion.key}
    (hinsert : s.versions.insert? v = some versions) (hd : s.HasDraft v.draftId v.slotId) : s.Keeps { s with versions := versions } := by
  refine ⟨⟨fun v' hv' => ?_, h.activated, h.single⟩, fun _ _ hd => hd⟩
  have hrows : v' ∈ s.versions.rows ++ [v] := (Table.insert?_eq_some hinsert).2 ▸ hv'
  rcases List.mem_append.mp hrows with hv' | hv'
  · exact h.registered v' hv'
  · rw [List.mem_singleton.mp hv']
    exact hd

/-- Activations are switched off. -/
theorem Store.keeps_deactivate {s : Store} (h : s.Coherent) (off : Activation → Bool) :
    s.Keeps { s with activations :=
      s.activations.map fun a => if off a then { a with active := false } else a } := by
  refine ⟨⟨h.registered, fun a ha => ?_, ?_⟩, fun _ _ hd => hd⟩
  · obtain ⟨a₀, ha₀, rfl⟩ := List.mem_map.mp ha
    have hd := h.activated a₀ ha₀
    split
    · exact hd
    · exact hd
  · refine List.pairwise_map.mpr (h.single.imp fun {a b} hab hboth => ?_)
    split at hboth
    · cases hboth.1
    · split at hboth
      · cases hboth.2.1
      · exact hab hboth

/-- **A version of a stored draft is activated**: the others of its slot are switched off. -/
theorem Store.keeps_activate {s : Store} (h : s.Coherent) {row : Option Activation} {slotId : String}
    (hslot : ∀ a ∈ row, a.slotId = slotId) (hd : ∀ a ∈ row, s.HasDraft a.draftId slotId) :
    s.Keeps (s.activate row slotId) := by
  have hoff := (s.keeps_deactivate h fun a => a.slotId = slotId && a.active).1
  refine ⟨⟨h.registered, fun a ha => ?_, ?_⟩, fun _ _ hd => hd⟩
  · rcases List.mem_append.mp ha with ha | ha
    · exact hoff.activated a ha
    · have ha := Option.mem_toList.mp ha
      rw [hslot a ha]
      exact hd a ha
  · refine List.pairwise_append.mpr ⟨hoff.single, ?_, fun a ha b hb hboth => ?_⟩
    · cases row with
      | none => exact List.Pairwise.nil
      | some a => exact List.pairwise_singleton _ _
    · obtain ⟨a₀, ha₀, rfl⟩ := List.mem_map.mp ha
      have hb := hslot b (Option.mem_toList.mp hb)
      split at hboth
      · cases hboth.1
      · rename_i hactive
        exact hactive (by simp [hboth.2.2.trans hb, hboth.1])

/-! ## 2.  Transactions -/

/-- A body that keeps coherent tables coherent, and every draft. -/
def KeepsTables {α : Type} (x : Body α) : Prop :=
  ∀ s a s', x.run s = .ok (a, s') → s.Coherent → s.Keeps s'

section Bodies

variable {α β : Type}

theorem keepsTables_pure (a : α) : KeepsTables (pure a : Body α) := fun s _ _ h hs => by
  obtain ⟨-, rfl⟩ := Txn.run_pure_eq_ok.mp h
  exact s.keeps_self hs

theorem keepsTables_raise (e : Refusal) : KeepsTables (Txn.raise e : Body α) := fun _ _ _ h => nomatch h

theorem keepsTables_read : KeepsTables (Txn.read : Body Store) := fun s _ _ h hs => by
  obtain ⟨-, rfl⟩ := Prod.mk.inj (Except.ok.inj h)
  exact s.keeps_self hs

theorem keepsTables_ensure (c : Prop) [Decidable c] (e : Refusal) :
    KeepsTables (Txn.ensure c e : Body Unit) := fun s _ _ h hs => by
  obtain ⟨-, rfl⟩ := Txn.run_ensure_eq_ok.mp h
  exact s.keeps_self hs

theorem keepsTables_modify {f : Store → Store} (hf : ∀ s : Store, s.Coherent → s.Keeps (f s)) :
    KeepsTables (Txn.modify f : Body Unit) := fun s _ _ h hs => by
  obtain ⟨-, rfl⟩ := Prod.mk.inj (Except.ok.inj h)
  exact hf s hs

theorem keepsTables_bind {x : Body α} {f : α → Body β} (hx : KeepsTables x) (hf : ∀ a, KeepsTables (f a)) :
    KeepsTables (x >>= f) := fun s b s'' h hs => by
  obtain ⟨a, s', hxrun, hfrun⟩ := Txn.run_bind_eq_ok.mp h
  have hkeep := hx s a s' hxrun hs
  exact hkeep.trans (hf a s' b s'' hfrun hkeep.1)

/-- A transaction commits what its body keeps, or nothing. -/
theorem keeps_unitOfWork {x : Body α} (hx : KeepsTables x) {s s' : Store} {r : Except Refusal α}
    (hs : s.Coherent) (h : x.unitOfWork none s = (r, s')) : s.Keeps s' := by
  unfold Txn.unitOfWork at h
  split at h
  · rename_i a s'' hrun hfault
    obtain ⟨-, rfl⟩ := Prod.mk.inj h
    exact hx s a s'' hrun hs
  · rename_i hfault
    cases hfault
  · obtain ⟨-, rfl⟩ := Prod.mk.inj h
    exact s.keeps_self hs

end Bodies

theorem keepsTables_addReceipt (m : MutationManager) (draftId : String) (body : ReceiptBody) :
    KeepsTables (addReceipt m draftId body) :=
  keepsTables_bind (keepsTables_modify fun s hs => s.keeps_of_eq hs rfl rfl rfl) fun _ => keepsTables_pure _

theorem keepsTables_addMountHistory (row : MountHistory) : KeepsTables (addMountHistory row) := by
  refine keepsTables_bind keepsTables_read fun s => ?_
  split
  · exact keepsTables_raise _
  · exact keepsTables_modify fun s hs => s.keeps_of_eq hs rfl rfl rfl

theorem keepsTables_assertWriteAuthority (revision : Int) : KeepsTables (assertWriteAuthority revision) :=
  keepsTables_bind keepsTables_read fun _ => keepsTables_bind (keepsTables_ensure _ _) fun _ =>
    keepsTables_bind (keepsTables_ensure _ _) fun _ => keepsTables_ensure _ _

theorem keepsTables_mutationAuthorityCas (enabled : Bool) (actor : String) (revision : Option Int) :
    KeepsTables (mutationAuthorityCas enabled actor revision) := by
  refine keepsTables_bind (keepsTables_ensure _ _) fun _ => keepsTables_bind (keepsTables_ensure _ _) fun _ =>
    keepsTables_bind (keepsTables_ensure _ _) fun _ => keepsTables_bind keepsTables_read fun s =>
    keepsTables_bind (keepsTables_ensure _ _) fun _ => keepsTables_bind (keepsTables_ensure _ _) fun _ =>
    keepsTables_bind (keepsTables_ensure _ _) fun _ => ?_
  split
  · exact keepsTables_pure _
  · exact keepsTables_bind (keepsTables_modify fun s hs => s.keeps_of_eq hs rfl rfl rfl) fun _ =>
      keepsTables_pure _

theorem keepsTables_insertDraftRow (d : Draft) : KeepsTables (insertDraftRow d) := by
  refine fun s a s' h hs => ?_
  unfold insertDraftRow at h
  rw [Txn.run_read_bind] at h
  split at h
  · cases h
  · rename_i drafts hinsert
    obtain ⟨-, rfl⟩ := Prod.mk.inj (Except.ok.inj h)
    obtain ⟨hfresh, hrows⟩ := Table.insert?_eq_some hinsert
    have hkept : s.DraftsKept { s with drafts := drafts } := by
      rintro draftId slotId ⟨d', hd', hslot⟩
      refine ⟨d', ?_, hslot⟩
      have hne : d.draftId ≠ draftId := by
        rintro rfl
        rw [hfresh] at hd'
        cases hd'
      exact (Table.find?_of_rows_append hrows draftId).trans ((if_neg hne).trans hd')
    exact ⟨⟨fun v hv => hkept _ _ (hs.registered v hv), fun a ha => hkept _ _ (hs.activated a ha), hs.single⟩,
      hkept⟩

theorem keepsTables_insertDraft (m : MutationManager) (revision : Int) (d : Draft) (mountRevision : Int) :
    KeepsTables (insertDraft m revision d mountRevision) :=
  keepsTables_bind (keepsTables_assertWriteAuthority _) fun _ =>
    keepsTables_bind (keepsTables_insertDraftRow _) fun _ => keepsTables_addReceipt _ _ _

theorem keepsTables_commitValidation (m : MutationManager) (revision : Int) (draftId : String)
    (status : DraftStatus) (report : CheckReport) :
    KeepsTables (commitValidation m revision draftId status report) :=
  keepsTables_bind (keepsTables_assertWriteAuthority _) fun _ =>
    keepsTables_bind (keepsTables_addReceipt _ _ _) fun _ => keepsTables_bind keepsTables_read fun _ =>
    keepsTables_bind (keepsTables_ensure _ _) fun _ => keepsTables_bind
      (keepsTables_modify fun s hs => s.keeps_updateDraft hs _ _ fun _ => rfl) fun _ => keepsTables_pure _

theorem keepsTables_commitTest (m : MutationManager) (revision : Int) (d : Draft) (persistStatus : Bool)
    (payload : TestPayload) : KeepsTables (commitTest m revision d persistStatus payload) := by
  refine keepsTables_bind (keepsTables_assertWriteAuthority _) fun _ =>
    keepsTables_bind (keepsTables_addReceipt _ _ _) fun _ => ?_
  split
  · exact keepsTables_bind keepsTables_read fun _ => keepsTables_bind (keepsTables_ensure _ _) fun _ =>
      keepsTables_bind (keepsTables_modify fun s hs => s.keeps_updateDraft hs _ _ fun _ => rfl) fun _ =>
      keepsTables_pure _
  · exact keepsTables_pure _

theorem keepsTables_setProbation (row : Probation) :
    KeepsTables (Txn.modify fun s => s.setProbation row : Body Unit) :=
  keepsTables_modify fun s hs => s.keeps_of_eq hs rfl rfl rfl

theorem keepsTables_commitProbation (revision : Int) (slotId : String) (version : Int)
    (ok mechanical : Bool) : KeepsTables (commitProbation revision slotId version ok mechanical) := by
  refine keepsTables_bind (keepsTables_assertWriteAuthority _) fun _ => keepsTables_bind keepsTables_read
    fun s => ?_
  split
  · exact keepsTables_pure _
  · split
    · exact keepsTables_pure _
    · dsimp only
      split
      · refine keepsTables_bind (keepsTables_modify fun s hs => ?_) fun _ => keepsTables_setProbation _
        have hstatus := s.keeps_setVersionStatus hs slotId [version] .lkg
        exact hstatus.trans (Store.keeps_updateDraft hstatus.1 _ _ fun _ => rfl)
      · exact keepsTables_setProbation _

theorem keepsTables_collect (m : MutationManager) (cutoff : ℚ) : KeepsTables (collect m cutoff) := by
  refine fun s a s' h hs => ?_
  obtain ⟨-, rfl⟩ := Prod.mk.inj (Except.ok.inj h)
  exact s.keeps_versions hs rfl

/-- The active version of a slot moves to one of a stored draft. -/
theorem keeps_moveSlot {m : MutationManager} {draftId : String} {body : SlotChange → ReceiptBody}
    {change : SlotChange} {action : ActivationAction} {history : MountHistory} {s s' : Store} {u : Unit}
    (hs : s.Coherent) (hd : change.newVersion ≠ 0 → s.HasDraft draftId change.slotId)
    (h : (moveSlot m draftId body change action history).run s = .ok (u, s')) : s.Keeps s' := by
  unfold moveSlot at h
  obtain ⟨receipt, s₁, hreceipt, h⟩ := Txn.run_bind_eq_ok.mp h
  have hkeep := keepsTables_addReceipt m draftId (body change) s receipt s₁ hreceipt hs
  obtain ⟨_, s₂, hmodify, h⟩ := Txn.run_bind_eq_ok.mp h
  obtain ⟨-, rfl⟩ := Prod.mk.inj (Except.ok.inj hmodify)
  have hactivate : s₁.Keeps (s₁.activate (if change.newVersion = 0 then none else some
      ⟨change.slotId, change.newVersion, draftId, true, action, change.toMountRevision,
        receipt.receiptDigest⟩) change.slotId) := by
    refine s₁.keeps_activate hkeep.1 (fun a ha => ?_) fun a ha => ?_
    · split at ha
      · cases ha
      · rw [← Option.some.inj ha]
    · split at ha
      · cases ha
      · rename_i hversion
        rw [← Option.some.inj ha]
        exact hkeep.2 _ _ (hd hversion)
  have hmount : s₁.Keeps ((s₁.activate (if change.newVersion = 0 then none else some
      ⟨change.slotId, change.newVersion, draftId, true, action, change.toMountRevision,
        receipt.receiptDigest⟩) change.slotId).setMount change.toMountRevision
          (s₁.runtime.overlayRevision + 1)) :=
    hactivate.trans (Store.keeps_of_eq hactivate.1 rfl rfl rfl)
  exact hkeep.trans (hmount.trans (keepsTables_addMountHistory history _ u s' h hmount.1))

/-- A version of a stored draft is registered for its slot. -/
theorem keeps_registerVersion {m : MutationManager} {draft : Draft} {previousVersion : Int} {now : ℚ}
    {s s' : Store} {version : Int} (hs : s.Coherent) (hd : s.HasDraft draft.draftId draft.slotId)
    (h : (registerVersion m draft previousVersion now).run s = .ok (version, s')) : s.Keeps s' := by
  unfold registerVersion at h
  obtain ⟨_, s₁, hmodify, h⟩ := Txn.run_bind_eq_ok.mp h
  obtain ⟨-, rfl⟩ := Prod.mk.inj (Except.ok.inj hmodify)
  rw [Txn.run_read_bind] at h
  have hstatus := s.keeps_setVersionStatus hs draft.slotId (s.retired draft.slotId [previousVersion])
    .garbageCollected
  dsimp only at h
  split at h
  · cases h
  · rename_i versions hinsert
    obtain ⟨_, s₂, hmodify, h⟩ := Txn.run_bind_eq_ok.mp h
    obtain ⟨-, rfl⟩ := Prod.mk.inj (Except.ok.inj hmodify)
    obtain ⟨-, rfl⟩ := Txn.run_pure_eq_ok.mp h
    exact hstatus.trans (Store.keeps_insertVersion hstatus.1 hinsert (hstatus.2 _ _ hd))

theorem keeps_probation {s : Store} (hs : s.Coherent) (row : Probation) (draftId : String) :
    s.Keeps ((s.setProbation row).updateDraft draftId (fun d => { d with status := .probation })
      fun _ => rfl) := by
  have hprobation : s.Keeps (s.setProbation row) := s.keeps_of_eq hs rfl rfl rfl
  exact hprobation.trans (Store.keeps_updateDraft hprobation.1 _ _ fun _ => rfl)

/-- **An activation of a stored draft keeps the tables coherent.** -/
theorem keeps_commitActivation {m : MutationManager} {c : ActivationCommit} {s s' : Store}
    {r : ActivationResult} (hs : s.Coherent) (hd : s.HasDraft c.draft.draftId c.draft.slotId)
    (h : (commitActivation m c).run s = .ok (r, s')) : s.Keeps s' := by
  unfold commitActivation at h
  rw [Txn.run_read_bind] at h
  obtain ⟨_, s₁, hassert, h⟩ := Txn.run_bind_eq_ok.mp h
  have hkeep := keepsTables_assertWriteAuthority _ _ _ _ hassert hs
  obtain ⟨-, h⟩ := Txn.run_ensure_bind_eq_ok.mp h
  obtain ⟨-, h⟩ := Txn.run_ensure_bind_eq_ok.mp h
  obtain ⟨-, h⟩ := Txn.run_ensure_bind_eq_ok.mp h
  obtain ⟨-, h⟩ := Txn.run_ensure_bind_eq_ok.mp h
  obtain ⟨_, -, h⟩ := Txn.run_lift_bind_eq_ok.mp h
  -- With a version active or none, and a version of the draft or none, what follows is the same.
  dsimp only at h
  split at h <;> split at h
  all_goals
    obtain ⟨version, s₂, hversion, h⟩ := Txn.run_bind_eq_ok.mp h
    have hkeep₂ : s.Keeps s₂ := by
      first
        | exact (Txn.run_pure_eq_ok.mp hversion).2 ▸ hkeep
        | exact hkeep.trans (keeps_registerVersion hkeep.1 (hkeep.2 _ _ hd) hversion)
    split at h
    · obtain ⟨_, s₃, hmodify, h⟩ := Txn.run_bind_eq_ok.mp h
      obtain ⟨-, rfl⟩ := Prod.mk.inj (Except.ok.inj hmodify)
      obtain ⟨-, rfl⟩ := Txn.run_pure_eq_ok.mp h
      exact s.keeps_self hs
    · obtain ⟨u, s₃, hmove, h⟩ := Txn.run_bind_eq_ok.mp h
      have hkeep₃ := hkeep₂.trans (keeps_moveSlot hkeep₂.1 (fun _ => hkeep₂.2 _ _ hd) hmove)
      obtain ⟨_, s₄, hmodify, h⟩ := Txn.run_bind_eq_ok.mp h
      obtain ⟨-, rfl⟩ := Prod.mk.inj (Except.ok.inj hmodify)
      obtain ⟨-, rfl⟩ := Txn.run_pure_eq_ok.mp h
      exact hkeep₃.trans (keeps_probation hkeep₃.1 _ _)

/-- The target of a transition is a version of a stored draft of the slot. -/
theorem hasDraft_of_transitionTarget {s : Store} (hs : s.Coherent) {slotId : String} {target : Int}
    {replacement : Option Draft} (h : s.transitionTarget slotId target = .ok replacement) :
    (target ≠ 0 → ∃ d, replacement = some d ∧ s.HasDraft d.draftId slotId) := by
  intro htarget
  unfold Store.transitionTarget at h
  rw [if_neg htarget] at h
  split at h
  · cases h
  · rename_i v hv
    split at h
    · cases h
    · split at h
      · cases h
      · rename_i d hd
        obtain ⟨hmem, hkey⟩ := Table.find?_eq_some_iff.mp hv
        obtain ⟨d', hd', hslot⟩ := hs.registered v hmem
        obtain rfl := Option.some.inj (hd.symm.trans hd')
        have hid : d.draftId = v.draftId := Table.key_of_find? hd
        have hvslot : v.slotId = slotId := congrArg Prod.fst hkey
        exact ⟨d, (Except.ok.inj h).symm, d, hid ▸ hd, hslot.trans hvslot⟩

/-- **A rollback or a reset keeps the tables coherent.** -/
theorem keepsTables_commitTransition (m : MutationManager) (c : TransitionCommit) :
    KeepsTables (commitTransition m c) := by
  intro s r s' h hs
  unfold commitTransition at h
  obtain ⟨_, s₁, hassert, h⟩ := Txn.run_bind_eq_ok.mp h
  have hkeep : s.Keeps s₁ :=
    keepsTables_bind keepsTables_read (fun _ => keepsTables_ensure _ _) _ _ _ hassert hs
  rw [Txn.run_read_bind] at h
  obtain ⟨-, h⟩ := Txn.run_ensure_bind_eq_ok.mp h
  dsimp only at h
  split at h
  · obtain ⟨-, rfl⟩ := Txn.run_pure_eq_ok.mp h
    exact hkeep
  · obtain ⟨replacement, htarget, h⟩ := Txn.run_lift_bind_eq_ok.mp h
    obtain ⟨_, -, h⟩ := Txn.run_lift_bind_eq_ok.mp h
    obtain ⟨u, s₂, hmove, h⟩ := Txn.run_bind_eq_ok.mp h
    have hkeep₂ : s₁.Keeps s₂ := by
      refine keeps_moveSlot hkeep.1 (fun hversion => ?_) hmove
      obtain ⟨d, rfl, hd⟩ := hasDraft_of_transitionTarget hkeep.1 htarget hversion
      exact hd
    obtain ⟨_, s₃, hmodify, h⟩ := Txn.run_bind_eq_ok.mp h
    obtain ⟨-, rfl⟩ := Prod.mk.inj (Except.ok.inj hmodify)
    obtain ⟨-, rfl⟩ := Txn.run_pure_eq_ok.mp h
    exact hkeep.trans (hkeep₂.trans (s₂.keeps_of_eq hkeep₂.1 rfl rfl rfl))

/-- **A transaction keeps the tables coherent**, when the draft it activates is one of the store. -/
theorem keeps_perform {m : MutationManager} {t : DbTxn} {s s' : Store} {r : Except Refusal t.Reply}
    (hs : s.Coherent) (hd : ∀ c, t = .commitActivation c → s.HasDraft c.draft.draftId c.draft.slotId)
    (h : perform m t s = (r, s')) : s.Keeps s' := by
  have hsame : s' = s → s.Keeps s' := fun heq => heq ▸ s.keeps_self hs
  cases t with
  | readRuntime => exact hsame (Prod.mk.inj h).2.symm
  | readDraft draftId =>
      simp only [perform] at h
      split at h <;> exact hsame (Prod.mk.inj h).2.symm
  | readActiveSlot slotId => exact hsame (Prod.mk.inj h).2.symm
  | readActiveRow slotId version =>
      simp only [perform] at h
      split at h
      · split at h <;> exact hsame (Prod.mk.inj h).2.symm
      · exact hsame (Prod.mk.inj h).2.symm
  | readMethodRow slotId version aliasName =>
      simp only [perform] at h
      split at h <;> exact hsame (Prod.mk.inj h).2.symm
  | readRollbackTarget slotId => exact hsame (Prod.mk.inj h).2.symm
  | readActiveSlots => exact hsame (Prod.mk.inj h).2.symm
  | readContracts slotId proxy => exact hsame (Prod.mk.inj h).2.symm
  | insertDraft revision draft mountRevision =>
      exact keeps_unitOfWork (keepsTables_insertDraft m revision draft mountRevision) hs h
  | writeDependencies draftId dependencies =>
      obtain ⟨-, rfl⟩ := Prod.mk.inj h
      exact s.keeps_updateDraft hs _ _ fun _ => rfl
  | commitValidation revision draftId status report =>
      exact keeps_unitOfWork (keepsTables_commitValidation m revision draftId status report) hs h
  | commitTest revision draft persistStatus payload =>
      exact keeps_unitOfWork (keepsTables_commitTest m revision draft persistStatus payload) hs h
  | commitActivation c =>
      simp only [perform, Txn.unitOfWork] at h
      split at h
      · rename_i result s'' hrun hfault
        obtain ⟨-, rfl⟩ := Prod.mk.inj h
        exact keeps_commitActivation hs (hd c rfl) hrun
      · rename_i hfault
        cases hfault
      · exact hsame (Prod.mk.inj h).2.symm
  | commitTransition c => exact keeps_unitOfWork (keepsTables_commitTransition m c) hs h
  | commitProbation revision slotId version ok mechanical =>
      exact keeps_unitOfWork (keepsTables_commitProbation revision slotId version ok mechanical) hs h
  | insertInvocation row =>
      obtain ⟨-, rfl⟩ := Prod.mk.inj h
      exact s.keeps_of_eq hs rfl rfl rfl
  | insertFailure row =>
      obtain ⟨-, rfl⟩ := Prod.mk.inj h
      exact s.keeps_of_eq hs rfl rfl rfl
  | collect cutoff => exact keeps_unitOfWork (keepsTables_collect m cutoff) hs h
  | recoverActivations =>
      obtain ⟨-, rfl⟩ := Prod.mk.inj h
      exact s.keeps_deactivate hs _
  | recoverProbation =>
      obtain ⟨-, rfl⟩ := Prod.mk.inj h
      exact s.keeps_of_eq hs rfl rfl rfl
  | setWriteEnabled enabled actor revision =>
      exact keeps_unitOfWork (keepsTables_mutationAuthorityCas enabled actor revision) hs h
  | setHost controls =>
      obtain ⟨-, rfl⟩ := Prod.mk.inj h
      exact s.keeps_of_eq hs rfl rfl rfl

/-! ## 3.  Programs -/

/-- A transaction activates only a draft that was read before. -/
def CommitsRead (done : List (Entry DbTxn DbTxn.Reply Refusal)) (t : DbTxn) : Prop :=
  ∀ c, t = .commitActivation c →
    ∃ draftId, (⟨.readDraft draftId, .ok c.draft⟩ : Entry DbTxn DbTxn.Reply Refusal) ∈ done

/-- A program that activates only what it has read. -/
structure Commits {α : Type} (p : Op α) (done : List (Entry DbTxn DbTxn.Reply Refusal)) : Prop where
  ensures : p.Ensures CommitsRead (fun _ _ => True) done

/-- A transaction that activates a version. -/
def DbTxn.activates : DbTxn → Bool
  | .commitActivation _ => true
  | _ => false

/-- A program without activation. -/
structure Quiet {α : Type} (p : Op α) : Prop where
  ensures : ∀ done, p.Ensures (fun _ t => t.activates = false) (fun _ _ => True) done

section Quiet

variable {α β : Type}

theorem quiet_pure (a : α) : Quiet (pure a : Op α) := ⟨fun _ => trivial⟩

theorem quiet_throw (e : Refusal) : Quiet (throw e : Op α) := ⟨fun _ => trivial⟩

theorem quiet_txn (t : DbTxn) (h : t.activates = false) : Quiet (txn t) :=
  ⟨fun _ => Prog.ensures_request.mpr ⟨h, fun _ => trivial⟩⟩

theorem quiet_ofExcept (x : Except Refusal α) : Quiet (Prog.ofExcept x : Op α) :=
  ⟨fun _ => Prog.ensures_ofExcept.mpr trivial⟩

theorem quiet_ensure (c : Prop) [Decidable c] (e : Refusal) : Quiet (Prog.ensure c e : Op Unit) := by
  unfold Prog.ensure
  split
  · exact ⟨fun _ => trivial⟩
  · exact ⟨fun _ => trivial⟩

theorem quiet_bind {p : Op α} {f : α → Op β} (hp : Quiet p) (hf : ∀ a, Quiet (f a)) : Quiet (p >>= f) :=
  ⟨fun done => (hp.ensures done).bind (M := fun _ _ => True) (fun done a _ => (hf a).ensures done)
    fun _ _ _ => trivial⟩

theorem quiet_map {p : Op α} {f : α → β} (hp : Quiet p) : Quiet (f <$> p) :=
  quiet_bind hp fun a => quiet_pure (f a)

theorem quiet_handle {p : Op α} {handler : Refusal → Op α} (hp : Quiet p) (hh : ∀ e, Quiet (handler e)) :
    Quiet (p.handle handler) := ⟨fun done => by
  rw [Prog.ensures_handle]
  refine (hp.ensures done).mono (fun _ _ h => h) fun done r _ => ?_
  cases r with
  | ok a => trivial
  | error e => exact (hh e).ensures done⟩

theorem commitsRead_of_quiet {done : List (Entry DbTxn DbTxn.Reply Refusal)} {t : DbTxn}
    (h : t.activates = false) : CommitsRead done t := fun c hc => by
  rw [hc] at h
  cases h

/-- A program without activation activates what was read. -/
theorem Quiet.commits {p : Op α} (h : Quiet p) (done : List (Entry DbTxn DbTxn.Reply Refusal)) :
    Commits p done :=
  ⟨(h.ensures done).mono (fun _ _ ht => commitsRead_of_quiet ht) fun _ _ _ => trivial⟩

/-- A quiet part, then a part that may activate. -/
theorem commits_bind {p : Op α} {f : α → Op β} {done : List (Entry DbTxn DbTxn.Reply Refusal)}
    (hp : Quiet p) (hf : ∀ a done, Commits (f a) done) : Commits (p >>= f) done :=
  ⟨(hp.commits done).ensures.bind (M := fun _ _ => True) (fun done a _ => (hf a done).ensures)
    fun _ _ _ => trivial⟩

theorem commits_then {p : Op α} {f : α → Op β} {done : List (Entry DbTxn DbTxn.Reply Refusal)}
    (hp : Commits p done) (hf : ∀ a, Quiet (f a)) : Commits (p >>= f) done :=
  ⟨hp.ensures.bind (M := fun _ _ => True) (fun done a _ => ((hf a).commits done).ensures)
    fun _ _ _ => trivial⟩

theorem commits_map {p : Op α} {f : α → β} {done : List (Entry DbTxn DbTxn.Reply Refusal)}
    (hp : Commits p done) : Commits (f <$> p) done :=
  commits_then hp fun a => quiet_pure (f a)

theorem commits_handle {p : Op α} {handler : Refusal → Op α} {done : List (Entry DbTxn DbTxn.Reply Refusal)}
    (hp : Commits p done) (hh : ∀ e, Quiet (handler e)) : Commits (p.handle handler) done := ⟨by
  rw [Prog.ensures_handle]
  refine hp.ensures.mono (fun _ _ h => h) fun done r _ => ?_
  cases r with
  | ok a => trivial
  | error e => exact ((hh e).commits done).ensures⟩

/-- A draft that is activated once it is read. -/
theorem commits_readActivate (draftId : String) {c : Draft → ActivationCommit} (hc : ∀ d, (c d).draft = d)
    (done : List (Entry DbTxn DbTxn.Reply Refusal)) :
    Commits (do let draft : Draft ← txn (.readDraft draftId); txn (.commitActivation (c draft))) done := by
  refine ⟨Prog.ensures_request_bind.mpr ⟨commitsRead_of_quiet rfl, fun d => ?_, fun _ => trivial⟩⟩
  refine Prog.ensures_request.mpr ⟨fun c' hc' => ?_, fun _ => trivial⟩
  obtain rfl := DbTxn.commitActivation.inj hc'
  exact ⟨draftId, List.mem_cons.mpr (.inl (congrArg
    (fun d : Draft => (⟨.readDraft draftId, .ok d⟩ : Entry DbTxn DbTxn.Reply Refusal)) (hc d)))⟩

end Quiet

namespace MutationManager

variable {m : MutationManager}

theorem quiet_requireWriteAuthority (revision : Option Int) : Quiet (requireWriteAuthority revision) := by
  unfold requireWriteAuthority
  refine quiet_bind (quiet_txn .readRuntime rfl) ?_
  rintro ⟨runtime, allowed⟩
  exact quiet_bind (quiet_ensure _ _) fun _ => quiet_bind (quiet_ensure _ _) fun _ =>
    quiet_bind (quiet_ensure _ _) fun _ => quiet_pure _

theorem quiet_requireRecoveryAuthority (revision : Option Int) :
    Quiet (requireRecoveryAuthority revision) := by
  unfold requireRecoveryAuthority
  refine quiet_bind (quiet_txn .readRuntime rfl) ?_
  rintro ⟨runtime, allowed⟩
  exact quiet_bind (quiet_ensure _ _) fun _ => quiet_pure _

theorem quiet_recordFailure (draftId : String) (stage : FailureStage) (code : String) :
    Quiet (recordFailure draftId stage code) := by
  unfold recordFailure
  exact quiet_bind (quiet_handle (quiet_bind (quiet_txn (.readDraft _) rfl) fun _ => quiet_pure _)
    fun _ => quiet_pure _)
    fun _ => quiet_txn (.insertFailure _) rfl

theorem quiet_parentSlot (runtime : Runtime) (parent slotId required mismatch : String) :
    Quiet (m.parentSlot runtime parent slotId required mismatch) := by
  unfold parentSlot
  exact quiet_bind (quiet_ensure _ _) fun _ => quiet_bind (quiet_ofExcept _) fun _ =>
    quiet_bind (quiet_ensure _ _) fun _ => quiet_pure _

theorem quiet_activeSlotDraft (slotId : String) : Quiet (activeSlotDraft slotId) := by
  unfold activeSlotDraft
  refine quiet_bind (quiet_txn (.readActiveSlot _) rfl) fun active => ?_
  split
  · exact quiet_pure _
  · exact quiet_bind (quiet_txn (.readDraft _) rfl) fun _ => quiet_pure _

theorem quiet_proposalParent (runtime : Runtime) (q : ProposeRequest) (kind : DeclaredKind)
    (target : ResolvedSlot) (cleanAlias : String) :
    Quiet (m.proposalParent runtime q kind target cleanAlias) := by
  have hseed : ∀ text : String, Quiet (do
      Prog.ensure (target.slot.status = "seed")
        (.mutation .shapeMismatch s!"{text} requires an occupied seed slot")
      let parentSlotId ← m.parentSlot runtime q.parent (target.id m.loaded)
        s!"{text} requires its owning slot as parent" "mutation parent must equal the target slot"
      Prog.ensure (kind = .method → target.slot.projectionText = "object")
        (.mutation .shapeMismatch "method mutation requires a coherent object slot")
      return parentSlotId : Op String) := fun text =>
    quiet_bind (quiet_ensure _ _) fun _ => quiet_bind (quiet_parentSlot _ _ _ _ _) fun _ =>
      quiet_bind (quiet_ensure _ _) fun _ => quiet_pure _
  cases kind with
  | mutate => exact hseed _
  | method => exact hseed _
  | revise =>
      exact quiet_bind (quiet_activeSlotDraft _) fun _ => quiet_bind (quiet_ensure _ _) fun _ =>
        quiet_bind (quiet_parentSlot _ _ _ _ _) fun _ => quiet_bind (quiet_ensure _ _) fun _ => quiet_pure _
  | create =>
      exact quiet_bind (quiet_ensure _ _) fun _ => quiet_bind (quiet_activeSlotDraft _) fun _ =>
        quiet_bind (quiet_ensure _ _) fun _ => quiet_bind (quiet_ensure _ _) fun _ => quiet_pure _

theorem quiet_proposalOrder (q : ProposeRequest) (kind : DeclaredKind) (target : ResolvedSlot)
    (cleanAlias : String) (params : Json) : Quiet (m.proposalOrder q kind target cleanAlias params) := by
  unfold proposalOrder
  simp only []
  generalize (if m.wrappedHelperOrder q.source = [] ∧ kind.onSeed = true then
    m.slotParameterOrder target.slot cleanAlias kind else m.wrappedHelperOrder q.source) = declared
  split
  · exact quiet_bind (quiet_activeSlotDraft _) fun _ => quiet_bind (quiet_pure _) fun _ => quiet_pure _
  · exact quiet_bind (quiet_pure _) fun _ => quiet_pure _

theorem quiet_propose (q : ProposeRequest) : Quiet (m.propose q) := by
  unfold propose
  refine quiet_bind (quiet_requireWriteAuthority _) fun runtime => ?_
  refine quiet_bind (quiet_ofExcept _) fun kind => ?_
  refine quiet_bind (quiet_ofExcept _) fun target => ?_
  refine quiet_bind (quiet_ensure _ _) fun _ => ?_
  refine quiet_bind (quiet_proposalParent _ _ _ _ _) fun parentSlotId => ?_
  refine quiet_bind (quiet_ensure _ _) fun _ => ?_
  refine quiet_bind (quiet_ensure _ _) fun _ => ?_
  refine quiet_bind (quiet_ensure _ _) fun _ => ?_
  refine quiet_bind (quiet_ofExcept _) ?_
  rintro ⟨schema, params⟩
  refine quiet_bind (quiet_proposalOrder _ _ _ _ _) fun order => ?_
  refine quiet_bind (quiet_ensure _ _) fun _ => ?_
  refine quiet_bind (quiet_txn (.readContracts _ _) rfl) fun contracts => ?_
  exact quiet_bind (quiet_ofExcept _) fun _ => quiet_txn (.insertDraft _ _ _) rfl

theorem quiet_validate (draftId : String) (revision : Option Int) : Quiet (m.validate draftId revision) := by
  unfold validate
  refine quiet_bind (quiet_requireWriteAuthority _) fun _ =>
    quiet_bind (quiet_txn (.readDraft _) rfl) fun _ =>
    quiet_bind (quiet_ensure _ _) fun _ => quiet_bind (quiet_ofExcept _) fun source =>
    quiet_bind (quiet_ofExcept _) fun _ => quiet_bind (quiet_txn (.readContracts _ _) rfl) fun _ => ?_
  split
  · exact quiet_txn (.commitValidation _ _ _ _) rfl
  · exact quiet_bind (quiet_txn (.commitValidation _ _ _ _) rfl) fun _ =>
      quiet_bind (quiet_recordFailure _ _ _) fun _ => quiet_pure _

theorem quiet_mergeObservedDependencies (draftId : String) (contracts : List Contract) (calls : List String) :
    Quiet (mergeObservedDependencies draftId contracts calls) := by
  unfold mergeObservedDependencies
  dsimp only
  split
  · exact quiet_pure _
  · exact quiet_bind (quiet_txn (.readDraft _) rfl) fun _ => quiet_txn (.writeDependencies _ _) rfl

theorem quiet_test (q : TestRequest) : Quiet (m.test q) := by
  unfold test
  refine quiet_bind (quiet_requireWriteAuthority _) fun _ =>
    quiet_bind (quiet_txn (.readDraft _) rfl) fun _ =>
    quiet_bind (quiet_ensure _ _) fun _ => quiet_bind (quiet_ofExcept _) fun _ =>
    quiet_bind (quiet_ensure _ _) fun _ => quiet_bind (quiet_ofExcept _) fun _ =>
    quiet_bind (quiet_txn (.readContracts _ _) rfl) fun contracts =>
    quiet_bind (quiet_ofExcept _) fun results => ?_
  have hcommit : ∀ (runtime : Runtime) (draft : Draft) (payload : TestPayload), Quiet (do
      let receipt : Receipt ← txn (.commitTest runtime.authorityRevision draft q.persistStatus payload)
      if results.all CaseResult.ok = false ∧ q.authority = "host" then
        recordFailure q.draftId .hostTest "case_failure"
      return receipt : Op Receipt) := fun runtime draft payload => by
    refine quiet_bind (quiet_txn (.commitTest _ _ _ _) rfl) fun _ => ?_
    split
    · exact quiet_bind (quiet_recordFailure _ _ _) fun _ => quiet_pure _
    · exact quiet_bind (quiet_pure _) fun _ => quiet_pure _
  dsimp only
  split
  · exact quiet_bind (quiet_mergeObservedDependencies _ _ _) fun _ => hcommit _ _ _
  · exact hcommit _ _ _

theorem quiet_activationValidation (draft : Draft) (revision : Int) :
    Quiet (m.activationValidation draft revision) := by
  unfold activationValidation
  split
  · exact quiet_bind (quiet_map (quiet_validate _ _)) fun _ => quiet_ofExcept _
  · exact quiet_bind (quiet_pure _) fun _ => quiet_ofExcept _
  · exact quiet_bind (quiet_pure _) fun _ => quiet_ofExcept _
  · exact quiet_bind (quiet_throw _) fun _ => quiet_ofExcept _
  · exact quiet_bind (quiet_throw _) fun _ => quiet_ofExcept _
  · exact quiet_bind (quiet_throw _) fun _ => quiet_ofExcept _

theorem quiet_transition (slot : String) (target : Int) (action : Recovery) (mount revision : Option Int) :
    Quiet (m.transition slot target action mount revision) := by
  unfold transition
  exact quiet_bind (quiet_requireRecoveryAuthority _) fun _ => quiet_bind (quiet_ofExcept _) fun _ =>
    quiet_txn (.commitTransition _) rfl

theorem quiet_rollback (slot : String) (toVersion mount revision : Option Int) :
    Quiet (m.rollback slot toVersion mount revision) := by
  unfold rollback
  exact quiet_bind (quiet_requireRecoveryAuthority _) fun _ => quiet_bind (quiet_ofExcept _) fun _ =>
    quiet_bind (quiet_txn (.readRollbackTarget _) rfl) fun _ => quiet_bind (quiet_ofExcept _) fun _ =>
    quiet_transition _ _ _ _ _

theorem quiet_resetSlots (revision : Int) (slotIds : List String) (expected : Int) :
    Quiet (m.resetSlots revision slotIds expected) := by
  induction slotIds generalizing expected with
  | nil => exact quiet_pure _
  | cons slotId slotIds ih =>
      unfold resetSlots
      exact quiet_bind (quiet_transition _ _ _ _ _) fun _ => quiet_bind (ih _) fun _ => quiet_pure _

theorem quiet_resetAll : Quiet m.resetAll := by
  unfold resetAll
  exact quiet_bind (quiet_requireRecoveryAuthority _) fun _ =>
    quiet_bind (quiet_txn .readActiveSlots rfl) fun _ => quiet_resetSlots _ _ _

theorem quiet_probationResult (slotId : String) (version : Int) (ok mechanical : Bool) :
    Quiet (probationResult slotId version ok mechanical) := by
  unfold probationResult
  refine quiet_handle (quiet_bind (quiet_requireWriteAuthority _) fun _ =>
    quiet_txn (.commitProbation _ _ _ _ _) rfl) fun e => ?_
  split
  · split
    · exact quiet_pure _
    · exact quiet_throw _
  · exact quiet_throw _

theorem quiet_invokedDraft (q : InvokeRequest) : Quiet (invokedDraft q) := by
  unfold invokedDraft
  refine quiet_bind (quiet_txn (.readActiveRow _ _) rfl) fun _ =>
    quiet_bind (quiet_txn (.readDraft _) rfl) fun _ => ?_
  split
  · exact quiet_pure _
  · exact quiet_bind (quiet_txn (.readMethodRow _ _ _) rfl) fun _ => quiet_txn (.readDraft _) rfl

theorem quiet_invoke (q : InvokeRequest) : Quiet (m.invoke q) := by
  unfold invoke
  refine quiet_bind (quiet_ensure _ _) fun _ => quiet_bind (quiet_invokedDraft _) fun _ =>
    quiet_bind (quiet_ofExcept _) fun _ => quiet_bind (quiet_ofExcept _) fun _ =>
    quiet_bind (quiet_requireRecoveryAuthority _) fun _ => quiet_bind (quiet_ofExcept _) fun _ =>
    quiet_bind (quiet_txn (.readContracts _ _) rfl) fun _ => ?_
  split
  · exact quiet_bind (quiet_txn (.insertInvocation _) rfl) fun _ =>
      quiet_bind (quiet_recordFailure _ _ _) fun _ => quiet_bind (quiet_probationResult _ _ _ _) fun _ =>
      quiet_throw _
  · exact quiet_bind (quiet_mergeObservedDependencies _ _ _) fun _ =>
      quiet_bind (quiet_txn (.insertInvocation _) rfl) fun _ =>
      quiet_bind (quiet_probationResult _ _ _ _) fun _ => quiet_pure _

/-- **The draft that `_activate_once` activates is the one it read last.** -/
theorem commits_activateOnce (q : ActivateRequest) (done : List (Entry DbTxn DbTxn.Reply Refusal)) :
    Commits (m.activateOnce q) done := by
  unfold activateOnce
  exact commits_bind (quiet_requireWriteAuthority _) fun runtime _ =>
    commits_bind (quiet_txn (.readDraft _) rfl) fun draft _ => commits_bind (quiet_ofExcept _) fun _ _ =>
    commits_bind (quiet_activationValidation _ _) fun validation _ =>
    commits_bind (quiet_test _) fun hostTest done => commits_readActivate q.draftId (fun _ => rfl) done

theorem commits_activate (q : ActivateRequest) (done : List (Entry DbTxn DbTxn.Reply Refusal)) :
    Commits (m.activate q) done := by
  unfold activate
  refine commits_handle (commits_activateOnce q done) fun e => ?_
  split
  · split
    · exact quiet_bind (quiet_recordFailure _ _ _) fun _ => quiet_throw _
    · exact quiet_throw _
  · exact quiet_bind (quiet_recordFailure _ _ _) fun _ => quiet_throw _
  · exact quiet_bind (quiet_recordFailure _ _ _) fun _ => quiet_throw _

theorem commits_proposeActivate (p : ProposeRequest) (worker : Nat → Json → WorkerOutcome) (now : ℚ)
    (done : List (Entry DbTxn DbTxn.Reply Refusal)) : Commits (m.proposeActivate p worker now) done := by
  unfold proposeActivate
  exact commits_bind (quiet_requireWriteAuthority _) fun _ _ =>
    commits_bind (quiet_propose _) fun _ done => commits_activate _ done

/-- **Every operation activates only a draft that it has read.** -/
theorem commits_program (m : MutationManager) (q : Request) (done : List (Entry DbTxn DbTxn.Reply Refusal)) :
    Commits (m.program q) done := by
  cases q with
  | propose q => exact (quiet_map (quiet_propose q)).commits done
  | validate draftId revision => exact (quiet_map (quiet_validate draftId revision)).commits done
  | test q => exact (quiet_map (quiet_test q)).commits done
  | activate q => exact commits_map (commits_activate q done)
  | proposeActivate p worker now => exact commits_map (commits_proposeActivate p worker now done)
  | rollback slot toVersion mount revision =>
      exact (quiet_map (quiet_rollback slot toVersion mount revision)).commits done
  | resetSlot slot mount revision =>
      exact (quiet_map (quiet_transition slot 0 .reset mount revision)).commits done
  | resetAll => exact (quiet_map quiet_resetAll).commits done
  | gc now olderThan => exact (quiet_map (quiet_txn (.collect _) rfl)).commits done
  | probationResult slotId version ok mechanical =>
      exact (quiet_map (quiet_probationResult slotId version ok mechanical)).commits done
  | invoke q => exact (quiet_map (quiet_invoke q)).commits done

end MutationManager

/-! ## 4.  Runs -/

/-- A draft that was read is stored. -/
def BornOut (s : Store) (e : Entry DbTxn DbTxn.Reply Refusal) : Prop :=
  ∀ draftId d, e = ⟨.readDraft draftId, .ok d⟩ → s.HasDraft d.draftId d.slotId

theorem bornOut_perform {m : MutationManager} {t : DbTxn} {s s' : Store} {r : Except Refusal t.Reply}
    (h : perform m t s = (r, s')) (hkeep : s.Keeps s') : BornOut s' ⟨t, r⟩ := by
  intro draftId d heq
  obtain ⟨rfl, hr⟩ := Sigma.mk.inj heq
  obtain rfl := eq_of_heq hr
  simp only [perform] at h
  split at h
  · rename_i d' hd
    obtain ⟨hd', rfl⟩ := Prod.mk.inj h
    obtain rfl := Except.ok.inj hd'
    exact ⟨d', (Table.key_of_find? hd).symm ▸ hd, rfl⟩
  · exact nomatch (Prod.mk.inj h).1

/-- **The tables are coherent in every state of every run.** -/
theorem coherent_of_run {m : MutationManager} {c : Chat}
    {h : List (Move Request Event × Option (Entry DbTxn DbTxn.Reply Refusal))}
    {w : Crowd Store DbTxn DbTxn.Reply Refusal Request Answer}
    (hrun : (mutationMachine m c).Run h w) : w.store.Coherent := by
  have hstay : ∀ {s s' : Store} {e}, s.Keeps s' → BornOut s e → BornOut s' e :=
    fun hkeep he draftId d heq => hkeep.2 _ _ (he draftId d heq)
  refine (Service.rule (I := Store.Coherent) (R := BornOut) (P := fun _ => CommitsRead)
    (Q := fun _ _ _ => True) (Store.coherent_start c) (fun q => (m.commits_program q []).ensures)
    ?_ ?_ hrun.runWhere).1
  · intro h w i task t next r s' _ _ hI hdone hP hperform
    have hkeep : w.store.Keeps s' := keeps_perform hI (fun c hc => by
      obtain ⟨draftId, hmem⟩ := hP c hc
      exact hdone _ hmem draftId c.draft rfl) hperform
    exact ⟨hkeep.1, bornOut_perform hperform hkeep, fun e he => hstay hkeep he⟩
  · intro h w event r s' _ hI hperform
    have hkeep : w.store.Keeps s' := keeps_perform hI (fun c hc => by cases event <;> cases hc) hperform
    exact ⟨hkeep.1, fun e he => hstay hkeep he⟩

end SessionCatalog
end VariantOne
