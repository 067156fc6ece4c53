import Mathlib.Data.List.Pairwise
import Mathlib.Data.List.Sort
import VariantOne.Lib.Layers
import VariantOne.SessionCatalog.Coherence

/-!
# The methods of a mutated object

An object slot whose active version is a method mutation is listed as an object with methods: those of the
catalog, with the versions of the slot laid over them oldest first (`activeOverlays`).  A call names a
method, and the version that serves it is looked for from the active one back (`activeMethodRow`).

Both follow the versions by the references that `rollback` makes a tree of, and mark what they have seen.

`sessionMethods_exact` says, for every state of every run, that a session method is listed exactly when a
call by its name is served by the draft it is listed from.  Both walks are instances of `Lib/Layers`; what
is left is that the tables are coherent, and that a slot has one active row.
-/

namespace VariantOne
namespace SessionCatalog

/-! ## 1.  One method -/

/-- The `JOIN` of a version of a slot with its draft, and the version before. -/
def Store.versionDraft (s : Store) (slotId : String) (version : Int) : Option (Draft × Int) :=
  if version ≤ 0 then none
  else (s.versions.find? (slotId, version)).bind fun v =>
    (s.drafts.find? v.draftId).map fun d => (d, v.previousVersion)

/-- A draft that provides a method of this name. -/
def Draft.provides (aliasName : String) (d : Draft) : Bool :=
  d.declaredKind.onSeed && decide (d.aliasName = aliasName)

/-- A draft that replaces the object, and what was laid over it before. -/
def Draft.replacesAll (d : Draft) : Bool := decide (d.declaredKind = .mutate)

/-- The loop of `_active_method_row`. -/
def Store.seekMethod (s : Store) (slotId : String) (version : Int) (aliasName : String) :
    Option (Option Draft) :=
  Layers.seek (s.versionDraft slotId) (Draft.provides aliasName) Draft.replacesAll
    (s.versions.rows.length + 1) [] version

/-- `_active_method_row` -/
def Store.activeMethodRow (s : Store) (slotId : String) (version : Int) (aliasName : String) :
    Except Refusal Draft :=
  match s.activeDraft slotId with
  | some (a, _) =>
      if a.version = version then
        match s.seekMethod slotId version aliasName with
        | some (some d) => .ok d
        | _ => .error (.mutation .staleMutationRef
            s!"active object mutation no longer provides method '{aliasName}'")
      else .error (.mutation .staleMutationRef "mutation slot/version is no longer active")
  | none => .error (.mutation .staleMutationRef "mutation slot/version is no longer active")

/-! ## 2.  The listing -/

/-- A listed method of the session. -/
structure SessionMethod where
  aliasName : String
  description : String
  params : Json
  slotVersion : Int

/-- A listed method of an object. -/
inductive ObjectMethod where
  | catalog (aliasName : String)
  | session (method : SessionMethod)

def ObjectMethod.aliasName : ObjectMethod → String
  | .catalog aliasName => aliasName
  | .session method => method.aliasName

/-- A listed object. -/
structure MountedObject where
  nameSpace : String
  slotId : String
  slotVersion : Int
  mountRevision : Int
  methods : List ObjectMethod

/-- What is listed for a slot with an active version: an object, or one operation of a namespace. -/
inductive Overlay where
  | object (o : MountedObject)
  | operation (nameSpace slotId : String) (method : SessionMethod)

/-- The loop that collects the versions of a slot, newest first. -/
def Store.collectChain (s : Store) (slotId : String) (version : Int) : Option (List Draft) :=
  Layers.trace (s.versionDraft slotId) (s.versions.rows.length + 1) [] version

namespace MutationManager

variable (m : MutationManager)

/-- `ordered_params`, in the stored order of the draft. -/
def orderedParams (d : Draft) : Json :=
  match d.parameterOrder, d.params with
  | [], params => params
  | order, .obj entries => .obj ((m.parameterOrder d.params order).filterMap fun name =>
      (Dict.get? entries name).map fun value => (name, value))
  | _, params => params

/-- The entry of a draft, served by the active version. -/
def sessionMethod (version : Int) (d : Draft) : SessionMethod :=
  ⟨d.aliasName, d.purpose, m.orderedParams d, version⟩

/-- The catalog's methods of an object whose condition holds. -/
def catalogMethods (admits : CatalogSlot → String → Bool) (slot : CatalogSlot) :
    List (String × ObjectMethod) :=
  Dict.merge [] ((slot.methods.filter fun aliasName => admits slot aliasName && aliasName ≠ "").map
    fun aliasName => (aliasName, .catalog aliasName))

/-- The methods of an object slot: the chain of versions laid over those of the catalog. -/
def methodTable (admits : CatalogSlot → String → Bool) (slot : CatalogSlot) (version : Int)
    (chain : List Draft) : List (String × ObjectMethod) :=
  Layers.replay (fun d => d.declaredKind.onSeed) Draft.replacesAll Draft.aliasName
    (fun d => .session (m.sessionMethod version d)) (catalogMethods admits slot) chain

/-- What one row of `active_overlays` is listed as, if it is listed. -/
def overlayRow (s : Store) (mountRevision : Int) (admits : CatalogSlot → String → Bool)
    (a : Activation) (d : Draft) : Except Refusal (Option Overlay) :=
  if d.catalogReleaseId ≠ m.loaded.releaseId then .ok none
  else if d.declaredKind.onSeed = false then
    .ok (some (.operation "tools" d.slotId (m.sessionMethod a.version d)))
  else do
    let r ← m.resolve "" d.slotId
    let projection := r.slot.projectionText
    if projection ≠ "seeds" ∧ projection ≠ "object" then
      throw (.mutation .retiredProjection s!"slot uses retired projection: '{projection}'")
    else if d.declaredKind = .method then
      if projection ≠ "object" then
        throw (.mutation .shapeMismatch "active method mutation no longer owns an object slot")
      else
        match r.slot.bindings with
        | [transport] =>
            if transport.toolName ∈ s.host.enabled then
              let chain := (s.collectChain d.slotId a.version).getD []
              return some (.object ⟨r.slot.bundle, d.slotId, a.version, mountRevision,
                (m.methodTable admits r.slot a.version chain).map Prod.snd⟩)
            else return none
        | _ => throw (.mutation (.other "atomic_contract_unavailable")
            "method mutation lost its coherent object transport")
    else if projection = "object" then
      return some (.object ⟨r.slot.bundle, d.slotId, a.version, mountRevision,
        [.session (m.sessionMethod a.version d)]⟩)
    else return some (.operation "tools" d.slotId (m.sessionMethod a.version d))

/-- The active rows with their drafts, by category and position. -/
def activeRows (s : Store) : List (Activation × Draft) :=
  ((s.activations.filter fun a => a.active).filterMap fun a =>
    (s.drafts.find? a.draftId).map fun d => (a, d)).insertionSort fun x y =>
      x.2.categoryId < y.2.categoryId ∨ x.2.categoryId = y.2.categoryId ∧ x.2.position ≤ y.2.position

/-- `active_overlays` -/
def activeOverlays (s : Store) (mountRevision : Int) (admits : CatalogSlot → String → Bool) :
    Except Refusal (List Overlay) := do
  let listed ← (activeRows s).mapM fun row => m.overlayRow s mountRevision admits row.1 row.2
  return listed.filterMap id

end MutationManager

/-! ## 3.  The walks -/

theorem Store.versionDraft_isSome {s : Store} {slotId : String} {version : Int}
    (h : (s.versionDraft slotId version).isSome) : version ∈ s.versions.rows.map SlotVersion.version := by
  unfold versionDraft at h
  split at h
  · cases h
  · cases hv : s.versions.find? (slotId, version) with
    | none => rw [hv] at h; cases h
    | some v =>
        obtain ⟨hmem, hkey⟩ := Table.find?_eq_some_iff.mp hv
        exact List.mem_map.mpr ⟨v, hmem, congrArg Prod.snd hkey⟩

/-- **The collecting walk ends.** -/
theorem Store.collectChain_isSome (s : Store) (slotId : String) (version : Int) :
    (s.collectChain slotId version).isSome := by
  have hle := List.length_filter_le (· ∉ ([] : List Int)) (s.versions.rows.map SlotVersion.version)
  rw [List.length_map] at hle
  exact Layers.trace_isSome (fun v hv => s.versionDraft_isSome hv) (Nat.lt_succ_of_le hle)

/-- **The search ends**, and finds what the walk collects. -/
theorem Store.seekMethod_eq {s : Store} {slotId : String} {version : Int} {chain : List Draft}
    (h : s.collectChain slotId version = some chain) (aliasName : String) :
    s.seekMethod slotId version aliasName =
      some (Layers.firstFound (Draft.provides aliasName) Draft.replacesAll chain) :=
  Layers.seek_eq h

/-- The transaction of a call looks for the same draft. -/
theorem Store.methodDraft_eq (s : Store) (slotId : String) (version : Int) (aliasName : String) :
    s.methodDraft slotId aliasName (s.versions.rows.length + 1) version =
      ((s.seekMethod slotId version aliasName).getD none).map Draft.draftId := by
  obtain ⟨chain, hchain⟩ := Option.isSome_iff_exists.mp (s.collectChain_isSome slotId version)
  have hseek := s.seekMethod_eq hchain aliasName
  have hplain : ∀ n version, s.methodDraft slotId aliasName n version =
      (Layers.seekOn (s.versionDraft slotId) (Draft.provides aliasName) Draft.replacesAll n version).map
        Draft.draftId := by
    intro n
    induction n with
    | zero => exact fun _ => rfl
    | succ n ih =>
        intro version
        unfold methodDraft Layers.seekOn versionDraft
        by_cases hle : version ≤ 0
        · rw [if_pos hle, if_pos hle]
          rfl
        · rw [if_neg hle, if_neg hle]
          cases s.versions.find? (slotId, version) with
          | none => rfl
          | some v =>
              cases hd : s.drafts.find? v.draftId with
              | none => simp [hd]
              | some d =>
                  simp only [hd, Option.bind_some, Option.map_some, Draft.provides, Draft.replacesAll,
                    Bool.and_eq_true, decide_eq_true_eq, ih]
                  split
                  · rfl
                  · split <;> rfl
  rw [hplain, hseek]
  exact congrArg _ (Layers.seekOn_eq_of_seek (fun i hi => absurd hi List.not_mem_nil) hseek)

/-! ## 4.  The methods of an object -/

theorem mem_of_mem_set {κ α : Type} [DecidableEq κ] {d : List (κ × α)} {k : κ} {v : α} {p : κ × α}
    (h : p ∈ Dict.set d k v) : p = (k, v) ∨ p ∈ d := by
  induction d with
  | nil => exact .inl (List.mem_singleton.mp h)
  | cons q d ih =>
      rw [Dict.set] at h
      split at h
      · rename_i hk
        rcases List.mem_cons.mp h with rfl | h
        · exact .inl (by rw [hk])
        · exact .inr (List.mem_cons_of_mem _ h)
      · rcases List.mem_cons.mp h with rfl | h
        · exact .inr List.mem_cons_self
        · exact (ih h).imp_right (List.mem_cons_of_mem _)

namespace MutationManager

variable {m : MutationManager} {admits : CatalogSlot → String → Bool} {slot : CatalogSlot}
  {version : Int} {chain : List Draft}

theorem catalogMethods_snd {p : String × ObjectMethod} (h : p ∈ catalogMethods admits slot) :
    p.2 = .catalog p.1 := by
  unfold catalogMethods Dict.merge at h
  generalize slot.methods.filter (fun aliasName => admits slot aliasName && aliasName ≠ "") = aliases at h
  have hkeep : ∀ (aliases : List String) (d : List (String × ObjectMethod)), (∀ q ∈ d, q.2 = .catalog q.1) →
      ∀ q ∈ (aliases.map fun aliasName => (aliasName, ObjectMethod.catalog aliasName)).foldl
        (fun acc p => Dict.set acc p.1 p.2) d, q.2 = .catalog q.1 := by
    intro aliases
    induction aliases with
    | nil => exact fun d hd => hd
    | cons aliasName aliases ih =>
        intro d hd
        refine ih _ fun q hq => ?_
        rcases mem_of_mem_set hq with rfl | hq
        · rfl
        · exact hd q hq
  exact hkeep aliases [] (fun q hq => absurd hq List.not_mem_nil) p h

theorem wf_methodTable : Dict.WF (m.methodTable admits slot version chain) :=
  Layers.wf_replay (Dict.WF.merge (d := []) List.nodup_nil _) chain

/-- **What the table holds of a name**: the newest draft that provides it, or the catalog's method. -/
theorem get?_methodTable (aliasName : String) {method : ObjectMethod}
    (h : Dict.get? (m.methodTable admits slot version chain) aliasName = some method) :
    (∃ d, Layers.firstFound (Draft.provides aliasName) Draft.replacesAll chain = some d ∧
      method = .session (m.sessionMethod version d)) ∨ method = .catalog aliasName := by
  unfold methodTable at h
  rw [Layers.get?_replay fun d hd => by rw [of_decide_eq_true hd]; rfl] at h
  cases hfound : Layers.firstFound (Draft.provides aliasName) Draft.replacesAll chain with
  | some d =>
      have hfound' : Layers.firstFound (fun d => d.declaredKind.onSeed && decide (d.aliasName = aliasName))
          Draft.replacesAll chain = some d := hfound
      rw [hfound'] at h
      exact .inl ⟨d, rfl, (Option.some.inj h).symm⟩
  | none =>
      have hfound' : Layers.firstFound (fun d => d.declaredKind.onSeed && decide (d.aliasName = aliasName))
          Draft.replacesAll chain = none := hfound
      rw [hfound'] at h
      dsimp only at h
      split at h
      · cases h
      · exact .inr (catalogMethods_snd (Dict.mem_of_get? h))

theorem get?_methodTable_of_found {aliasName : String} {d : Draft}
    (h : Layers.firstFound (Draft.provides aliasName) Draft.replacesAll chain = some d) :
    Dict.get? (m.methodTable admits slot version chain) aliasName =
      some (.session (m.sessionMethod version d)) := by
  have hfound : Layers.firstFound (fun d => d.declaredKind.onSeed && decide (d.aliasName = aliasName))
      Draft.replacesAll chain = some d := h
  unfold methodTable
  rw [Layers.get?_replay fun d hd => by rw [of_decide_eq_true hd]; rfl, hfound]

theorem provides_of_found {aliasName : String} {d : Draft}
    (h : Layers.firstFound (Draft.provides aliasName) Draft.replacesAll chain = some d) :
    d.aliasName = aliasName := by
  have hprovides := Layers.firstFound_eq_some h
  exact of_decide_eq_true (Bool.and_eq_true_iff.mp hprovides).2

/-- **A session method is listed** when the search finds its draft. -/
theorem mem_methodTable_iff {method : SessionMethod} :
    ObjectMethod.session method ∈ (m.methodTable admits slot version chain).map Prod.snd ↔
      ∃ d, Layers.firstFound (Draft.provides method.aliasName) Draft.replacesAll chain = some d ∧
        method = m.sessionMethod version d := by
  constructor
  · intro h
    obtain ⟨⟨aliasName, listed⟩, hmem, rfl⟩ := List.mem_map.mp h
    rcases get?_methodTable aliasName (wf_methodTable.get?_eq_some_iff.mpr hmem) with ⟨d, hd, heq⟩ | heq
    · obtain rfl := ObjectMethod.session.inj heq
      have haliasName : (m.sessionMethod version d).aliasName = aliasName := provides_of_found hd
      exact ⟨d, by rw [haliasName]; exact hd, rfl⟩
    · cases heq
  · rintro ⟨d, hd, rfl⟩
    exact List.mem_map.mpr ⟨_, Dict.mem_of_get? (get?_methodTable_of_found hd), rfl⟩

/-- No name is listed twice. -/
theorem nodup_methodTable :
    (((m.methodTable admits slot version chain).map Prod.snd).map ObjectMethod.aliasName).Nodup := by
  have hkeys : ((m.methodTable admits slot version chain).map Prod.snd).map ObjectMethod.aliasName =
      Dict.keys (m.methodTable admits slot version chain) := by
    rw [List.map_map]
    refine List.map_congr_left fun p hp => ?_
    rcases get?_methodTable p.1 (wf_methodTable.get?_eq_some_iff.mpr hp) with ⟨d, hd, heq⟩ | heq
    · rw [Function.comp_apply, heq]
      exact provides_of_found hd
    · rw [Function.comp_apply, heq]
      rfl
  rw [hkeys]
  exact wf_methodTable

end MutationManager

/-! ## 5.  What is listed for a slot -/

theorem mem_mapM_ok {ε α β : Type} {f : α → Except ε β} {xs : List α} {ys : List β} (h : xs.mapM f = .ok ys)
    {y : β} : y ∈ ys ↔ ∃ x ∈ xs, f x = .ok y := by
  induction xs generalizing ys with
  | nil =>
      obtain rfl : [] = ys := Except.ok.inj h
      simp
  | cons x xs ih =>
      rw [List.mapM_cons] at h
      obtain ⟨z, hz, h⟩ := except_bind_eq_ok.mp h
      obtain ⟨zs, hzs, h⟩ := except_bind_eq_ok.mp h
      obtain rfl : z :: zs = ys := Except.ok.inj h
      rw [List.mem_cons, ih hzs, List.exists_mem_cons_iff, hz]
      exact or_congr_left ⟨fun h => h ▸ rfl, fun h => (Except.ok.inj h).symm⟩

theorem all_mapM_ok {ε α β : Type} {f : α → Except ε β} {xs : List α} {ys : List β} (h : xs.mapM f = .ok ys)
    {x : α} (hx : x ∈ xs) : ∃ y, f x = .ok y := by
  induction xs generalizing ys with
  | nil => cases hx
  | cons x' xs ih =>
      rw [List.mapM_cons] at h
      obtain ⟨z, hz, h⟩ := except_bind_eq_ok.mp h
      obtain ⟨zs, hzs, -⟩ := except_bind_eq_ok.mp h
      rcases List.mem_cons.mp hx with rfl | hx
      · exact ⟨z, hz⟩
      · exact ih hzs hx

namespace MutationManager

variable {m : MutationManager} {s : Store} {mountRevision : Int} {admits : CatalogSlot → String → Bool}

/-- The slot of a draft is mounted: its release is the pinned one and its one transport is enabled. -/
def Mounted (m : MutationManager) (s : Store) (d : Draft) : Prop :=
  d.catalogReleaseId = m.loaded.releaseId ∧ ∃ (r : ResolvedSlot) (transport : Binding),
    m.resolve "" d.slotId = .ok r ∧ r.slot.bindings = [transport] ∧ transport.toolName ∈ s.host.enabled

theorem mem_activeRows {a : Activation} {d : Draft} :
    (a, d) ∈ activeRows s ↔ a ∈ s.activations ∧ a.active = true ∧ s.drafts.find? a.draftId = some d := by
  unfold activeRows
  rw [List.mem_insertionSort, List.mem_filterMap]
  constructor
  · rintro ⟨a', ha', h⟩
    obtain ⟨d', hd', heq⟩ := Option.map_eq_some_iff.mp h
    obtain ⟨rfl, rfl⟩ := Prod.mk.inj heq
    obtain ⟨hmem, hactive⟩ := List.mem_filter.mp ha'
    exact ⟨hmem, hactive, hd'⟩
  · rintro ⟨hmem, hactive, hd⟩
    exact ⟨a, List.mem_filter.mpr ⟨hmem, hactive⟩, by rw [hd]; rfl⟩

/-- The active row of a slot, with its draft. -/
theorem activeDraft_eq_some {slotId : String} {a : Activation} {d : Draft}
    (h : s.activeDraft slotId = some (a, d)) : (a, d) ∈ activeRows s ∧ a.slotId = slotId := by
  unfold Store.activeDraft at h
  cases hfind : s.activeRow slotId with
  | none => rw [hfind] at h; cases h
  | some a₀ =>
      rw [hfind] at h
      obtain ⟨d₀, hd₀, heq⟩ := Option.map_eq_some_iff.mp h
      obtain ⟨rfl, rfl⟩ := Prod.mk.inj heq
      have hfound := List.find?_some hfind
      obtain ⟨hslot, hactive⟩ := Bool.and_eq_true_iff.mp hfound
      exact ⟨mem_activeRows.mpr ⟨List.mem_of_find?_eq_some hfind, hactive, hd₀⟩, of_decide_eq_true hslot⟩

/-- In coherent tables an active row is of its draft's slot. -/
theorem slotId_of_mem_activeRows (hs : s.Coherent) {a : Activation} {d : Draft} (h : (a, d) ∈ activeRows s) :
    d.slotId = a.slotId := by
  obtain ⟨hmem, -, hd⟩ := mem_activeRows.mp h
  obtain ⟨d', hd', hslot⟩ := hs.activated a hmem
  rw [Option.some.inj (hd.symm.trans hd'), hslot]

/-- **A slot has one active row.** -/
theorem activeRow_unique (hs : s.Coherent) {a a' : Activation} {d d' : Draft} (h : (a, d) ∈ activeRows s)
    (h' : (a', d') ∈ activeRows s) (hslot : d'.slotId = d.slotId) : a' = a ∧ d' = d := by
  have hsame : a'.slotId = a.slotId := by
    rw [← slotId_of_mem_activeRows hs h, ← slotId_of_mem_activeRows hs h', hslot]
  obtain ⟨hmem, hactive, hd⟩ := mem_activeRows.mp h
  obtain ⟨hmem', hactive', hd'⟩ := mem_activeRows.mp h'
  have heq : a' = a := by
    by_contra hne
    have hsym : Std.Symm fun x y : Activation =>
        ¬ (x.active = true ∧ y.active = true ∧ x.slotId = y.slotId) :=
      ⟨fun x y hxy hyx => hxy ⟨hyx.2.1, hyx.1, hyx.2.2.symm⟩⟩
    exact List.Pairwise.forall hs.single hmem' hmem hne ⟨hactive', hactive, hsame⟩
  subst heq
  exact ⟨rfl, Option.some.inj (hd'.symm.trans hd)⟩

/-- **What the row of a method mutation is listed as.** -/
theorem overlayRow_method {a : Activation} {d : Draft} (hkind : d.declaredKind = .method)
    {listed : Option Overlay} (h : m.overlayRow s mountRevision admits a d = .ok listed) :
    (m.Mounted s d ∧ ∃ r : ResolvedSlot, listed = some (.object ⟨r.slot.bundle, d.slotId, a.version,
        mountRevision, (m.methodTable admits r.slot a.version ((s.collectChain d.slotId a.version).getD [])).map
          Prod.snd⟩)) ∨
      ¬ m.Mounted s d ∧ listed = none := by
  unfold overlayRow at h
  split at h
  · rename_i hrelease
    exact .inr ⟨fun hmounted => hrelease hmounted.1, (Except.ok.inj h).symm⟩
  · rename_i hrelease
    rw [if_neg (by rw [hkind]; decide)] at h
    obtain ⟨r, hr, h⟩ := except_bind_eq_ok.mp h
    dsimp only at h
    split at h
    · cases h
    · split at h
      · cases h
      · split at h
        · rename_i transport hbindings
          split at h
          · rename_i henabled
            exact .inl ⟨⟨not_not.mp hrelease, r, transport, hr, hbindings, henabled⟩, r,
              (Except.ok.inj h).symm⟩
          · rename_i henabled
            refine .inr ⟨?_, (Except.ok.inj h).symm⟩
            rintro ⟨-, r', transport', hr', hbindings', henabled'⟩
            obtain rfl := Except.ok.inj (hr.symm.trans hr')
            obtain ⟨rfl, -⟩ := List.cons.inj (hbindings.symm.trans hbindings')
            exact henabled henabled'
        · cases h

theorem overlayRow_slot {a : Activation} {d : Draft} {o : MountedObject}
    (h : m.overlayRow s mountRevision admits a d = .ok (some (.object o))) : o.slotId = d.slotId := by
  unfold overlayRow at h
  split at h
  · cases h
  · split at h
    · cases h
    · obtain ⟨r, hr, h⟩ := except_bind_eq_ok.mp h
      dsimp only at h
      split at h
      · cases h
      · split at h
        · split at h
          · cases h
          · split at h
            · split at h
              · rw [← Overlay.object.inj (Option.some.inj (Except.ok.inj h))]
              · cases h
            · cases h
        · split at h
          · rw [← Overlay.object.inj (Option.some.inj (Except.ok.inj h))]
          · cases h

end MutationManager

/-! ## 6.  The surface -/

theorem Store.activeMethodRow_eq_ok_iff {s : Store} {slotId : String} {a : Activation} {d d' : Draft}
    (hactive : s.activeDraft slotId = some (a, d)) (aliasName : String) :
    s.activeMethodRow slotId a.version aliasName = .ok d' ↔
      Layers.firstFound (Draft.provides aliasName) Draft.replacesAll
        ((s.collectChain slotId a.version).getD []) = some d' := by
  obtain ⟨chain, hchain⟩ := Option.isSome_iff_exists.mp (s.collectChain_isSome slotId a.version)
  have hseek := s.seekMethod_eq hchain aliasName
  unfold activeMethodRow
  rw [hactive, hchain, hseek, Option.getD_some]
  dsimp only
  rw [if_pos rfl]
  cases Layers.firstFound (Draft.provides aliasName) Draft.replacesAll chain with
  | none => exact ⟨nofun, nofun⟩
  | some d₁ =>
      exact ⟨fun h => congrArg some (Except.ok.inj h), fun h => congrArg Except.ok (Option.some.inj h)⟩

/-- The session methods listed for a slot whose active version is a method are those that
`_active_method_row` serves, with its draft's description and parameters, while the slot is `mounted`; and
no name is listed twice. -/
def Store.SurfaceExact (m : MutationManager) (mounted : Store → Draft → Prop) (s : Store)
    (mountRevision : Int) (admits : CatalogSlot → String → Bool) : Prop :=
  ∀ slotId a d overlays, s.activeDraft slotId = some (a, d) → d.declaredKind = .method →
    m.activeOverlays s mountRevision admits = .ok overlays →
      (∀ method, (∃ o, .object o ∈ overlays ∧ o.slotId = slotId ∧ .session method ∈ o.methods) ↔
        mounted s d ∧ ∃ d', s.activeMethodRow slotId a.version method.aliasName = .ok d' ∧
          method = m.sessionMethod a.version d') ∧
      ∀ o, .object o ∈ overlays → o.slotId = slotId → (o.methods.map ObjectMethod.aliasName).Nodup

/-- **The surface of coherent tables is exact.** -/
theorem Store.surfaceExact {m : MutationManager} {s : Store} (hs : s.Coherent) (mountRevision : Int)
    (admits : CatalogSlot → String → Bool) : s.SurfaceExact m m.Mounted mountRevision admits := by
  intro slotId a d overlays hactive hkind hlist
  obtain ⟨listed, hlisted, hlist⟩ := except_bind_eq_ok.mp hlist
  obtain rfl := Except.ok.inj hlist
  obtain ⟨hrow, hactiveSlot⟩ := MutationManager.activeDraft_eq_some hactive
  have hslot : d.slotId = slotId := (MutationManager.slotId_of_mem_activeRows hs hrow).trans hactiveSlot
  -- The objects of the slot come from its active row.
  have hobject : ∀ o, .object o ∈ listed.filterMap id → o.slotId = slotId →
      m.overlayRow s mountRevision admits a d = .ok (some (.object o)) := by
    intro o ho hoslot
    obtain ⟨out, hout, hsome⟩ := List.mem_filterMap.mp ho
    obtain rfl : out = some (.object o) := hsome
    obtain ⟨⟨a', d'⟩, hrow', hoverlay⟩ := (mem_mapM_ok hlisted).mp hout
    have hsame : d'.slotId = d.slotId := by
      rw [hslot, ← hoslot, MutationManager.overlayRow_slot hoverlay]
    obtain ⟨rfl, rfl⟩ := MutationManager.activeRow_unique hs hrow hrow' hsame
    exact hoverlay
  obtain ⟨out, hout⟩ := all_mapM_ok hlisted hrow
  have hcases := MutationManager.overlayRow_method hkind hout
  constructor
  · intro method
    rw [← hslot] at hactive
    constructor
    · rintro ⟨o, ho, hoslot, hmethod⟩
      obtain rfl := Except.ok.inj (hout.symm.trans (hobject o ho hoslot))
      rcases hcases with ⟨hmounted, r, hr⟩ | ⟨-, hnone⟩
      · obtain rfl := Overlay.object.inj (Option.some.inj hr)
        obtain ⟨d', hd', rfl⟩ := MutationManager.mem_methodTable_iff.mp hmethod
        exact ⟨hmounted, d', by rw [← hslot]; exact (s.activeMethodRow_eq_ok_iff hactive _).mpr hd', rfl⟩
      · cases hnone
    · rintro ⟨hmounted, d', hd', rfl⟩
      rcases hcases with ⟨-, r, rfl⟩ | ⟨hnot, -⟩
      · refine ⟨_, List.mem_filterMap.mpr ⟨_, (mem_mapM_ok hlisted).mpr ⟨(a, d), hrow, hout⟩, rfl⟩, hslot, ?_⟩
        refine MutationManager.mem_methodTable_iff.mpr ⟨d', ?_, rfl⟩
        rw [← hslot] at hd'
        exact (s.activeMethodRow_eq_ok_iff hactive _).mp hd'
      · exact absurd hmounted hnot
  · intro o ho hoslot
    obtain rfl := Except.ok.inj (hout.symm.trans (hobject o ho hoslot))
    rcases hcases with ⟨-, r, hr⟩ | ⟨-, hnone⟩
    · obtain rfl := Overlay.object.inj (Option.some.inj hr)
      exact MutationManager.nodup_methodTable
    · cases hnone

/-- **The advertised methods are the callable ones**, in every state of every run, while the object is
mounted; and the two walks end on all tables. -/
theorem sessionMethods_exact (m : MutationManager) (c : Chat) (moves : List (Move Request Event))
    (mountRevision : Int) (admits : CatalogSlot → String → Bool) :
    ((mutationMachine m c).exec ([], (mutationMachine m c).start) moves).2.store.SurfaceExact m m.Mounted
        mountRevision admits ∧
      ∀ (s : Store) (slotId : String) (version : Int) (aliasName : String),
        (s.collectChain slotId version).isSome ∧ (s.seekMethod slotId version aliasName).isSome := by
  refine ⟨Store.surfaceExact (coherent_of_run (Machine.Run.exec .start moves)) mountRevision admits, ?_⟩
  intro s slotId version aliasName
  have hwalk := s.collectChain_isSome slotId version
  obtain ⟨chain, hchain⟩ := Option.isSome_iff_exists.mp hwalk
  exact ⟨hwalk, by rw [s.seekMethod_eq hchain]; rfl⟩

/-! ## 7.  A disabled transport -/

/-- A catalog whose one object slot has one method. -/
def oneMethodSlot : CatalogSlot := ⟨1, "seed", "object", "o", [⟨"t", "", "p"⟩], ["p"]⟩

def oneMethodManager : MutationManager where
  loaded := ⟨"r", [⟨"c", [oneMethodSlot]⟩]⟩
  resolve := fun _ _ => .ok ⟨"c", 1, oneMethodSlot⟩
  casefold := id
  digest := fun _ => ""
  receiptDigest := fun _ => ""
  canonicalSize := fun _ => 0
  publicSchema := fun schema => .ok (schema, .obj [])
  wrappedHelperOrder := fun _ => []
  slotParameterOrder := fun _ _ _ => []
  parameterOrder := fun _ order => order
  sourceDependencies := fun _ _ => .ok []
  proxyContracts := fun _ _ _ => []
  putText := fun _ => ("", "")
  readText := fun _ => .ok ""
  normalizeArguments := fun _ arguments => .ok arguments
  checkSource := fun _ => none
  executionStatus := .null
  isIdentifier := fun _ => true
  keywords := []
  scanBefore := fun _ _ => true

def oneMethodChat : Chat where
  runtime := ⟨"active", "", "c", 0, 0, true, 0⟩
  host := ⟨true, ["t"]⟩
  mountHistory := .empty
  history_le := fun _ h => absurd h List.not_mem_nil

/-- The method is mutated; then the tool that carries the object is disabled. -/
def oneMethodMoves : List (Move Request Event) :=
  .start (.proposeActivate ⟨"d", "method", "s", "p", "p", .obj [], "x", [], "s", none⟩
    (fun _ _ => .ok ⟨.null, []⟩) 0) :: List.replicate 16 (.go 0) ++ [.outside (.setHost ⟨true, []⟩)]

def oneMethodStore : Store :=
  ((mutationMachine oneMethodManager oneMethodChat).exec
    ([], (mutationMachine oneMethodManager oneMethodChat).start) oneMethodMoves).2.store

theorem callable_not_listed :
    ¬ ∀ (m : MutationManager) (c : Chat) (moves : List (Move Request Event)) (mountRevision : Int)
      (admits : CatalogSlot → String → Bool),
      ((mutationMachine m c).exec ([], (mutationMachine m c).start) moves).2.store.SurfaceExact m
        (fun _ _ => True) mountRevision admits := by
  intro h
  have hexact := h oneMethodManager oneMethodChat oneMethodMoves 0 fun _ _ => true
  have hactive : ∃ a d, oneMethodStore.activeDraft "r/c/1" = some (a, d) ∧ d.declaredKind = .method ∧
      a.version = 1 := ⟨_, _, rfl, rfl, rfl⟩
  have hserved : ∃ d, oneMethodStore.activeMethodRow "r/c/1" 1 "p" = .ok d ∧ d.aliasName = "p" :=
    ⟨_, rfl, rfl⟩
  have hlisted : oneMethodManager.activeOverlays oneMethodStore 0 (fun _ _ => true) = .ok [] := rfl
  obtain ⟨a, d, hdraft, hkind, hversion⟩ := hactive
  obtain ⟨d', hrow, haliasName⟩ := hserved
  obtain ⟨o, ho, -⟩ := ((hexact "r/c/1" a d [] hdraft hkind hlisted).1
    (oneMethodManager.sessionMethod a.version d')).mpr ⟨trivial, d', by
      rw [hversion, show (oneMethodManager.sessionMethod 1 d').aliasName = "p" from haliasName]
      exact hrow, rfl⟩
  cases ho

end SessionCatalog
end VariantOne
