import Mathlib.Data.List.Sort
import Mathlib.Data.List.Nodup
import Mathlib.Data.Prod.Basic

/-!
# Dictionaries as association lists

A dictionary keeps its entries in insertion order and has each key once.  It is
modelled as the list of its entries; "each key once" is `Dict.WF`, and two
dictionaries are the same when one is a permutation of the other.  `Dict.sort`
picks the representative with increasing keys, so on well-formed dictionaries
equality up to order is equality of the sorted lists (`WF.sort_eq_of_perm`,
`perm_of_sort_eq`).

What an operation does is told by lookups: `get?_set_self`, `get?_append`,
`get?_merge_of_none` and `get?_restrict` say what a key holds afterwards, and a
lookup in a well-formed dictionary does not see the order of its entries
(`WF.get?_perm`).
-/

namespace VariantOne

namespace Dict

variable {κ α β : Type*}

/-- The keys, in insertion order. -/
def keys (d : List (κ × α)) : List κ := d.map Prod.fst

/-- Every key occurs once. -/
def WF (d : List (κ × α)) : Prop := (keys d).Nodup

@[simp] theorem keys_nil : keys ([] : List (κ × α)) = [] := rfl

@[simp] theorem keys_cons (p : κ × α) (d : List (κ × α)) : keys (p :: d) = p.1 :: keys d := rfl

@[simp] theorem keys_append (d e : List (κ × α)) : keys (d ++ e) = keys d ++ keys e := by
  simp [keys]

theorem mem_keys {d : List (κ × α)} {k : κ} : k ∈ keys d ↔ ∃ v, (k, v) ∈ d := by
  simp [keys]

theorem mem_keys_of_mem {d : List (κ × α)} {p : κ × α} (h : p ∈ d) : p.1 ∈ keys d :=
  List.mem_map_of_mem h

instance [DecidableEq κ] (d : List (κ × α)) : Decidable (WF d) :=
  inferInstanceAs (Decidable (keys d).Nodup)

theorem WF.tail {p : κ × α} {d : List (κ × α)} (h : WF (p :: d)) : WF d :=
  (List.nodup_cons.mp h).2

theorem WF.head_notMem {p : κ × α} {d : List (κ × α)} (h : WF (p :: d)) : p.1 ∉ keys d :=
  (List.nodup_cons.mp h).1

theorem WF.nodup {d : List (κ × α)} (h : WF d) : d.Nodup := List.Nodup.of_map _ h

theorem keys_perm {d e : List (κ × α)} (h : d.Perm e) : (keys d).Perm (keys e) := h.map _

theorem WF.perm {d e : List (κ × α)} (hd : WF d) (h : d.Perm e) : WF e :=
  (keys_perm h).nodup_iff.mp hd

theorem WF.sublist {d e : List (κ × α)} (he : WF e) (h : d.Sublist e) : WF d :=
  List.Nodup.sublist (h.map _) he

/-- In a well-formed dictionary an entry is determined by its key. -/
theorem WF.eq_of_mem {d : List (κ × α)} (hd : WF d) {k : κ} {v w : α} (hv : (k, v) ∈ d)
    (hw : (k, w) ∈ d) : v = w := by
  induction d with
  | nil => exact absurd hv (by simp)
  | cons p d ih =>
      have hnot := hd.head_notMem
      rcases List.mem_cons.mp hv with hpv | hdv
      · rcases List.mem_cons.mp hw with hpw | hdw
        · exact (Prod.mk.inj (hpv.trans hpw.symm)).2
        · subst hpv
          exact absurd (mem_keys_of_mem hdw) hnot
      · rcases List.mem_cons.mp hw with hpw | hdw
        · subst hpw
          exact absurd (mem_keys_of_mem hdv) hnot
        · exact ih hd.tail hdv hdw

/-! ## Lookup, insertion, removal -/

section Lookup

variable [DecidableEq κ]

/-- `d.get(k)`. -/
def get? (d : List (κ × α)) (k : κ) : Option α :=
  match d with
  | [] => none
  | (k', v) :: d => if k' = k then some v else get? d k

/-- `d[k] = v`: replace in place, or append. -/
def set (d : List (κ × α)) (k : κ) (v : α) : List (κ × α) :=
  match d with
  | [] => [(k, v)]
  | (k', w) :: d => if k' = k then (k', v) :: d else (k', w) :: set d k v

/-- `{**d, **e}`. -/
def merge (d e : List (κ × α)) : List (κ × α) := e.foldl (fun acc p => set acc p.1 p.2) d

@[simp] theorem get?_nil (k : κ) : get? ([] : List (κ × α)) k = none := rfl

theorem get?_cons (p : κ × α) (d : List (κ × α)) (k : κ) :
    get? (p :: d) k = if p.1 = k then some p.2 else get? d k := rfl

theorem mem_of_get? {d : List (κ × α)} {k : κ} {v : α} (h : get? d k = some v) : (k, v) ∈ d := by
  induction d with
  | nil => exact absurd h (by simp)
  | cons p d ih =>
      rw [get?_cons] at h
      split at h
      · rename_i hk
        have hv : p.2 = v := Option.some.inj h
        exact List.mem_cons.mpr (Or.inl (Prod.ext hk.symm hv.symm))
      · exact List.mem_cons_of_mem _ (ih h)

theorem get?_eq_none_iff {d : List (κ × α)} {k : κ} : get? d k = none ↔ k ∉ keys d := by
  induction d with
  | nil => simp
  | cons p d ih =>
      rw [get?_cons]
      by_cases hk : p.1 = k
      · simp [hk]
      · simp [hk, ih, Ne.symm hk]

/-- Lookup in a well-formed dictionary is membership. -/
theorem WF.get?_eq_some_iff {d : List (κ × α)} (hd : WF d) {k : κ} {v : α} :
    get? d k = some v ↔ (k, v) ∈ d := by
  refine ⟨mem_of_get?, fun h => ?_⟩
  cases hg : get? d k with
  | none => exact absurd (mem_keys.mpr ⟨v, h⟩) (get?_eq_none_iff.mp hg)
  | some w => rw [hd.eq_of_mem (mem_of_get? hg) h]

theorem WF.get?_perm {d e : List (κ × α)} (hd : WF d) (h : d.Perm e) (k : κ) :
    get? d k = get? e k := by
  cases hg : get? e k with
  | none =>
      rw [get?_eq_none_iff] at hg ⊢
      exact fun hk => hg ((keys_perm h).mem_iff.mp hk)
  | some v =>
      rw [hd.get?_eq_some_iff]
      exact h.mem_iff.mpr (mem_of_get? hg)

theorem set_of_notMem {d : List (κ × α)} {k : κ} {v : α} (h : k ∉ keys d) :
    set d k v = d ++ [(k, v)] := by
  induction d with
  | nil => rfl
  | cons p d ih =>
      rw [keys_cons, List.mem_cons, not_or] at h
      rw [set, if_neg (Ne.symm h.1), ih h.2, List.cons_append]

theorem keys_set_of_mem {d : List (κ × α)} {k : κ} {v : α} (h : k ∈ keys d) :
    keys (set d k v) = keys d := by
  induction d with
  | nil => exact absurd h (by simp)
  | cons p d ih =>
      rw [set]
      by_cases hk : p.1 = k
      · rw [if_pos hk]
        rfl
      · rw [if_neg hk, keys_cons, keys_cons]
        rw [keys_cons, List.mem_cons] at h
        rw [ih (h.resolve_left (Ne.symm hk))]

theorem WF.set {d : List (κ × α)} (hd : WF d) (k : κ) (v : α) : WF (set d k v) := by
  by_cases hk : k ∈ keys d
  · unfold WF
    rw [keys_set_of_mem hk]
    exact hd
  · unfold WF
    rw [set_of_notMem hk, keys_append]
    exact List.Nodup.append hd (by simp) (by simpa using hk)

theorem get?_set_of_ne {d : List (κ × α)} {k k' : κ} (h : k' ≠ k) (v : α) :
    get? (Dict.set d k' v) k = get? d k := by
  induction d with
  | nil => rw [set, get?_cons, if_neg h]
  | cons p d ih =>
      rw [set]
      by_cases hp : p.1 = k'
      · rw [if_pos hp, get?_cons, get?_cons, if_neg (hp ▸ h), if_neg (hp ▸ h)]
      · rw [if_neg hp, get?_cons, get?_cons, ih]

theorem get?_set_self (d : List (κ × α)) (k : κ) (v : α) : get? (Dict.set d k v) k = some v := by
  induction d with
  | nil => rw [set, get?_cons, if_pos rfl]
  | cons p d ih =>
      rw [set]
      by_cases hp : p.1 = k
      · rw [if_pos hp, get?_cons, if_pos hp]
      · rw [if_neg hp, get?_cons, if_neg hp, ih]

theorem get?_append (d e : List (κ × α)) (k : κ) : get? (d ++ e) k = (get? d k).or (get? e k) := by
  induction d with
  | nil => rfl
  | cons p d ih =>
      rw [List.cons_append, get?_cons, get?_cons]
      by_cases hp : p.1 = k
      · rw [if_pos hp, if_pos hp, Option.some_or]
      · rw [if_neg hp, if_neg hp, ih]

theorem WF.merge {d : List (κ × α)} (hd : WF d) (e : List (κ × α)) : WF (merge d e) := by
  induction e generalizing d with
  | nil => exact hd
  | cons p e ih => exact ih (hd.set p.1 p.2)

@[simp] theorem merge_nil (d : List (κ × α)) : merge d [] = d := rfl

theorem merge_cons (d e : List (κ × α)) (p : κ × α) :
    merge d (p :: e) = merge (set d p.1 p.2) e := rfl

/-- A key the second dictionary does not have is looked up in the first. -/
theorem get?_merge_of_none {d e : List (κ × α)} {k : κ} (h : get? e k = none) :
    get? (Dict.merge d e) k = get? d k := by
  induction e generalizing d with
  | nil => rfl
  | cons p e ih =>
      rw [get?_cons] at h
      by_cases hp : p.1 = k
      · rw [if_pos hp] at h
        exact absurd h (by simp)
      · rw [if_neg hp] at h
        rw [merge_cons, ih h, get?_set_of_ne hp]

/-- Merging dictionaries with no key in common appends. -/
theorem merge_of_disjoint {d e : List (κ × α)} (he : WF e) (h : ∀ k ∈ keys e, k ∉ keys d) :
    merge d e = d ++ e := by
  induction e generalizing d with
  | nil => simp
  | cons p e ih =>
      have hp : p.1 ∉ keys d := h p.1 (by simp)
      rw [merge_cons, set_of_notMem hp, ih he.tail]
      · simp
      · intro k hk hmem
        rw [keys_append, List.mem_append] at hmem
        rcases hmem with hmem | hmem
        · exact h k (by simp [hk]) hmem
        · have hkp : k = p.1 := by simpa using hmem
          exact he.head_notMem (hkp ▸ hk)

end Lookup

/-! ## Part of a dictionary -/

/-- The entries whose key satisfies a predicate. -/
def restrict (p : κ → Bool) (d : List (κ × α)) : List (κ × α) := d.filter fun e => p e.1

theorem WF.restrict {d : List (κ × α)} (hd : WF d) (p : κ → Bool) : WF (restrict p d) :=
  hd.sublist List.filter_sublist

theorem mem_restrict {d : List (κ × α)} {p : κ → Bool} {e : κ × α} :
    e ∈ restrict p d ↔ e ∈ d ∧ p e.1 = true := by
  simp [restrict]

theorem mem_keys_restrict {d : List (κ × α)} {p : κ → Bool} {k : κ} :
    k ∈ keys (restrict p d) ↔ k ∈ keys d ∧ p k = true := by
  constructor
  · intro h
    obtain ⟨v, hv⟩ := mem_keys.mp h
    obtain ⟨hd, hp⟩ := mem_restrict.mp hv
    exact ⟨mem_keys_of_mem hd, hp⟩
  · rintro ⟨h, hp⟩
    obtain ⟨v, hv⟩ := mem_keys.mp h
    exact mem_keys.mpr ⟨v, mem_restrict.mpr ⟨hv, hp⟩⟩

theorem get?_restrict [DecidableEq κ] (p : κ → Bool) (d : List (κ × α)) (k : κ) :
    get? (restrict p d) k = if p k then get? d k else none := by
  unfold restrict
  induction d with
  | nil => simp
  | cons e d ih =>
      rw [get?_cons, List.filter_cons]
      by_cases he : e.1 = k
      · by_cases hp : p k
        · rw [if_pos (he ▸ hp), get?_cons, if_pos he, if_pos he, if_pos hp]
        · rw [if_neg (he ▸ hp), ih, if_neg hp, if_neg hp]
      · rw [if_neg he]
        by_cases hp : p e.1
        · rw [if_pos hp, get?_cons, if_neg he, ih]
        · rw [if_neg hp, ih]

/-- Setting a key that is left out changes nothing. -/
theorem restrict_set [DecidableEq κ] {p : κ → Bool} {k : κ} (hk : p k = false)
    (d : List (κ × α)) (v : α) : restrict p (set d k v) = restrict p d := by
  unfold restrict
  induction d with
  | nil => simp [set, hk]
  | cons e d ih =>
      rw [set]
      by_cases he : e.1 = k
      · rw [if_pos he, List.filter_cons, List.filter_cons]
        simp [he, hk]
      · rw [if_neg he, List.filter_cons, List.filter_cons, ih]

/-! ## The sorted representative -/

section Sorted

variable [LinearOrder κ]

/-- The entries by increasing key. -/
def sort (d : List (κ × α)) : List (κ × α) := d.insertionSort fun a b => a.1 ≤ b.1

instance totalFst : Std.Total (fun a b : κ × α => a.1 ≤ b.1) := ⟨fun a b => le_total a.1 b.1⟩

instance transFst : IsTrans (κ × α) (fun a b : κ × α => a.1 ≤ b.1) := ⟨fun _ _ _ => le_trans⟩

theorem sort_perm (d : List (κ × α)) : (sort d).Perm d := List.perm_insertionSort _ d

theorem WF.sort {d : List (κ × α)} (hd : WF d) : WF (sort d) := hd.perm (sort_perm d).symm

theorem sort_pairwise (d : List (κ × α)) : (sort d).Pairwise fun a b => a.1 ≤ b.1 :=
  List.pairwise_insertionSort _ d

/-- **Equality up to order is equality of the sorted representatives.** -/
theorem WF.sort_eq_of_perm {d e : List (κ × α)} (hd : WF d) (h : d.Perm e) :
    Dict.sort d = Dict.sort e := by
  refine List.Perm.eq_of_pairwise ?_ (sort_pairwise d) (sort_pairwise e)
    ((sort_perm d).trans (h.trans (sort_perm e).symm))
  intro a b ha hb hab hba
  have ha' : a ∈ d := (sort_perm d).mem_iff.mp ha
  have hb' : b ∈ d := h.mem_iff.mpr ((sort_perm e).mem_iff.mp hb)
  have hk : a.1 = b.1 := le_antisymm hab hba
  obtain ⟨k, v⟩ := a
  obtain ⟨k', w⟩ := b
  obtain rfl : k = k' := hk
  rw [hd.eq_of_mem ha' hb']

theorem perm_of_sort_eq {d e : List (κ × α)} (h : sort d = sort e) : d.Perm e :=
  (sort_perm d).symm.trans (h ▸ sort_perm e)

theorem sort_sort (d : List (κ × α)) : sort (sort d) = sort d :=
  (sort_pairwise d).insertionSort_eq

/-- Sorting commutes with a map that keeps the keys. -/
theorem sort_map (f : κ → α → β) (d : List (κ × α)) :
    sort (d.map fun p => (p.1, f p.1 p.2)) = (sort d).map fun p => (p.1, f p.1 p.2) :=
  (List.map_insertionSort (r := fun a b : κ × α => a.1 ≤ b.1)
    (s := fun a b : κ × β => a.1 ≤ b.1) (fun p => (p.1, f p.1 p.2)) d
    fun _ _ _ _ => Iff.rfl).symm

end Sorted

end Dict
end VariantOne
