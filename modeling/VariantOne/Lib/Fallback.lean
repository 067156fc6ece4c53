import Mathlib.Data.List.Induction
import Mathlib.Data.List.Nodup

/-!
# Names with a fallback

A list of items is given names one after the other.  Every item has a preferred
name and a fallback, which it takes when an earlier item has the preferred one.
The fallback is not checked again, so the names need not be distinct.

`Repeats xs k` says, without running the assignment, that the preferred name of
the item `k` is taken, and `ClashFree xs` that no fallback that is used was a
name before.  `assign_nodup_iff`: the names are distinct exactly then.
-/

namespace VariantOne
namespace Fallback

variable {α : Type}

section Assign

variable [DecidableEq α]

/-- The names, in order; `taken` are the names given before. -/
def assign (taken : List α) : List (α × α) → List α
  | [] => []
  | (preferred, fallback) :: xs =>
      let name := if preferred ∈ taken then fallback else preferred
      name :: assign (name :: taken) xs

end Assign

/-- The preferred name of the item `k` is the preferred name of an earlier item, or
the fallback of an earlier item that uses it. -/
inductive Repeats (xs : List (α × α)) : Nat → Prop
  | preferred {j k : Nat} {p f f' : α} :
      j < k → xs[j]? = some (p, f) → xs[k]? = some (p, f') → Repeats xs k
  | fallback {j k : Nat} {p f f' : α} :
      Repeats xs j → j < k → xs[j]? = some (p, f) → xs[k]? = some (f, f') → Repeats xs k

/-- No fallback that is used is the preferred name, or the used fallback, of an
earlier item. -/
def ClashFree (xs : List (α × α)) : Prop :=
  ∀ (j k : Nat) (p f p' f' : α), j < k → xs[j]? = some (p, f) → xs[k]? = some (p', f') →
    Repeats xs k → f' ≠ p ∧ (Repeats xs j → f' ≠ f)

/-! ## One more item -/

theorem getElem?_snoc_of_lt {xs : List (α × α)} (x : α × α) {k : Nat} (h : k < xs.length) :
    (xs ++ [x])[k]? = xs[k]? :=
  List.getElem?_append_left h

theorem lt_length_of_getElem? {xs : List (α × α)} {x : α × α} {k : Nat} (h : xs[k]? = some x) :
    k < xs.length :=
  (List.getElem?_eq_some_iff.mp h).1

/-- Whether an item repeats depends on what comes before it. -/
theorem repeats_snoc {xs : List (α × α)} {x : α × α} {k : Nat} (hk : k < xs.length) :
    Repeats (xs ++ [x]) k ↔ Repeats xs k := by
  constructor
  · intro h
    induction h with
    | preferred hjk hj hk' =>
        rw [getElem?_snoc_of_lt x hk] at hk'
        rw [getElem?_snoc_of_lt x (Nat.lt_trans hjk hk)] at hj
        exact .preferred hjk hj hk'
    | fallback _ hjk hj hk' ih =>
        rw [getElem?_snoc_of_lt x hk] at hk'
        rw [getElem?_snoc_of_lt x (Nat.lt_trans hjk hk)] at hj
        exact .fallback (ih (Nat.lt_trans hjk hk)) hjk hj hk'
  · intro h
    induction h with
    | preferred hjk hj hk' =>
        rw [← getElem?_snoc_of_lt x hk] at hk'
        rw [← getElem?_snoc_of_lt x (Nat.lt_trans hjk hk)] at hj
        exact .preferred hjk hj hk'
    | fallback _ hjk hj hk' ih =>
        rw [← getElem?_snoc_of_lt x hk] at hk'
        rw [← getElem?_snoc_of_lt x (Nat.lt_trans hjk hk)] at hj
        exact .fallback (ih (Nat.lt_trans hjk hk)) hjk hj hk'

/-- Whether the last item repeats. -/
theorem repeats_length {xs : List (α × α)} {p f : α} :
    Repeats (xs ++ [(p, f)]) xs.length ↔
      ∃ (k : Nat) (q g : α), xs[k]? = some (q, g) ∧ (p = q ∨ (Repeats xs k ∧ p = g)) := by
  constructor
  · intro h
    cases h with
    | preferred hjk hj hk =>
        rw [List.getElem?_concat_length] at hk
        obtain ⟨rfl, rfl⟩ := Prod.mk.inj (Option.some.inj hk)
        rw [getElem?_snoc_of_lt _ hjk] at hj
        exact ⟨_, _, _, hj, Or.inl rfl⟩
    | fallback hrep hjk hj hk =>
        rw [List.getElem?_concat_length] at hk
        obtain ⟨rfl, rfl⟩ := Prod.mk.inj (Option.some.inj hk)
        rw [getElem?_snoc_of_lt _ hjk] at hj
        exact ⟨_, _, _, hj, Or.inr ⟨(repeats_snoc hjk).mp hrep, rfl⟩⟩
  · rintro ⟨k, q, g, hk, h⟩
    have hkl := lt_length_of_getElem? hk
    have hk' := (getElem?_snoc_of_lt (p, f) hkl).trans hk
    rcases h with rfl | ⟨hrep, rfl⟩
    · exact .preferred hkl hk' List.getElem?_concat_length
    · exact .fallback ((repeats_snoc hkl).mpr hrep) hkl hk' List.getElem?_concat_length

theorem clashFree_snoc {xs : List (α × α)} {p' f' : α} :
    ClashFree (xs ++ [(p', f')]) ↔ ClashFree xs ∧
      (Repeats (xs ++ [(p', f')]) xs.length → ∀ (j : Nat) (p f : α), xs[j]? = some (p, f) →
        f' ≠ p ∧ (Repeats xs j → f' ≠ f)) := by
  constructor
  · intro h
    constructor
    · intro j k p f q g hjk hj hk hrep
      have hkl := lt_length_of_getElem? hk
      have hjl := lt_length_of_getElem? hj
      obtain ⟨h₁, h₂⟩ := h j k p f q g hjk ((getElem?_snoc_of_lt _ hjl).trans hj)
        ((getElem?_snoc_of_lt _ hkl).trans hk) ((repeats_snoc hkl).mpr hrep)
      exact ⟨h₁, fun hr => h₂ ((repeats_snoc hjl).mpr hr)⟩
    · intro hrep j p f hj
      have hjl := lt_length_of_getElem? hj
      obtain ⟨h₁, h₂⟩ := h j xs.length p f p' f' hjl ((getElem?_snoc_of_lt _ hjl).trans hj)
        List.getElem?_concat_length hrep
      exact ⟨h₁, fun hr => h₂ ((repeats_snoc hjl).mpr hr)⟩
  · rintro ⟨hfree, hlast⟩ j k p f q g hjk hj hk hrep
    have hkl : k < (xs ++ [(p', f')]).length := lt_length_of_getElem? hk
    rw [List.length_append, List.length_singleton] at hkl
    have hjl : j < xs.length := by omega
    rw [getElem?_snoc_of_lt _ hjl] at hj
    rw [repeats_snoc hjl]
    rcases Nat.lt_succ_iff_lt_or_eq.mp hkl with hkl | rfl
    · rw [getElem?_snoc_of_lt _ hkl] at hk
      exact hfree j k p f q g hjk hj hk ((repeats_snoc hkl).mp hrep)
    · rw [List.getElem?_concat_length] at hk
      obtain ⟨rfl, rfl⟩ := Prod.mk.inj (Option.some.inj hk)
      exact hlast hrep j p f hj

/-! ## The names -/

section Names

variable [DecidableEq α]

theorem assign_append (taken : List α) (xs ys : List (α × α)) :
    assign taken (xs ++ ys) =
      assign taken xs ++ assign ((assign taken xs).reverse ++ taken) ys := by
  induction xs generalizing taken with
  | nil => rfl
  | cons x xs ih =>
      rw [List.cons_append, assign, assign, List.cons_append, ih]
      simp

theorem assign_snoc (xs : List (α × α)) (p f : α) :
    assign [] (xs ++ [(p, f)]) =
      assign [] xs ++ [if p ∈ assign [] xs then f else p] := by
  rw [assign_append]
  simp [assign]

theorem length_assign (taken : List α) (xs : List (α × α)) :
    (assign taken xs).length = xs.length := by
  induction xs generalizing taken with
  | nil => rfl
  | cons x xs ih => rw [assign, List.length_cons, ih, List.length_cons]

/-- **What is a name.**  The names given are the preferred names and the fallbacks
of the items that repeat. -/
theorem mem_assign_iff {xs : List (α × α)} {n : α} :
    n ∈ assign [] xs ↔
      ∃ (k : Nat) (p f : α), xs[k]? = some (p, f) ∧ (n = p ∨ (Repeats xs k ∧ n = f)) := by
  induction xs using List.reverseRecOn generalizing n with
  | nil => simp [assign]
  | append_singleton xs x ih =>
      obtain ⟨q, g⟩ := x
      have hold : (∃ (k : Nat) (p f : α), xs[k]? = some (p, f) ∧
          (n = p ∨ (Repeats xs k ∧ n = f))) →
          ∃ (k : Nat) (p f : α), (xs ++ [(q, g)])[k]? = some (p, f) ∧
            (n = p ∨ (Repeats (xs ++ [(q, g)]) k ∧ n = f)) := by
        rintro ⟨k, p, f, hk, h⟩
        have hkl := lt_length_of_getElem? hk
        exact ⟨k, p, f, (getElem?_snoc_of_lt _ hkl).trans hk,
          h.imp_right fun h => ⟨(repeats_snoc hkl).mpr h.1, h.2⟩⟩
      have hlast : Repeats (xs ++ [(q, g)]) xs.length ↔ q ∈ assign [] xs :=
        repeats_length.trans ih.symm
      rw [assign_snoc, List.mem_append, List.mem_singleton]
      constructor
      · rintro (h | h)
        · exact hold (ih.mp h)
        · refine ⟨xs.length, q, g, List.getElem?_concat_length, ?_⟩
          by_cases hq : q ∈ assign [] xs
          · rw [if_pos hq] at h
            exact Or.inr ⟨hlast.mpr hq, h⟩
          · rw [if_neg hq] at h
            exact Or.inl h
      · rintro ⟨k, p, f, hk, h⟩
        have hkl : k < (xs ++ [(q, g)]).length := lt_length_of_getElem? hk
        rw [List.length_append, List.length_singleton] at hkl
        rcases Nat.lt_succ_iff_lt_or_eq.mp hkl with hkl | rfl
        · rw [getElem?_snoc_of_lt _ hkl] at hk
          exact Or.inl (ih.mpr ⟨k, p, f, hk, h.imp_right fun h =>
            ⟨(repeats_snoc hkl).mp h.1, h.2⟩⟩)
        · rw [List.getElem?_concat_length] at hk
          obtain ⟨rfl, rfl⟩ := Prod.mk.inj (Option.some.inj hk)
          by_cases hq : q ∈ assign [] xs
          · rcases h with rfl | ⟨-, rfl⟩
            · exact Or.inl hq
            · exact Or.inr (by rw [if_pos hq])
          · rcases h with rfl | ⟨hrep, -⟩
            · exact Or.inr (by rw [if_neg hq])
            · exact absurd (hlast.mp hrep) hq

theorem repeats_length_iff {xs : List (α × α)} {p f : α} :
    Repeats (xs ++ [(p, f)]) xs.length ↔ p ∈ assign [] xs :=
  repeats_length.trans mem_assign_iff.symm

/-- **The names are distinct exactly when no used fallback clashes.** -/
theorem assign_nodup_iff {xs : List (α × α)} : (assign [] xs).Nodup ↔ ClashFree xs := by
  induction xs using List.reverseRecOn with
  | nil => simp [assign, ClashFree]
  | append_singleton xs x ih =>
      obtain ⟨p, f⟩ := x
      rw [assign_snoc, clashFree_snoc, ← ih, List.nodup_append_comm, List.singleton_append,
        List.nodup_cons, and_comm, repeats_length_iff]
      refine and_congr_right fun _ => ?_
      by_cases hp : p ∈ assign [] xs
      · rw [if_pos hp, mem_assign_iff]
        constructor
        · intro h _ j q g hj
          refine ⟨?_, ?_⟩
          · rintro rfl
            exact h ⟨j, _, g, hj, Or.inl rfl⟩
          · rintro hrep rfl
            exact h ⟨j, q, _, hj, Or.inr ⟨hrep, rfl⟩⟩
        · rintro h ⟨j, q, g, hj, hn⟩
          obtain ⟨h₁, h₂⟩ := h hp j q g hj
          rcases hn with hn | ⟨hrep, hn⟩
          · exact h₁ hn
          · exact h₂ hrep hn
      · rw [if_neg hp]
        exact ⟨fun _ h => absurd h hp, fun _ => hp⟩

end Names

end Fallback
end VariantOne
