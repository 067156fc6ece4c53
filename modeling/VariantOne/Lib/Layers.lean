import Mathlib.Data.List.Nodup
import VariantOne.Lib.Dict

/-!
# Layers over a table

A row refers to the row before it.  `trace` follows the references from a row back and takes each row once,
so it ends however the references lead: `trace_isSome`.

Laid over a table oldest first, each row sets one key, and some clear the table before: `replay`.  What a
key then holds is the newest row that sets it, looked for no further than the newest that clears:
`get?_replay`.  `seek` is that search made on the references, and `seek_eq` says it finds the same row.
-/

namespace VariantOne
namespace Layers

variable {ι α β κ : Type}

/-! ## References -/

section References

variable [DecidableEq ι] (row : ι → Option (α × ι))

/-- The rows from a reference back, newest first, each reference once; `none` when the fuel runs out. -/
def trace : Nat → List ι → ι → Option (List α)
  | 0, _, _ => none
  | n + 1, seen, i =>
      if i ∈ seen then some []
      else
        match row i with
        | none => some []
        | some (a, j) => (trace n (i :: seen) j).map (a :: ·)

/-- The first row back that is `found`, looked for no further than one that `bars`. -/
def seek (found bars : α → Bool) : Nat → List ι → ι → Option (Option α)
  | 0, _, _ => none
  | n + 1, seen, i =>
      if i ∈ seen then some none
      else
        match row i with
        | none => some none
        | some (a, j) =>
            if found a then some (some a)
            else if bars a then some none
            else seek found bars n (i :: seen) j

variable {row}

/-- **A trace ends** when there is fuel for every reference that has not been seen. -/
theorem trace_isSome {refs : List ι} (hrefs : ∀ i, (row i).isSome → i ∈ refs) {n : Nat} {seen : List ι}
    {i : ι} (hn : (refs.filter (· ∉ seen)).length < n) : (trace row n seen i).isSome := by
  induction n generalizing seen i with
  | zero => omega
  | succ n ih =>
      unfold trace
      split
      · rfl
      · rename_i hseen
        split
        · rfl
        · rename_i a j hrow
          rw [Option.isSome_map]
          refine ih ?_
          have hi : i ∈ refs.filter (· ∉ seen) :=
            List.mem_filter.mpr ⟨hrefs i (by rw [hrow]; rfl), by simpa using hseen⟩
          have hsub : (refs.filter (· ∉ i :: seen)).length < (refs.filter (· ∉ seen)).length := by
            have hsplit : refs.filter (· ∉ i :: seen) = (refs.filter (· ∉ seen)).filter (· ≠ i) := by
              rw [List.filter_filter]
              refine List.filter_congr fun y _ => ?_
              rw [← Bool.decide_and, decide_eq_decide, List.mem_cons, not_or]
            rw [hsplit]
            refine List.length_filter_lt_length_iff_exists.mpr ⟨i, hi, by simp⟩
          omega

/-- The first of some rows that is `found`, looked for no further than one that `bars`. -/
def firstFound (found bars : α → Bool) : List α → Option α
  | [] => none
  | a :: older => if found a then some a else if bars a then none else firstFound found bars older

theorem firstFound_eq_some {found bars : α → Bool} {chain : List α} {a : α}
    (h : firstFound found bars chain = some a) : found a = true := by
  induction chain with
  | nil => cases h
  | cons b older ih =>
      rw [firstFound] at h
      split at h
      · rename_i hb
        exact Option.some.inj h ▸ hb
      · split at h
        · cases h
        · exact ih h

/-- **The search finds what is in the trace.** -/
theorem seek_eq {found bars : α → Bool} {n : Nat} {seen : List ι} {i : ι} {chain : List α}
    (h : trace row n seen i = some chain) :
    seek row found bars n seen i = some (firstFound found bars chain) := by
  induction n generalizing seen i chain with
  | zero => cases h
  | succ n ih =>
      unfold trace at h
      unfold seek
      split at h
      · rename_i hseen
        rw [if_pos hseen, ← Option.some.inj h]
        rfl
      · rename_i hseen
        rw [if_neg hseen]
        cases hrow : row i with
        | none =>
            rw [hrow] at h
            rw [← Option.some.inj h]
            rfl
        | some p =>
            obtain ⟨a, j⟩ := p
            rw [hrow] at h
            obtain ⟨older, holder, rfl⟩ := Option.map_eq_some_iff.mp h
            dsimp only
            rw [firstFound, ih holder]
            split
            · rfl
            · split <;> rfl

/-- The search that does not mark what it has seen, made on so many rows. -/
def seekOn (row : ι → Option (α × ι)) (found bars : α → Bool) : Nat → ι → Option α
  | 0, _ => none
  | n + 1, i =>
      match row i with
      | none => none
      | some (a, j) => if found a then some a else if bars a then none else seekOn row found bars n j

omit [DecidableEq ι] in
/-- References that lead to each other and no further are searched in vain. -/
theorem seekOn_eq_none {found bars : α → Bool} {refs : List ι}
    (hrefs : ∀ i ∈ refs, ∃ a j, row i = some (a, j) ∧ found a = false ∧ bars a = false ∧ j ∈ refs)
    (n : Nat) {i : ι} (hi : i ∈ refs) : seekOn row found bars n i = none := by
  induction n generalizing i with
  | zero => rfl
  | succ n ih =>
      obtain ⟨a, j, hrow, hfound, hbars, hj⟩ := hrefs i hi
      rw [seekOn, hrow]
      simp [hfound, hbars, ih hj]

/-- **Marking changes nothing**: a reference seen before leads back to itself. -/
theorem seekOn_eq_of_seek {found bars : α → Bool} {n : Nat} {seen : List ι} {i : ι} {r : Option α}
    (hseen : ∀ i' ∈ seen, ∃ a j, row i' = some (a, j) ∧ found a = false ∧ bars a = false ∧
      (j ∈ seen ∨ j = i))
    (h : seek row found bars n seen i = some r) : seekOn row found bars n i = r := by
  induction n generalizing seen i with
  | zero => cases h
  | succ n ih =>
      unfold seek at h
      split at h
      · rename_i hi
        obtain rfl := Option.some.inj h
        refine seekOn_eq_none (fun i' (hi' : i' ∈ seen) => ?_) _ hi
        obtain ⟨a, j, hrow, hfound, hbars, hj⟩ := hseen i' hi'
        exact ⟨a, j, hrow, hfound, hbars, hj.elim id fun heq => heq ▸ hi⟩
      · unfold seekOn
        cases hrow : row i with
        | none =>
            rw [hrow] at h
            exact Option.some.inj h
        | some p =>
            obtain ⟨a, j⟩ := p
            rw [hrow] at h
            dsimp only at h ⊢
            by_cases hfound : found a = true
            · rw [if_pos hfound] at h ⊢
              exact Option.some.inj h
            · by_cases hbars : bars a = true
              · rw [if_neg hfound, if_pos hbars] at h ⊢
                exact Option.some.inj h
              · rw [if_neg hfound, if_neg hbars] at h ⊢
                refine ih (fun i' hi' => ?_) h
                rcases List.mem_cons.mp hi' with rfl | hi'
                · exact ⟨a, j, hrow, by simpa using hfound, by simpa using hbars, .inr rfl⟩
                · obtain ⟨a', j', hrow', hfound', hbars', hj'⟩ := hseen i' hi'
                  refine ⟨a', j', hrow', hfound', hbars', .inl ?_⟩
                  rcases hj' with hj' | rfl
                  · exact List.mem_cons_of_mem _ hj'
                  · exact List.mem_cons_self

end References

/-! ## Layers -/

section Replay

variable [DecidableEq κ] (live bars : α → Bool) (key : α → κ) (entry : α → β)

/-- Rows laid over a table oldest first, given newest first: a live row sets its key, and one that bars
clears the table before. -/
def replay (base : List (κ × β)) : List α → List (κ × β)
  | [] => base
  | a :: older =>
      let table := replay base older
      if live a then Dict.set (if bars a then [] else table) (key a) (entry a) else table

variable {live bars key entry}

/-- **What a key holds.** -/
theorem get?_replay (hbars : ∀ a, bars a = true → live a = true) (base : List (κ × β)) (rows : List α)
    (k : κ) :
    Dict.get? (replay live bars key entry base rows) k =
      match firstFound (fun a => live a && decide (key a = k)) bars rows with
      | some a => some (entry a)
      | none => if rows.any bars then none else Dict.get? base k := by
  induction rows with
  | nil => rfl
  | cons a older ih =>
      rw [replay, firstFound, List.any_cons]
      by_cases hlive : live a = true
      · rw [if_pos hlive, hlive]
        by_cases hkey : key a = k
        · rw [← hkey, Dict.get?_set_self]
          simp
        · rw [Dict.get?_set_of_ne hkey]
          by_cases hbar : bars a = true
          · simp [hkey, hbar]
          · simp [hkey, hbar, ih]
      · have hbar : ¬ bars a = true := fun h => hlive (hbars a h)
        simp [hlive, hbar, ih]

theorem wf_replay {base : List (κ × β)} (hbase : Dict.WF base) (rows : List α) :
    Dict.WF (replay live bars key entry base rows) := by
  induction rows with
  | nil => exact hbase
  | cons a older ih =>
      rw [replay]
      split
      · split
        · exact Dict.WF.set (d := []) List.nodup_nil _ _
        · exact ih.set _ _
      · exact ih

end Replay

end Layers
end VariantOne
