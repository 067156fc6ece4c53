import Mathlib.Algebra.BigOperators.Group.List.Basic
import Mathlib.Tactic.Abel
import VariantOne.Lib.Dict
import VariantOne.Lib.Table

/-!
# Rollups

A rollup keeps one entry for each group that some row belongs to: the total of the rows
of the group, in a commutative group.  It is never recomputed.  A new row adds its tally
to each of its groups, and a changed row adds the difference.

`Exact` says that every entry is the total recomputed from the rows; `Exact.insert` and
`Exact.update` say that both kinds of delta keep it.
-/

namespace VariantOne
namespace Rollup

variable {ρ κ τ : Type} [DecidableEq κ] [AddCommGroup τ]

/-- Add `d` to the entry of a group. -/
def add (d : τ) (rollup : List (κ × τ)) (k : κ) : List (κ × τ) :=
  Dict.set rollup k ((Dict.get? rollup k).getD 0 + d)

/-- Add `d` to the entries of several groups. -/
def addAll (ks : List κ) (d : τ) (rollup : List (κ × τ)) : List (κ × τ) := ks.foldl (add d) rollup

theorem get?_add (d : τ) (rollup : List (κ × τ)) (k k' : κ) :
    Dict.get? (add d rollup k) k' =
      if k' = k then some ((Dict.get? rollup k).getD 0 + d) else Dict.get? rollup k' := by
  unfold add
  by_cases h : k' = k
  · rw [if_pos h, h, Dict.get?_set_self]
  · rw [if_neg h, Dict.get?_set_of_ne (Ne.symm h)]

/-- Adding to distinct groups adds once to each of them. -/
theorem get?_addAll {ks : List κ} (hks : ks.Nodup) (d : τ) (rollup : List (κ × τ)) (k : κ) :
    Dict.get? (addAll ks d rollup) k =
      if k ∈ ks then some ((Dict.get? rollup k).getD 0 + d) else Dict.get? rollup k := by
  induction ks generalizing rollup with
  | nil => rfl
  | cons k' ks ih =>
      rw [List.nodup_cons] at hks
      show Dict.get? (addAll ks d (add d rollup k')) k = _
      rw [ih hks.2, get?_add]
      by_cases hk : k = k'
      · subst hk
        simp [hks.1]
      · simp [hk]

/-! ## Totals -/

variable (groups : ρ → List κ) (tally : ρ → τ)

/-- What the rows of a group add up to. -/
def total (rows : List ρ) (k : κ) : τ := ((rows.filter fun r => k ∈ groups r).map tally).sum

/-- Every entry is the total of its group, and every group with a row has an entry. -/
def Exact (rows : List ρ) (rollup : List (κ × τ)) : Prop :=
  ∀ k, Dict.get? rollup k =
    if ∃ r ∈ rows, k ∈ groups r then some (total groups tally rows k) else none

variable {groups tally}

theorem total_append (rows rows' : List ρ) (k : κ) :
    total groups tally (rows ++ rows') k = total groups tally rows k + total groups tally rows' k := by
  unfold total
  rw [List.filter_append, List.map_append, List.sum_append]

theorem total_cons (r : ρ) (rows : List ρ) (k : κ) :
    total groups tally (r :: rows) k =
      (if k ∈ groups r then tally r else 0) + total groups tally rows k := by
  unfold total
  by_cases hk : k ∈ groups r
  · rw [List.filter_cons_of_pos (by simpa using hk), List.map_cons, List.sum_cons, if_pos hk]
  · rw [List.filter_cons_of_neg (by simpa using hk), if_neg hk, zero_add]

theorem total_nil (k : κ) : total groups tally [] k = 0 := rfl

/-- A group without rows totals zero. -/
theorem total_eq_zero {rows : List ρ} {k : κ} (h : ¬ ∃ r ∈ rows, k ∈ groups r) :
    total groups tally rows k = 0 := by
  have hnil : (rows.filter fun r => k ∈ groups r) = [] := by
    rw [List.filter_eq_nil_iff]
    intro r hr hk
    exact h ⟨r, hr, by simpa using hk⟩
  unfold total
  rw [hnil]
  rfl

theorem exact_nil : Exact groups tally [] ([] : List (κ × τ)) := by
  intro k
  rw [if_neg (by simp), Dict.get?_nil]

/-- The entry of a group, where no entry counts as zero. -/
theorem Exact.getD {rows : List ρ} {rollup : List (κ × τ)} (h : Exact groups tally rows rollup)
    (k : κ) : (Dict.get? rollup k).getD 0 = total groups tally rows k := by
  rw [h k]
  split
  · rfl
  · rename_i hnone
    exact (total_eq_zero hnone).symm

/-- A new row adds its tally to its groups. -/
theorem Exact.insert {rows : List ρ} {rollup : List (κ × τ)} (h : Exact groups tally rows rollup)
    {r : ρ} (hr : (groups r).Nodup) :
    Exact groups tally (rows ++ [r]) (addAll (groups r) (tally r) rollup) := by
  intro k
  have htotal : total groups tally (rows ++ [r]) k =
      total groups tally rows k + if k ∈ groups r then tally r else 0 := by
    rw [total_append, total_cons, total_nil, add_zero]
  rw [get?_addAll hr, htotal]
  by_cases hk : k ∈ groups r
  · rw [if_pos hk, if_pos hk, if_pos ⟨r, by simp, hk⟩, h.getD]
  · rw [if_neg hk, if_neg hk, add_zero, h k]
    have hiff : (∃ r' ∈ rows ++ [r], k ∈ groups r') ↔ ∃ r' ∈ rows, k ∈ groups r' := by
      constructor
      · rintro ⟨r', hr', hk'⟩
        rcases List.mem_append.mp hr' with hr' | hr'
        · exact ⟨r', hr', hk'⟩
        · obtain rfl := List.mem_singleton.mp hr'
          exact absurd hk' hk
      · rintro ⟨r', hr', hk'⟩
        exact ⟨r', List.mem_append_left _ hr', hk'⟩
    simp only [hiff]

omit [DecidableEq κ] in
/-- A changed row leaves the groups that have rows. -/
theorem exists_group_iff {before after : List ρ} {r r' : ρ} (hgroups : groups r' = groups r)
    {k : κ} :
    (∃ x ∈ before ++ r' :: after, k ∈ groups x) ↔ ∃ x ∈ before ++ r :: after, k ∈ groups x := by
  simp only [List.mem_append, List.mem_cons, or_and_right, exists_or, exists_eq_left, hgroups]

/-- A changed row adds the difference of its tallies to its groups. -/
theorem Exact.update {before after : List ρ} {r r' : ρ} {rollup : List (κ × τ)}
    (h : Exact groups tally (before ++ r :: after) rollup) (hr : (groups r).Nodup)
    (hgroups : groups r' = groups r) :
    Exact groups tally (before ++ r' :: after)
      (addAll (groups r) (tally r' - tally r) rollup) := by
  intro k
  rw [get?_addAll hr, h.getD, h k, total_append, total_append, total_cons, total_cons, hgroups]
  simp only [exists_group_iff hgroups]
  by_cases hk : k ∈ groups r
  · rw [if_pos hk, if_pos hk, if_pos hk, if_pos ⟨r, by simp, hk⟩]
    congr 1
    abel
  · rw [if_neg hk, if_neg hk, if_neg hk]

/-- An update that changes no tally needs no delta. -/
theorem Exact.frame {before after : List ρ} {r r' : ρ} {rollup : List (κ × τ)}
    (h : Exact groups tally (before ++ r :: after) rollup) (hgroups : groups r' = groups r)
    (htally : tally r' = tally r) : Exact groups tally (before ++ r' :: after) rollup := by
  intro k
  rw [h k, total_append, total_append, total_cons, total_cons, hgroups, htally]
  simp only [exists_group_iff hgroups]

end Rollup

/-- An update by key changes one row. -/
theorem Table.rows_update_of_find? {ρ κ : Type} [DecidableEq κ] {key : ρ → κ} {t : Table ρ κ key}
    {k : κ} {r : ρ} (h : t.find? k = some r) (f : ρ → ρ) (hf : ∀ r, key (f r) = key r) :
    ∃ before after, t.rows = before ++ r :: after ∧
      (t.updateWhere (fun x => decide (key x = k)) f hf).rows = before ++ f r :: after := by
  obtain ⟨hr, hk⟩ := Table.find?_eq_some_iff.mp h
  obtain ⟨before, after, hrows⟩ := List.append_of_mem hr
  refine ⟨before, after, hrows, ?_⟩
  have hunique := t.unique
  rw [hrows, List.map_append, List.map_cons, List.nodup_append] at hunique
  obtain ⟨-, hcons, hdisjoint⟩ := hunique
  rw [List.nodup_cons] at hcons
  have hkeep : ∀ rows : List ρ, (∀ x ∈ rows, key x ≠ k) →
      (rows.map fun x => if decide (key x = k) = true then f x else x) = rows := by
    intro rows hrows
    refine (List.map_congr_left fun x hx => ?_).trans (List.map_id _)
    rw [if_neg (by simpa using hrows x hx)]
    rfl
  have hbefore : ∀ x ∈ before, key x ≠ k := fun x hx hxk =>
    hdisjoint _ (List.mem_map_of_mem hx) _ List.mem_cons_self (hxk.trans hk.symm)
  have hafter : ∀ x ∈ after, key x ≠ k := fun x hx hxk =>
    hcons.1 ((hxk.trans hk.symm) ▸ List.mem_map_of_mem hx)
  rw [Table.rows_updateWhere, hrows, List.map_append, List.map_cons, hkeep before hbefore,
    hkeep after hafter, if_pos (by simpa using hk)]

end VariantOne
