import Mathlib.Data.List.Basic
import VariantOne.Lib.Lines

/-!
# Fields and records on a stream

A record is written as tokens, each ended by a separator, and a token as fields, each but the last ended by
another one.

* `splitOn_lines`, `splitMax_lines`: splitting gives the tokens or the fields back; with a bound on the number
  of splits the last field may contain the separator;
* `lines_append_inj`: tokens that are not empty, with one more separator after them, are found again in front
  of whatever follows;
* `reads_records`: a reader that takes the tokens of one record takes those of all;
* `take_records`: a stream that is cut ends after some records, after some tokens of the next one, or inside a
  token.
-/

namespace VariantOne
namespace Fields

variable {α : Type*} [DecidableEq α] (sep : α)

/-- `s.partition(sep)`: what stands before the first separator, and what follows it, if there is one. -/
def cut : List α → List α × Option (List α)
  | [] => ([], none)
  | a :: s => if a = sep then ([], some s) else (a :: (cut s).1, (cut s).2)

/-- `s.split(sep, n)` -/
def splitMax : Nat → List α → List (List α)
  | 0, s => [s]
  | n + 1, s =>
      match cut sep s with
      | (front, none) => [front]
      | (front, some rest) => front :: splitMax n rest

variable {sep}

theorem cut_append {front : List α} (h : sep ∉ front) (rest : List α) :
    cut sep (front ++ sep :: rest) = (front, some rest) := by
  induction front with
  | nil => rw [List.nil_append, cut, if_pos rfl]
  | cons a front ih =>
      obtain ⟨ha, hfront⟩ := List.ne_and_not_mem_of_not_mem_cons h
      rw [List.cons_append, cut, if_neg ha.symm, ih hfront]

theorem cut_of_not_mem {front : List α} (h : sep ∉ front) : cut sep front = (front, none) := by
  induction front with
  | nil => rfl
  | cons a front ih =>
      obtain ⟨ha, hfront⟩ := List.ne_and_not_mem_of_not_mem_cons h
      rw [cut, if_neg ha.symm, ih hfront]

/-- Two texts that are each ended by a separator. -/
theorem append_cons_inj {front front' rest rest' : List α} (h : sep ∉ front) (h' : sep ∉ front')
    (heq : front ++ sep :: rest = front' ++ sep :: rest') : front = front' ∧ rest = rest' := by
  have hcut := congrArg (cut sep) heq
  rw [cut_append h, cut_append h'] at hcut
  exact ⟨congrArg Prod.fst hcut, Option.some.inj (congrArg Prod.snd hcut)⟩

/-- **Two lists of tokens** of which none is empty, and each of which is ended by one more separator. -/
theorem lines_append_inj {ls ls' : List (List α)} (h : ∀ l ∈ ls, sep ∉ l ∧ l ≠ [])
    (h' : ∀ l ∈ ls', sep ∉ l ∧ l ≠ []) {rest rest' : List α}
    (heq : Lines.lines sep ls ++ sep :: rest = Lines.lines sep ls' ++ sep :: rest') :
    ls = ls' ∧ rest = rest' := by
  induction ls generalizing ls' with
  | nil =>
      cases ls' with
      | nil => exact ⟨rfl, (List.cons.inj heq).2⟩
      | cons l' ls' =>
          rw [Lines.lines_cons, List.append_assoc, List.cons_append] at heq
          have hl' := h' l' List.mem_cons_self
          exact absurd (append_cons_inj List.not_mem_nil hl'.1 heq).1.symm hl'.2
  | cons l ls ih =>
      have hl := h l List.mem_cons_self
      cases ls' with
      | nil =>
          rw [Lines.lines_cons, List.append_assoc, List.cons_append] at heq
          exact absurd (append_cons_inj hl.1 List.not_mem_nil heq).1 hl.2
      | cons l' ls' =>
          rw [Lines.lines_cons, Lines.lines_cons, List.append_assoc, List.append_assoc, List.cons_append,
            List.cons_append] at heq
          obtain ⟨rfl, htail⟩ := append_cons_inj hl.1 (h' l' List.mem_cons_self).1 heq
          obtain ⟨rfl, hrest⟩ := ih (fun l hl => h l (List.mem_cons_of_mem _ hl))
            (fun l hl => h' l (List.mem_cons_of_mem _ hl)) htail
          exact ⟨rfl, hrest⟩

/-- **The fields of a token**, the last of which may contain separators. -/
theorem splitMax_lines {fields : List (List α)} (h : ∀ f ∈ fields, sep ∉ f) (last : List α) :
    splitMax sep fields.length (Lines.lines sep fields ++ last) = fields ++ [last] := by
  induction fields with
  | nil => rfl
  | cons f fields ih =>
      rw [List.length_cons, Lines.lines_cons, List.append_assoc, List.cons_append, splitMax,
        cut_append (h f List.mem_cons_self)]
      dsimp only
      rw [ih fun f hf => h f (List.mem_cons_of_mem _ hf), List.cons_append]

theorem splitOn_lines {ls : List (List α)} (h : ∀ l ∈ ls, sep ∉ l) {last : List α} (hlast : sep ∉ last) :
    (Lines.lines sep ls ++ last).splitOn sep = ls ++ [last] := by
  induction ls with
  | nil => exact List.splitOn_eq_singleton hlast
  | cons l ls ih =>
      rw [Lines.lines_cons, List.append_assoc, List.cons_append,
        List.splitOn_append_cons_of_beq _ _ (beq_self_eq_true sep),
        List.splitOn_eq_singleton (h l List.mem_cons_self), ih fun l hl => h l (List.mem_cons_of_mem _ hl)]
      rfl

/-! ## Records -/

variable {ρ σ ε : Type*}

omit [DecidableEq α] in
/-- **A reader of records**: what the tokens of one record add, those of all add in their order. -/
theorem reads_records (read : List (List α) → σ → ε) {tokens : ρ → List (List α)} {add : σ → ρ → σ}
    {rs : List ρ} (h : ∀ r ∈ rs, ∀ rest s, read (tokens r ++ rest) s = read rest (add s r))
    (rest : List (List α)) (s : σ) :
    read (rs.flatMap tokens ++ rest) s = read rest (rs.foldl add s) := by
  induction rs generalizing s with
  | nil => rfl
  | cons r rs ih =>
      rw [List.flatMap_cons, List.append_assoc, h r List.mem_cons_self,
        ih fun r hr => h r (List.mem_cons_of_mem _ hr)]
      rfl

omit [DecidableEq α] in
theorem take_flatMap (f : ρ → List (List α)) (rs : List ρ) (n : Nat) :
    ∃ k part, (rs.flatMap f).take n = (rs.take k).flatMap f ++ part ∧
      (part = [] ∨ ∃ r, rs[k]? = some r ∧ part <+: f r ∧ part ≠ f r) := by
  induction rs generalizing n with
  | nil => exact ⟨0, [], by simp, .inl rfl⟩
  | cons r rs ih =>
      rw [List.flatMap_cons]
      by_cases hn : n < (f r).length
      · refine ⟨0, (f r).take n, ?_, .inr ⟨r, rfl, List.take_prefix n _, fun heq => ?_⟩⟩
        · rw [List.take_append_of_le_length (Nat.le_of_lt hn)]
          rfl
        · have hlen := congrArg List.length heq
          rw [List.length_take] at hlen
          omega
      · obtain ⟨k, part, htake, hpart⟩ := ih (n - (f r).length)
        refine ⟨k + 1, part, ?_, hpart⟩
        rw [List.take_append, List.take_of_length_le (Nat.le_of_not_lt hn), htake, List.take_succ_cons,
          List.flatMap_cons, List.append_assoc]

omit [DecidableEq α] in
theorem getLast?_lines_append {ls : List (List α)} {part l : List α} (hl : sep ∉ l) (hpart : part <+: l)
    (hne : part ≠ []) : (Lines.lines sep ls ++ part).getLast? ≠ some sep := by
  rw [List.getLast?_append_of_ne_nil _ hne]
  exact fun h => hl (hpart.subset (List.mem_of_getLast? h))

omit [DecidableEq α] in
/-- **A stream of records that is cut** ends after some records, after some tokens of the next one, or
inside a token. -/
theorem take_records {tokens : ρ → List (List α)} {rs : List ρ} (h : ∀ r ∈ rs, ∀ t ∈ tokens r, sep ∉ t)
    (n : Nat) :
    (∃ k, (Lines.lines sep (rs.flatMap tokens)).take n = Lines.lines sep ((rs.take k).flatMap tokens)) ∨
      (∃ k r part, (Lines.lines sep (rs.flatMap tokens)).take n =
          Lines.lines sep ((rs.take k).flatMap tokens ++ part) ∧
        rs[k]? = some r ∧ part <+: tokens r ∧ part ≠ [] ∧ part ≠ tokens r) ∨
      (Lines.lines sep (rs.flatMap tokens)).take n ≠ [] ∧
        ((Lines.lines sep (rs.flatMap tokens)).take n).getLast? ≠ some sep := by
  obtain ⟨k, rest, htake, -, hrest⟩ := @Lines.take_lines α sep (rs.flatMap tokens) n
  by_cases hnil : rest = []
  · obtain ⟨j, part, hpart, hcases⟩ := take_flatMap tokens rs k
    rw [htake, hnil, List.append_nil, hpart]
    rcases hcases with rfl | ⟨r, hr, hpre, hne⟩
    · exact .inl ⟨j, by rw [List.append_nil]⟩
    · by_cases hpnil : part = []
      · exact .inl ⟨j, by rw [hpnil, List.append_nil]⟩
      · exact .inr (.inl ⟨j, r, part, rfl, hr, hpre, hpnil, hne⟩)
  · obtain ⟨l, hl, hpre⟩ := hrest.resolve_left hnil
    obtain ⟨r, hr, ht⟩ := List.mem_flatMap.mp (List.mem_of_getElem? hl)
    refine .inr (.inr ?_)
    rw [htake]
    exact ⟨by simp [hnil], getLast?_lines_append (h r hr l ht) hpre hnil⟩

end Fields
end VariantOne
