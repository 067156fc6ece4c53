import Mathlib.Data.List.Basic
import Mathlib.Data.List.Infix

/-!
# Cutting a stream at a separator

A stream that arrives in chunks is cut into frames at every separator; what follows the last separator is kept
until more arrives.  `cut_append` is the whole of it: cutting what was kept together with the next chunk goes on
where the first cut ended, so the frames do not depend on the chunks.
-/

namespace VariantOne
namespace Framing

variable {α : Type*} [DecidableEq α] {sep : α}

/-- The frames that are complete, and what follows the last separator. -/
def cut (sep : α) : List α → List (List α) × List α
  | [] => ([], [])
  | a :: s =>
      if a = sep then ([] :: (cut sep s).1, (cut sep s).2)
      else
        match (cut sep s).1 with
        | [] => ([], a :: (cut sep s).2)
        | frame :: frames => ((a :: frame) :: frames, (cut sep s).2)

/-- All the frames of a stream that has ended, the last one included. -/
def frames (sep : α) (s : List α) : List (List α) := (cut sep s).1 ++ [(cut sep s).2]

theorem cut_cons_sep (s : List α) : cut sep (sep :: s) = ([] :: (cut sep s).1, (cut sep s).2) := by
  rw [cut, if_pos rfl]

theorem cut_cons_nil {a : α} {s : List α} (ha : a ≠ sep) (hs : (cut sep s).1 = []) :
    cut sep (a :: s) = ([], a :: (cut sep s).2) := by
  rw [cut, if_neg ha, hs]

theorem cut_cons_cons {a : α} {s frame : List α} {frames : List (List α)} (ha : a ≠ sep)
    (hs : (cut sep s).1 = frame :: frames) : cut sep (a :: s) = ((a :: frame) :: frames, (cut sep s).2) := by
  rw [cut, if_neg ha, hs]

theorem cut_of_notMem {s : List α} (h : sep ∉ s) : cut sep s = ([], s) := by
  induction s with
  | nil => rfl
  | cons a s ih =>
      rw [List.mem_cons, not_or] at h
      rw [cut_cons_nil (Ne.symm h.1) (by rw [ih h.2]), ih h.2]

theorem sep_notMem_rest (s : List α) : sep ∉ (cut sep s).2 := by
  induction s with
  | nil => exact List.not_mem_nil
  | cons a s ih =>
      by_cases ha : a = sep
      · subst ha
        rwa [cut_cons_sep]
      · cases hs : (cut sep s).1 with
        | nil =>
            rw [cut_cons_nil ha hs, List.mem_cons, not_or]
            exact ⟨Ne.symm ha, ih⟩
        | cons frame frames => rwa [cut_cons_cons ha hs]

/-- What was kept is cut again with what follows. -/
theorem cut_append (a b : List α) :
    cut sep (a ++ b) =
      ((cut sep a).1 ++ (cut sep ((cut sep a).2 ++ b)).1, (cut sep ((cut sep a).2 ++ b)).2) := by
  induction a with
  | nil => rfl
  | cons x a ih =>
      by_cases hx : x = sep
      · subst hx
        rw [List.cons_append, cut_cons_sep, cut_cons_sep, ih]
        rfl
      · cases ha : (cut sep a).1 with
        | nil =>
            rw [ha, List.nil_append] at ih
            rw [cut_cons_nil hx ha, List.nil_append, List.cons_append, List.cons_append, cut, cut, ih]
        | cons frame frames =>
            rw [ha, List.cons_append] at ih
            rw [cut_cons_cons hx ha, List.cons_append, cut_cons_cons hx (by rw [ih]), ih]
            rfl

/-- The frames of a stream are those of its beginning and those of what was kept with the rest. -/
theorem frames_append (a b : List α) :
    frames sep (a ++ b) = (cut sep a).1 ++ frames sep ((cut sep a).2 ++ b) := by
  rw [frames, cut_append, List.append_assoc, frames]

/-- What is kept is the beginning of a frame. -/
theorem frames_of_notMem {r : List α} (h : sep ∉ r) (b : List α) :
    ∃ frame others, frames sep (r ++ b) = frame :: others ∧ r <+: frame := by
  induction r with
  | nil =>
      cases hb : frames sep b with
      | nil => exact absurd hb (by simp [frames])
      | cons frame others => exact ⟨frame, others, hb, List.nil_prefix⟩
  | cons a r ih =>
      rw [List.mem_cons, not_or] at h
      obtain ⟨frame, others, hframes, hprefix⟩ := ih h.2
      rw [frames] at hframes
      rw [frames, List.cons_append]
      cases hcut : (cut sep (r ++ b)).1 with
      | nil =>
          rw [hcut] at hframes
          rw [cut_cons_nil (Ne.symm h.1) hcut]
          exact ⟨a :: frame, others, by simpa using hframes, List.cons_prefix_cons.mpr ⟨rfl, hprefix⟩⟩
      | cons first rest =>
          rw [hcut, List.cons_append] at hframes
          obtain ⟨rfl, rfl⟩ := List.cons.inj hframes
          rw [cut_cons_cons (Ne.symm h.1) hcut]
          exact ⟨a :: first, _, rfl, List.cons_prefix_cons.mpr ⟨rfl, hprefix⟩⟩

end Framing
end VariantOne
