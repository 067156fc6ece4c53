import VariantOne.Lib.Ranges

/-!
# Line ranges that were read

The recap of a transcript names the lines of a file that were read.  `_merge_line_range` adds one range
to those known: it sorts them and joins what overlaps or touches.

`mergeLineRanges_canonical` is the result: after any number of ranges the list is in order, with a gap
between any two, and covers exactly the lines of the ranges that were added.  A set of lines has one such
list (`Lib/Ranges`), so the order in which files were read does not show.
-/

namespace VariantOne
namespace Transcript

/-- `(row[0], row[1])`, in order. -/
def rangeLe (a b : Int × Int) : Bool := decide (a.1 < b.1 ∨ a.1 = b.1 ∧ a.2 ≤ b.2)

/-- `_merge_line_range` -/
def mergeLineRange (ranges : List (Int × Int)) (start stop : Int) : List (Int × Int) :=
  ((ranges ++ [(max 1 start, max 1 stop)]).mergeSort rangeLe).foldl Ranges.absorb []

/-- Ranges added one after the other. -/
def mergeLineRanges (inserted : List (Int × Int)) : List (Int × Int) :=
  inserted.foldl (fun ranges r => mergeLineRange ranges r.1 r.2) []

theorem pairwise_sorted (ranges : List (Int × Int)) :
    (ranges.mergeSort rangeLe).Pairwise fun a b => a.1 ≤ b.1 := by
  have hsorted : (ranges.mergeSort rangeLe).Pairwise fun a b => rangeLe a b = true := by
    refine List.pairwise_mergeSort (fun a b c => ?_) (fun a b => ?_) ranges
    · simp only [rangeLe, decide_eq_true_eq]
      omega
    · simp only [rangeLe, Bool.or_eq_true, decide_eq_true_eq]
      omega
  refine hsorted.imp fun {a b} h => ?_
  simp only [rangeLe, decide_eq_true_eq] at h
  omega

/-- **One range.** -/
theorem mergeLineRange_spec {ranges : List (Int × Int)} {start stop : Int} (h : Ranges.Canonical ranges)
    (hstart : 1 ≤ start) (hstop : start ≤ stop) :
    Ranges.Canonical (mergeLineRange ranges start stop) ∧
      ∀ n, Ranges.Covers (mergeLineRange ranges start stop) n ↔
        Ranges.Covers (ranges ++ [(start, stop)]) n := by
  have hperm := List.mergeSort_perm (ranges ++ [(start, stop)]) rangeLe
  have hnonempty : ∀ r ∈ (ranges ++ [(start, stop)]).mergeSort rangeLe, r.1 ≤ r.2 := by
    intro r hr
    rcases List.mem_append.mp (hperm.mem_iff.mp hr) with hr | hr
    · exact h.nonempty r hr
    · rwa [List.mem_singleton.mp hr]
  obtain ⟨hcanonical, hcovers⟩ := Ranges.canonical_foldl_absorb (pairwise_sorted _) hnonempty
  rw [mergeLineRange, max_eq_right hstart, max_eq_right (Int.le_trans hstart hstop)]
  exact ⟨hcanonical, fun n => (hcovers n).trans (Ranges.Covers.perm hperm n)⟩

theorem mergeLineRanges_spec {inserted ranges : List (Int × Int)} (h : Ranges.Canonical ranges)
    (hinserted : ∀ r ∈ inserted, 1 ≤ r.1 ∧ r.1 ≤ r.2) :
    Ranges.Canonical (inserted.foldl (fun ranges r => mergeLineRange ranges r.1 r.2) ranges) ∧
      ∀ n, Ranges.Covers (inserted.foldl (fun ranges r => mergeLineRange ranges r.1 r.2) ranges) n ↔
        Ranges.Covers (ranges ++ inserted) n := by
  induction inserted generalizing ranges with
  | nil => exact ⟨h, fun n => by rw [List.foldl_nil, List.append_nil]⟩
  | cons r inserted ih =>
      obtain ⟨⟨hstart, hstop⟩, hrest⟩ := List.forall_mem_cons.mp hinserted
      obtain ⟨hcanonical, hcovers⟩ := mergeLineRange_spec h hstart hstop
      obtain ⟨hcanonical', hcovers'⟩ := ih hcanonical hrest
      refine ⟨hcanonical', fun n => (hcovers' n).trans ?_⟩
      rw [Ranges.covers_append, hcovers n, ← Ranges.covers_append, List.append_assoc, List.singleton_append]

/-- **Line ranges are merged**: to ranges in order with a gap between any two, which cover the lines of the
ranges that were added, in whichever order. -/
theorem mergeLineRanges_canonical {inserted : List (Int × Int)}
    (hinserted : ∀ r ∈ inserted, 1 ≤ r.1 ∧ r.1 ≤ r.2) :
    Ranges.Canonical (mergeLineRanges inserted) ∧
      (∀ n, Ranges.Covers (mergeLineRanges inserted) n ↔ Ranges.Covers inserted n) ∧
        ∀ other, other.Perm inserted → mergeLineRanges other = mergeLineRanges inserted := by
  obtain ⟨hcanonical, hcovers⟩ := mergeLineRanges_spec Ranges.canonical_nil hinserted
  refine ⟨hcanonical, hcovers, fun other hperm => ?_⟩
  obtain ⟨hcanonical', hcovers'⟩ := mergeLineRanges_spec Ranges.canonical_nil
    fun r (hr : r ∈ other) => hinserted r (hperm.mem_iff.mp hr)
  exact hcanonical'.eq_of_covers hcanonical fun n =>
    ((hcovers' n).trans (Ranges.Covers.perm hperm n)).trans (hcovers n).symm

theorem mergeLineRanges_canonical_touching :
    Ranges.Canonical (mergeLineRanges [(5, 9), (1, 4)]) ∧
      (∀ n, Ranges.Covers (mergeLineRanges [(5, 9), (1, 4)]) n ↔ Ranges.Covers [(5, 9), (1, 4)] n) ∧
        ∀ other, other.Perm [(5, 9), (1, 4)] → mergeLineRanges other = mergeLineRanges [(5, 9), (1, 4)] :=
  mergeLineRanges_canonical (by decide)

end Transcript
end VariantOne
