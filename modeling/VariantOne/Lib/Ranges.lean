import Mathlib.Data.List.Sort
import Mathlib.Order.MinMax

/-!
# Ranges of integers

A list of ranges stands for the set of the numbers in them.  It is *canonical* when its ranges come in
order and neither overlap nor touch, and a set has one canonical list (`Canonical.eq_of_covers`).  Going
through ranges sorted by their starts, and joining each with the last one where the two touch, makes a
list canonical.
-/

namespace VariantOne
namespace Ranges

/-- The number is in one of the ranges. -/
def Covers (rows : List (Int × Int)) (n : Int) : Prop := ∃ r ∈ rows, r.1 ≤ n ∧ n ≤ r.2

/-- Ranges in order, with a gap between any two. -/
structure Canonical (rows : List (Int × Int)) : Prop where
  nonempty : ∀ r ∈ rows, r.1 ≤ r.2
  apart : rows.Pairwise fun r r' => r.2 + 1 < r'.1

@[simp] theorem covers_nil (n : Int) : ¬ Covers [] n := by simp [Covers]

@[simp] theorem covers_cons (r : Int × Int) (rows : List (Int × Int)) (n : Int) :
    Covers (r :: rows) n ↔ (r.1 ≤ n ∧ n ≤ r.2) ∨ Covers rows n := by
  simp [Covers]

@[simp] theorem covers_append (rows rows' : List (Int × Int)) (n : Int) :
    Covers (rows ++ rows') n ↔ Covers rows n ∨ Covers rows' n := by
  simp [Covers, or_and_right, exists_or]

theorem Covers.perm {rows rows' : List (Int × Int)} (h : rows.Perm rows') (n : Int) :
    Covers rows n ↔ Covers rows' n :=
  ⟨fun ⟨r, hr, hn⟩ => ⟨r, h.mem_iff.mp hr, hn⟩, fun ⟨r, hr, hn⟩ => ⟨r, h.mem_iff.mpr hr, hn⟩⟩

theorem canonical_nil : Canonical [] := ⟨by simp, List.Pairwise.nil⟩

/-! ## 1.  A set has one canonical list -/

variable {r r' : Int × Int} {rows rows' : List (Int × Int)}

theorem Canonical.tail (h : Canonical (r :: rows)) : Canonical rows :=
  ⟨fun x hx => h.nonempty x (List.mem_cons_of_mem _ hx), (List.pairwise_cons.mp h.apart).2⟩

/-- What the ranges after the first one cover lies beyond it. -/
theorem Canonical.beyond (h : Canonical (r :: rows)) {n : Int} (hn : Covers rows n) : r.2 + 1 < n := by
  obtain ⟨x, hx, hlow, -⟩ := hn
  exact Int.lt_of_lt_of_le ((List.pairwise_cons.mp h.apart).1 x hx) hlow

/-- The first number covered is the start of the first range. -/
theorem Canonical.start_le (h : Canonical (r :: rows)) {n : Int} (hn : Covers (r :: rows) n) : r.1 ≤ n := by
  have hr := h.nonempty r List.mem_cons_self
  rcases (covers_cons r rows n).mp hn with hthis | hrest
  · exact hthis.1
  · have hfar := h.beyond hrest
    omega

/-- The first range of two lists that cover the same ends at the same number, or later. -/
theorem Canonical.stop_le (h : Canonical (r :: rows)) (hstart : r.1 = r'.1)
    (hcovers : ∀ n, Covers (r' :: rows') n → Covers (r :: rows) n) : r'.2 ≤ r.2 := by
  by_contra hlt
  have hr := h.nonempty r List.mem_cons_self
  have hin : Covers (r' :: rows') (r.2 + 1) := (covers_cons r' rows' _).mpr (.inl ⟨by omega, by omega⟩)
  rcases (covers_cons r rows _).mp (hcovers _ hin) with hthis | hrest
  · omega
  · have hfar := h.beyond hrest
    omega

/-- **Canonical lists that cover the same are the same.** -/
theorem Canonical.eq_of_covers (h : Canonical rows) (h' : Canonical rows')
    (hcovers : ∀ n, Covers rows n ↔ Covers rows' n) : rows = rows' := by
  induction rows generalizing rows' with
  | nil =>
      cases rows' with
      | nil => rfl
      | cons r' rows' =>
          have hr' := h'.nonempty r' List.mem_cons_self
          exact absurd ((hcovers r'.1).mpr ((covers_cons _ _ _).mpr (.inl ⟨Int.le_refl _, hr'⟩))) (covers_nil _)
  | cons r rows ih =>
      have hr := h.nonempty r List.mem_cons_self
      have hfirst : Covers (r :: rows) r.1 := (covers_cons _ _ _).mpr (.inl ⟨Int.le_refl _, hr⟩)
      cases rows' with
      | nil => exact absurd ((hcovers r.1).mp hfirst) (covers_nil _)
      | cons r' rows' =>
          have hr' := h'.nonempty r' List.mem_cons_self
          have hfirst' : Covers (r' :: rows') r'.1 := (covers_cons _ _ _).mpr (.inl ⟨Int.le_refl _, hr'⟩)
          have hstart : r.1 = r'.1 :=
            Int.le_antisymm (h.start_le ((hcovers _).mpr hfirst')) (h'.start_le ((hcovers _).mp hfirst))
          have hstop : r.2 = r'.2 :=
            Int.le_antisymm (h'.stop_le hstart.symm fun n => (hcovers n).mp)
              (h.stop_le hstart fun n => (hcovers n).mpr)
          have hrest : ∀ n, Covers rows n ↔ Covers rows' n := by
            intro n
            have hn := hcovers n
            rw [covers_cons, covers_cons, ← hstart, ← hstop] at hn
            constructor
            · intro hin
              have hfar := h.beyond hin
              exact (hn.mp (.inr hin)).resolve_left (by omega)
            · intro hin
              have hfar := h'.beyond hin
              exact (hn.mpr (.inr hin)).resolve_left (by omega)
          rw [Prod.ext hstart hstop, ih h.tail h'.tail hrest]

/-! ## 2.  Joining ranges sorted by their starts -/

/-- The next range is joined with the last one, unless there is a gap between them. -/
def absorb (merged : List (Int × Int)) (current : Int × Int) : List (Int × Int) :=
  match merged.getLast? with
  | none => merged ++ [current]
  | some last =>
      if last.2 + 1 < current.1 then merged ++ [current]
      else merged.dropLast ++ [(last.1, max last.2 current.2)]

theorem absorb_snoc (merged : List (Int × Int)) (last current : Int × Int) :
    absorb (merged ++ [last]) current =
      if last.2 + 1 < current.1 then merged ++ [last] ++ [current]
      else merged ++ [(last.1, max last.2 current.2)] := by
  rw [absorb, List.getLast?_concat, List.dropLast_concat]

theorem foldl_absorb {merged rest : List (Int × Int)} {last : Int × Int} (h : Canonical (merged ++ [last]))
    (hsorted : (last :: rest).Pairwise fun a b => a.1 ≤ b.1) (hrest : ∀ r ∈ rest, r.1 ≤ r.2) :
    Canonical (rest.foldl absorb (merged ++ [last])) ∧
      ∀ n, Covers (rest.foldl absorb (merged ++ [last])) n ↔ Covers (merged ++ [last] ++ rest) n := by
  induction rest generalizing merged last with
  | nil => exact ⟨h, fun n => by rw [List.foldl_nil, List.append_nil]⟩
  | cons current rest ih =>
      obtain ⟨hlast, htail⟩ := List.pairwise_cons.mp hsorted
      obtain ⟨hcurrent, hlater⟩ := List.forall_mem_cons.mp hrest
      have hstart := hlast current List.mem_cons_self
      have hend := h.nonempty last (by simp)
      obtain ⟨hbefore, -, hgap⟩ := List.pairwise_append.mp h.apart
      rw [List.foldl_cons, absorb_snoc]
      split
      · rename_i hfar
        have hnext : Canonical (merged ++ [last] ++ [current]) := by
          refine ⟨fun r hr => ?_, List.pairwise_append.mpr ⟨h.apart, List.pairwise_singleton _ _, ?_⟩⟩
          · rcases List.mem_append.mp hr with hr | hr
            · exact h.nonempty r hr
            · rwa [List.mem_singleton.mp hr]
          · intro r hr r' hr'
            rw [List.mem_singleton.mp hr']
            rcases List.mem_append.mp hr with hr | hr
            · have hsmall := hgap r hr last (by simp)
              have hsize := h.nonempty r (List.mem_append_left _ hr)
              omega
            · rwa [List.mem_singleton.mp hr]
        obtain ⟨hcanonical, hcovers⟩ := ih hnext htail hlater
        refine ⟨hcanonical, fun n => (hcovers n).trans ?_⟩
        rw [List.append_assoc (merged ++ [last])]
        rfl
      · rename_i hnear
        have hjoined : Canonical (merged ++ [(last.1, max last.2 current.2)]) := by
          refine ⟨fun r hr => ?_, List.pairwise_append.mpr ⟨hbefore, List.pairwise_singleton _ _, ?_⟩⟩
          · rcases List.mem_append.mp hr with hr | hr
            · exact h.nonempty r (List.mem_append_left _ hr)
            · rw [List.mem_singleton.mp hr]
              exact le_max_of_le_left hend
          · intro r hr r' hr'
            rw [List.mem_singleton.mp hr']
            exact hgap r hr last (by simp)
        have hsorted' : ((last.1, max last.2 current.2) :: rest).Pairwise fun a b => a.1 ≤ b.1 :=
          List.pairwise_cons.mpr ⟨fun r hr => hlast r (List.mem_cons_of_mem _ hr),
            (List.pairwise_cons.mp htail).2⟩
        obtain ⟨hcanonical, hcovers⟩ := ih hjoined hsorted' hlater
        refine ⟨hcanonical, fun n => (hcovers n).trans ?_⟩
        have hunion : (last.1 ≤ n ∧ n ≤ max last.2 current.2) ↔
            (last.1 ≤ n ∧ n ≤ last.2) ∨ (current.1 ≤ n ∧ n ≤ current.2) := by
          rw [le_max_iff]
          omega
        simp only [covers_append, covers_cons, covers_nil, or_false, hunion, or_assoc]

/-- **Sorted ranges are joined to a canonical list** that covers the same. -/
theorem canonical_foldl_absorb (hsorted : rows.Pairwise fun a b => a.1 ≤ b.1) (hrows : ∀ r ∈ rows, r.1 ≤ r.2) :
    Canonical (rows.foldl absorb []) ∧ ∀ n, Covers (rows.foldl absorb []) n ↔ Covers rows n := by
  cases rows with
  | nil => exact ⟨canonical_nil, fun n => Iff.rfl⟩
  | cons r rows =>
      obtain ⟨hr, hrest⟩ := List.forall_mem_cons.mp hrows
      have hone : Canonical ([] ++ [r]) := ⟨by simpa using hr, List.pairwise_singleton _ _⟩
      exact foldl_absorb hone hsorted hrest

end Ranges
end VariantOne
