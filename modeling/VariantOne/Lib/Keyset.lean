import Mathlib.Data.List.Sort

/-!
# Pages by key

A reader pages through rows in increasing order of a key: each page starts after the key of
the last row of the page before.  With a key that increases strictly, the pages are the rows,
each of them once.

`pages` has one limit for all pages and a natural number for a key; `pagesBy` has a limit for each page and
any linear order.  A page that says that there are more rows has a last row, after which the next page
starts (`exists_last_of_more`).
-/

namespace VariantOne
namespace Keyset

variable {ρ : Type}

/-- The pages of at most `m` rows after a key, as many as there are and at most `fuel`. -/
def pages (key : ρ → Nat) (rows : List ρ) (m : Nat) : Nat → Nat → List ρ
  | 0, _ => []
  | fuel + 1, after =>
      let page := (rows.filter fun r => after < key r).take m
      match page.getLast? with
      | none => []
      | some r => page ++ pages key rows m fuel (key r)

/-- Rows in strictly increasing order of a key. -/
def Increasing (key : ρ → Nat) (rows : List ρ) : Prop := rows.Pairwise fun r r' => key r < key r'

variable {key : ρ → Nat} {rows : List ρ}

theorem Increasing.filter (h : Increasing key rows) (p : ρ → Bool) :
    Increasing key (rows.filter p) := List.Pairwise.filter p h

/-- Rows in increasing order are determined by what they are. -/
theorem Increasing.eq_of_mem_iff {rows' : List ρ} (h : Increasing key rows)
    (h' : Increasing key rows') (hmem : ∀ r, r ∈ rows ↔ r ∈ rows') : rows = rows' := by
  have : Std.Antisymm fun r r' : ρ => key r < key r' :=
    ⟨fun r r' hlt hgt => absurd (Nat.lt_trans hlt hgt) (Nat.lt_irrefl _)⟩
  have : Std.Irrefl fun r r' : ρ => key r < key r' := ⟨fun r => Nat.lt_irrefl _⟩
  exact List.Pairwise.eq_of_mem_iff h h' hmem

theorem Increasing.insertionSort_eq (h : Increasing key rows) :
    rows.insertionSort (fun r r' => key r ≤ key r') = rows :=
  List.Pairwise.insertionSort_eq (List.Pairwise.imp Nat.le_of_lt h)

/-- The rows after the last row of a page are those the page leaves. -/
theorem Increasing.filter_after_page {page rest : List ρ} (h : Increasing key (page ++ rest)) {r : ρ}
    (hr : page.getLast? = some r) : (page ++ rest).filter (fun x => key r < key x) = rest := by
  obtain ⟨before, rfl⟩ := List.getLast?_eq_some_iff.mp hr
  have hpair := List.pairwise_append.mp h
  rw [List.filter_append, List.filter_eq_nil_iff.mpr, List.nil_append, List.filter_eq_self]
  · intro x hx
    simpa using hpair.2.2 r (by simp) x hx
  · intro x hx
    rcases List.mem_append.mp hx with hx | hx
    · have hlt := (List.pairwise_append.mp hpair.1).2.2 x hx r (by simp)
      simpa using Nat.le_of_lt hlt
    · obtain rfl := List.mem_singleton.mp hx
      simp

/-- **Pages enumerate.**  Enough pages that are not empty are the rows after a key. -/
theorem pages_eq (h : Increasing key rows) {m : Nat} (hm : 0 < m) {fuel after : Nat}
    (hfuel : (rows.filter fun r => after < key r).length < fuel) :
    pages key rows m fuel after = rows.filter fun r => after < key r := by
  induction fuel generalizing after with
  | zero => exact absurd hfuel (Nat.not_lt_zero _)
  | succ fuel ih =>
      rw [pages]
      generalize hX : (rows.filter fun r => after < key r) = X at hfuel ⊢
      cases hlast : (X.take m).getLast? with
      | none =>
          rw [List.getLast?_eq_none_iff, List.take_eq_nil_iff] at hlast
          exact (hlast.resolve_left (by omega)).symm
      | some r =>
          dsimp only
          have hsplit : X.take m ++ X.drop m = X := List.take_append_drop m X
          have hincreasing : Increasing key X := hX ▸ h.filter _
          -- the rows after `r` among all rows are those among the rows after `after`
          have hr : r ∈ X := List.mem_of_mem_take (List.mem_of_getLast? hlast)
          have hafter : after < key r := by
            rw [← hX] at hr
            simpa using (List.mem_filter.mp hr).2
          have hrest : (rows.filter fun x => key r < key x) = X.drop m := by
            have hpage : (X.filter fun x => key r < key x) = X.drop m := by
              conv_lhs => rw [← hsplit]
              exact Increasing.filter_after_page (hsplit.symm ▸ hincreasing) hlast
            rw [← hpage, ← hX, List.filter_filter]
            refine List.filter_congr fun x _ => ?_
            by_cases hx : key r < key x
            · simp [hx, Nat.lt_trans hafter hx]
            · simp [hx]
          have hpos : 0 < (X.take m).length :=
            List.length_pos_of_ne_nil fun hnil => by simp [hnil] at hlast
          have hlen := congrArg List.length hsplit
          rw [List.length_append] at hlen
          rw [ih (by rw [hrest]; omega), hrest, hsplit]

/-! ## Pages with limits of their own -/

section Limits

variable {κ : Type} [LinearOrder κ] {key : ρ → κ} {rows : List ρ}

/-- The first rows after a key, and whether there are more. -/
def pageBy (key : ρ → κ) (rows : List ρ) (n : Nat) (after : κ) : List ρ × Bool :=
  ((rows.filter fun r => after < key r).take n, decide (n < (rows.filter fun r => after < key r).length))

/-- Page after page, each with a limit of its own, as long as there are more. -/
def pagesBy (key : ρ → κ) (rows : List ρ) : List Nat → κ → List (List ρ)
  | [], _ => []
  | n :: limits, after =>
      let page := pageBy key rows n after
      page.1 :: match page.2, page.1.getLast? with
        | true, some r => pagesBy key rows limits (key r)
        | _, _ => []

/-- The rows after the last row of a page are those it leaves. -/
theorem filter_after_last (h : rows.Pairwise fun r r' => key r < key r') {after : κ} {n : Nat} {r : ρ}
    (hr : ((rows.filter fun x => after < key x).take n).getLast? = some r) :
    (rows.filter fun x => key r < key x) = (rows.filter fun x => after < key x).drop n := by
  have hmem : r ∈ rows.filter fun x => after < key x :=
    List.mem_of_mem_take (List.mem_of_getLast? hr)
  have hafter : after < key r := by simpa using (List.mem_filter.mp hmem).2
  have hsub : (rows.filter fun x => key r < key x) =
      (rows.filter fun x => after < key x).filter fun x => key r < key x := by
    rw [List.filter_filter]
    refine List.filter_congr fun x _ => ?_
    by_cases hx : key r < key x
    · simp [hx, lt_trans hafter hx]
    · simp [hx]
  rw [hsub]
  have hpair : (rows.filter fun x => after < key x).Pairwise fun r r' => key r < key r' := h.filter _
  generalize (rows.filter fun x => after < key x) = later at hr hpair ⊢
  obtain ⟨before, hbefore⟩ := List.getLast?_eq_some_iff.mp hr
  have hsplit : before ++ [r] ++ later.drop n = later := by
    rw [← hbefore]
    exact List.take_append_drop n later
  conv_lhs => rw [← hsplit]
  rw [← hsplit] at hpair
  have hparts := List.pairwise_append.mp hpair
  rw [List.filter_append, List.filter_eq_nil_iff.mpr, List.nil_append, List.filter_eq_self]
  · intro x hx
    simpa using hparts.2.2 r (by simp) x hx
  · intro x hx
    rcases List.mem_append.mp hx with hx | hx
    · have hlt := (List.pairwise_append.mp hparts.1).2.2 x hx r (by simp)
      simpa using hlt.le
    · obtain rfl := List.mem_singleton.mp hx
      simp

/-- A page that leaves some has a last row. -/
theorem exists_last_of_more {n : Nat} (hn : 0 < n) (after : κ)
    (hmore : (pageBy key rows n after).2 = true) :
    ∃ r, (pageBy key rows n after).1.getLast? = some r := by
  have hlong : n < (rows.filter fun r => after < key r).length := of_decide_eq_true hmore
  refine Option.ne_none_iff_exists'.mp fun hnone => ?_
  rw [List.getLast?_eq_none_iff, pageBy, List.take_eq_nil_iff] at hnone
  rcases hnone with hnone | hnone
  · omega
  · rw [hnone] at hlong
    exact absurd hlong (Nat.not_lt_zero _)

/-- **Pages enumerate**, whatever their limits: each row after the first key is in one page. -/
theorem flatten_pagesBy (h : rows.Pairwise fun r r' => key r < key r') {limits : List Nat}
    (hpos : ∀ n ∈ limits, 0 < n) {after : κ}
    (hlen : (rows.filter fun r => after < key r).length < limits.length) :
    (pagesBy key rows limits after).flatten = rows.filter fun r => after < key r := by
  induction limits generalizing after with
  | nil => exact absurd hlen (Nat.not_lt_zero _)
  | cons n limits ih =>
      have hn : 0 < n := hpos n List.mem_cons_self
      rw [pagesBy, List.flatten_cons]
      unfold pageBy
      dsimp only
      cases hlast : ((rows.filter fun r => after < key r).take n).getLast? with
      | none =>
          rw [List.getLast?_eq_none_iff, List.take_eq_nil_iff] at hlast
          rw [hlast.resolve_left (by omega)]
          simp
      | some r =>
          by_cases hmore : n < (rows.filter fun r => after < key r).length
          · rw [decide_eq_true hmore]
            dsimp only
            have hrest := filter_after_last h hlast
            rw [ih (fun m hm => hpos m (List.mem_cons_of_mem _ hm)), hrest, List.take_append_drop]
            rw [hrest, List.length_drop]
            rw [List.length_cons] at hlen
            omega
          · rw [decide_eq_false hmore]
            dsimp only
            rw [List.flatten_nil, List.append_nil, List.take_of_length_le (Nat.le_of_not_lt hmore)]

end Limits

end Keyset
end VariantOne
