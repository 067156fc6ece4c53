import Mathlib.Data.List.TakeWhile

/-!
# Turns

A conversation is a list of items, some of which *open* a turn: the items that
*continue* it follow at once, and together they must answer the opening item.
`WellFormed` says that a list consists of complete turns and of items outside any
turn.

A cut between two items is *clean* when both sides are well-formed.  A boundary
inside a turn is moved off it, up to the turn's end (`raise`) or down to its start
(`lower`); in a well-formed list the result is a clean cut.
-/

namespace VariantOne

/-- What opens a turn, what continues it, and when it is answered. -/
structure TurnShape (α : Type) where
  opens : α → Bool
  continues : α → Bool
  /-- The items that continue a turn answer the one that opens it. -/
  answers : α → List α → Prop
  apart : ∀ a, opens a = true → continues a = false

namespace TurnShape

variable {α : Type} (T : TurnShape α)

/-- Complete turns, and items outside any turn. -/
inductive WellFormed : List α → Prop
  | nil : WellFormed []
  | plain {a : α} {as : List α} :
      T.opens a = false → T.continues a = false → WellFormed as → WellFormed (a :: as)
  | turn {a : α} {rs as : List α} :
      T.opens a = true → (∀ r ∈ rs, T.continues r = true) → T.answers a rs → WellFormed as →
        WellFormed (a :: (rs ++ as))

/-- Cutting here splits no turn. -/
def CleanCut (as : List α) (b : Nat) : Prop :=
  T.WellFormed (as.take b) ∧ T.WellFormed (as.drop b)

/-- Move a boundary inside a turn up to its end, from the item `i` on. -/
def raise (i b : Nat) : List α → Nat
  | [] => b
  | a :: as =>
      let turnEnd := i + 1 + (as.takeWhile T.continues).length
      if T.opens a ∧ i < b ∧ b < turnEnd then raise (i + 1) turnEnd as
      else raise (i + 1) b as

/-- Move a boundary inside a turn down to its start, from the item `i` on. -/
def lower (i b : Nat) : List α → Nat
  | [] => b
  | a :: as =>
      let turnEnd := i + 1 + (as.takeWhile T.continues).length
      if T.opens a ∧ i < b ∧ b < turnEnd then lower (i + 1) i as
      else lower (i + 1) b as

variable {T}

/-! ## Well-formed lists -/

theorem WellFormed.append {as bs : List α} (ha : T.WellFormed as) (hb : T.WellFormed bs) :
    T.WellFormed (as ++ bs) := by
  induction ha with
  | nil => exact hb
  | plain hopens hcont _ ih => exact .plain hopens hcont ih
  | turn hopens hcont hanswers _ ih =>
      rw [List.cons_append, List.append_assoc]
      exact .turn hopens hcont hanswers ih

/-- Items outside any turn are well-formed by themselves. -/
theorem wellFormed_of_plain {as : List α}
    (h : ∀ a ∈ as, T.opens a = false ∧ T.continues a = false) : T.WellFormed as := by
  induction as with
  | nil => exact .nil
  | cons a as ih =>
      obtain ⟨hopens, hcont⟩ := h a List.mem_cons_self
      exact .plain hopens hcont (ih fun b hb => h b (List.mem_cons_of_mem _ hb))

/-- A change of the items that keeps the shape keeps well-formedness. -/
theorem wellFormed_map_iff {f : α → α} (hopens : ∀ a, T.opens (f a) = T.opens a)
    (hcont : ∀ a, T.continues (f a) = T.continues a)
    (hanswers : ∀ a rs, T.answers (f a) (rs.map f) ↔ T.answers a rs) {as : List α} :
    T.WellFormed (as.map f) ↔ T.WellFormed as := by
  constructor
  · intro h
    generalize hbs : as.map f = bs at h
    induction h generalizing as with
    | nil =>
        rw [List.map_eq_nil_iff.mp hbs]
        exact .nil
    | plain ho hc _ ih =>
        obtain ⟨a, as', rfl, rfl, rfl⟩ := List.map_eq_cons_iff.mp hbs
        exact .plain ((hopens a).symm.trans ho) ((hcont a).symm.trans hc) (ih rfl)
    | turn ho hc ha _ ih =>
        obtain ⟨a, rest, rfl, rfl, hrest⟩ := List.map_eq_cons_iff.mp hbs
        obtain ⟨rs, as', rfl, rfl, rfl⟩ := List.map_eq_append_iff.mp hrest
        refine .turn ((hopens a).symm.trans ho) (fun r hr => ?_) ((hanswers a rs).mp ha) (ih rfl)
        rw [← hcont r]
        exact hc (f r) (List.mem_map_of_mem hr)
  · intro h
    induction h with
    | nil => exact .nil
    | plain ho hc _ ih => exact .plain ((hopens _).trans ho) ((hcont _).trans hc) ih
    | turn ho hc ha _ ih =>
        rw [List.map_cons, List.map_append]
        refine .turn ((hopens _).trans ho) (fun r hr => ?_) ((hanswers _ _).mpr ha) ih
        obtain ⟨r', hr', rfl⟩ := List.mem_map.mp hr
        exact (hcont r').trans (hc r' hr')

theorem not_opens_of_continues {a : α} (h : T.continues a = true) : T.opens a = false := by
  cases ha : T.opens a with
  | false => rfl
  | true => exact absurd (T.apart a ha) (by simp [h])

/-- A well-formed list does not start in the middle of a turn. -/
theorem WellFormed.takeWhile_continues {as : List α} (h : T.WellFormed as) :
    as.takeWhile T.continues = [] := by
  cases h with
  | nil => rfl
  | plain _ hcont _ => rw [List.takeWhile_cons_of_neg (by simp [hcont])]
  | turn hopens _ _ _ => rw [List.takeWhile_cons_of_neg (by simp [T.apart _ hopens])]

/-- The items that continue a turn end where the next one starts. -/
theorem WellFormed.takeWhile_turn {rs as : List α} (h : T.WellFormed as)
    (hcont : ∀ r ∈ rs, T.continues r = true) : (rs ++ as).takeWhile T.continues = rs := by
  rw [List.takeWhile_append_of_pos hcont, h.takeWhile_continues, List.append_nil]

/-! ## Clean cuts -/

theorem WellFormed.cleanCut_zero {as : List α} (h : T.WellFormed as) : T.CleanCut as 0 :=
  ⟨.nil, h⟩

theorem WellFormed.cleanCut_length {as : List α} (h : T.WellFormed as) {b : Nat}
    (hb : as.length ≤ b) : T.CleanCut as b := by
  unfold CleanCut
  rw [List.take_of_length_le hb, List.drop_of_length_le hb]
  exact ⟨h, .nil⟩

theorem CleanCut.plain {a : α} {as : List α} {b : Nat} (hopens : T.opens a = false)
    (hcont : T.continues a = false) (h : T.CleanCut as b) : T.CleanCut (a :: as) (b + 1) :=
  ⟨.plain hopens hcont h.1, h.2⟩

theorem CleanCut.turn {a : α} {rs as : List α} {b : Nat} (hopens : T.opens a = true)
    (hcont : ∀ r ∈ rs, T.continues r = true) (hanswers : T.answers a rs)
    (h : T.CleanCut as b) : T.CleanCut (a :: (rs ++ as)) (1 + rs.length + b) := by
  have htake : (a :: (rs ++ as)).take (1 + rs.length + b) = a :: (rs ++ as.take b) := by
    rw [show 1 + rs.length + b = (rs.length + b) + 1 by omega, List.take_succ_cons,
      List.take_length_add_append]
  have hdrop : (a :: (rs ++ as)).drop (1 + rs.length + b) = as.drop b := by
    rw [show 1 + rs.length + b = (rs.length + b) + 1 by omega, List.drop_succ_cons,
      List.drop_length_add_append]
  unfold CleanCut
  rw [htake, hdrop]
  exact ⟨.turn hopens hcont hanswers h.1, h.2⟩

/-! ## Moving boundaries -/

/-- A boundary before the item `i` is not moved. -/
theorem raise_of_le {i b : Nat} (h : b ≤ i) (as : List α) : T.raise i b as = b := by
  induction as generalizing i with
  | nil => rfl
  | cons a as ih =>
      rw [raise]
      rw [if_neg (by omega), ih (by omega)]

theorem lower_of_le {i b : Nat} (h : b ≤ i) (as : List α) : T.lower i b as = b := by
  induction as generalizing i with
  | nil => rfl
  | cons a as ih =>
      rw [lower]
      rw [if_neg (by omega), ih (by omega)]

/-- A boundary after the last item is not moved. -/
theorem lower_of_length_le {i b : Nat} {as : List α} (h : i + as.length ≤ b) :
    T.lower i b as = b := by
  induction as generalizing i with
  | nil => rfl
  | cons a as ih =>
      rw [List.length_cons] at h
      have hrun : (as.takeWhile T.continues).length ≤ as.length :=
        (List.takeWhile_prefix _).length_le
      rw [lower]
      rw [if_neg (by omega), ih (by omega)]

/-- Items that continue a turn move no boundary. -/
theorem raise_append {i b : Nat} {rs : List α} (hcont : ∀ r ∈ rs, T.continues r = true)
    (as : List α) : T.raise i b (rs ++ as) = T.raise (i + rs.length) b as := by
  induction rs generalizing i with
  | nil => rfl
  | cons r rs ih =>
      have hopens := not_opens_of_continues (hcont r List.mem_cons_self)
      rw [List.cons_append, raise]
      rw [if_neg (by simp [hopens]), ih (fun x hx => hcont x (List.mem_cons_of_mem _ hx)),
        List.length_cons]
      congr 1
      omega

theorem lower_append {i b : Nat} {rs : List α} (hcont : ∀ r ∈ rs, T.continues r = true)
    (as : List α) : T.lower i b (rs ++ as) = T.lower (i + rs.length) b as := by
  induction rs generalizing i with
  | nil => rfl
  | cons r rs ih =>
      have hopens := not_opens_of_continues (hcont r List.mem_cons_self)
      rw [List.cons_append, lower]
      rw [if_neg (by simp [hopens]), ih (fun x hx => hcont x (List.mem_cons_of_mem _ hx)),
        List.length_cons]
      congr 1
      omega

/-- **A raised boundary is a clean cut**, and lies no lower. -/
theorem WellFormed.cleanCut_raise {as : List α} (h : T.WellFormed as) {i b : Nat} (hi : i ≤ b)
    (hb : b ≤ i + as.length) :
    ∃ d, T.raise i b as = i + d ∧ b ≤ i + d ∧ d ≤ as.length ∧ T.CleanCut as d := by
  induction h generalizing i b with
  | nil =>
      have : b = i := by simpa using Nat.le_antisymm (by simpa using hb) hi
      exact ⟨0, by rw [raise, this]; rfl, by omega, by simp, WellFormed.nil.cleanCut_zero⟩
  | @plain a as hopens hcont has ih =>
      rw [raise]
      rw [if_neg (by simp [hopens])]
      rcases Nat.eq_or_lt_of_le hi with rfl | hlt
      · exact ⟨0, raise_of_le (Nat.le_succ _) _, by omega, by simp,
          (WellFormed.plain hopens hcont has).cleanCut_zero⟩
      · rw [List.length_cons] at hb
        obtain ⟨d, hd, hbd, hle, hcut⟩ := ih (i := i + 1) (b := b) hlt (by omega)
        exact ⟨d + 1, by omega, by omega, by simpa using hle, hcut.plain hopens hcont⟩
  | @turn a rs as hopens hcont hanswers has ih =>
      rw [List.length_cons, List.length_append] at hb
      rw [raise]
      rw [has.takeWhile_turn hcont, raise_append hcont, raise_append hcont]
      rcases Nat.eq_or_lt_of_le hi with rfl | hlt
      · rw [if_neg (by omega)]
        exact ⟨0, raise_of_le (by omega) _, by omega, by simp,
          (WellFormed.turn hopens hcont hanswers has).cleanCut_zero⟩
      · -- inside the turn the boundary goes to its end; past it, the induction decides
        have hend : ∃ b', (if T.opens a = true ∧ i < b ∧ b < i + 1 + rs.length then
            T.raise (i + 1 + rs.length) (i + 1 + rs.length) as
            else T.raise (i + 1 + rs.length) b as) = T.raise (i + 1 + rs.length) b' as ∧
            b ≤ b' ∧ i + 1 + rs.length ≤ b' ∧ b' ≤ i + 1 + rs.length + as.length := by
          by_cases hin : b < i + 1 + rs.length
          · exact ⟨i + 1 + rs.length, if_pos ⟨hopens, hlt, hin⟩, by omega, le_refl _, by omega⟩
          · exact ⟨b, if_neg (by omega), le_refl _, by omega, by omega⟩
        obtain ⟨b', hb', hbb', hib', hlen⟩ := hend
        obtain ⟨d, hd, hbd, hle, hcut⟩ := ih hib' hlen
        refine ⟨1 + rs.length + d, by rw [hb', hd]; omega, by omega, ?_,
          hcut.turn hopens hcont hanswers⟩
        rw [List.length_cons, List.length_append]
        omega

/-- **A lowered boundary is a clean cut**, and lies no higher. -/
theorem WellFormed.cleanCut_lower {as : List α} (h : T.WellFormed as) {i b : Nat} (hi : i ≤ b)
    (hb : b ≤ i + as.length) :
    ∃ d, T.lower i b as = i + d ∧ i + d ≤ b ∧ T.CleanCut as d := by
  induction h generalizing i b with
  | nil =>
      have : b = i := by simpa using Nat.le_antisymm (by simpa using hb) hi
      exact ⟨0, by rw [lower, this]; rfl, by omega, WellFormed.nil.cleanCut_zero⟩
  | @plain a as hopens hcont has ih =>
      rw [lower]
      rw [if_neg (by simp [hopens])]
      rcases Nat.eq_or_lt_of_le hi with rfl | hlt
      · exact ⟨0, lower_of_le (Nat.le_succ _) _, by omega,
          (WellFormed.plain hopens hcont has).cleanCut_zero⟩
      · rw [List.length_cons] at hb
        obtain ⟨d, hd, hbd, hcut⟩ := ih (i := i + 1) (b := b) hlt (by omega)
        exact ⟨d + 1, by omega, by omega, hcut.plain hopens hcont⟩
  | @turn a rs as hopens hcont hanswers has ih =>
      have hwf := WellFormed.turn hopens hcont hanswers has
      rw [List.length_cons, List.length_append] at hb
      rw [lower]
      rw [has.takeWhile_turn hcont]
      by_cases hin : i < b ∧ b < i + 1 + rs.length
      · rw [if_pos ⟨hopens, hin⟩]
        exact ⟨0, lower_of_le (Nat.le_succ _) _, by omega, hwf.cleanCut_zero⟩
      · rw [if_neg (fun hc => hin hc.2)]
        rcases Nat.eq_or_lt_of_le hi with rfl | hlt
        · exact ⟨0, lower_of_le (Nat.le_succ _) _, by omega, hwf.cleanCut_zero⟩
        · rw [lower_append hcont]
          obtain ⟨d, hd, hbd, hcut⟩ := ih (i := i + 1 + rs.length) (b := b) (by omega) (by omega)
          exact ⟨1 + rs.length + d, by omega, by omega, hcut.turn hopens hcont hanswers⟩

end TurnShape
end VariantOne
