import Mathlib.Data.List.InsertIdx
import Mathlib.Data.List.Infix
import VariantOne.Lib.Binding

/-!
# Items put into a list after what they belong to

Items are put into a list one by one, each right after the last entry it answers to; no item answers
to another.  So an entry is followed by its items in reverse order (`attached`).

The list may be made of groups, and an item belongs after the last group it answers to, in the given
order (`grouped`).  `flat_attached_eq_grouped_iff` says when the two are the same.
-/

namespace VariantOne
namespace Attach

variable {α β γ : Type}

/-! ## 1.  Entries with their items -/

/-- The list of the entries, each followed by its items. -/
def flat : List (α × List β) → List (α ⊕ β)
  | [] => []
  | (a, bs) :: rows => .inl a :: (bs.map .inr ++ flat rows)

theorem flat_append (rows rows' : List (α × List β)) : flat (rows ++ rows') = flat rows ++ flat rows' := by
  induction rows with
  | nil => rfl
  | cons row rows ih => rw [List.cons_append, flat, flat, ih, List.cons_append, List.append_assoc]

theorem flat_bare (as : List α) : flat (as.map fun a => (a, ([] : List β))) = as.map .inl := by
  induction as with
  | nil => rfl
  | cons a as ih => rw [List.map_cons, flat, ih, List.map_nil, List.nil_append, List.map_cons]

/-- Items up to the next entry. -/
theorem items_injective {bs bs' : List β} {rows rows' : List (α × List β)}
    (h : bs.map Sum.inr ++ flat rows = bs'.map Sum.inr ++ flat rows') :
    bs = bs' ∧ flat rows = flat rows' := by
  induction bs generalizing bs' with
  | nil =>
      cases bs' with
      | nil => exact ⟨rfl, h⟩
      | cons b' bs' =>
          cases rows with
          | nil => cases h
          | cons row rows => cases h
  | cons b bs ih =>
      cases bs' with
      | nil =>
          cases rows' with
          | nil => cases h
          | cons row rows => cases h
      | cons b' bs' =>
          rw [List.map_cons, List.map_cons, List.cons_append, List.cons_append] at h
          obtain ⟨hb, hrest⟩ := List.cons.inj h
          obtain ⟨rfl, hflat⟩ := ih hrest
          exact ⟨by rw [Sum.inr.inj hb], hflat⟩

/-- **The list tells which items follow which entry.** -/
theorem flat_injective {rows rows' : List (α × List β)} (h : flat rows = flat rows') : rows = rows' := by
  induction rows generalizing rows' with
  | nil =>
      cases rows' with
      | nil => rfl
      | cons row rows => cases h
  | cons row rows ih =>
      cases rows' with
      | nil => cases h
      | cons row' rows' =>
          obtain ⟨ha, hrest⟩ := List.cons.inj h
          obtain ⟨hbs, hflat⟩ := items_injective hrest
          rw [Prod.ext (Sum.inl.inj ha) hbs, ih hflat]

/-! ## 2.  One item -/

/-- Insert after the last entry with a property. -/
def insertAfterLast (p : γ → Bool) (x : γ) : List γ → List γ
  | [] => []
  | y :: ys =>
      if ys.any p then y :: insertAfterLast p x ys
      else if p y then y :: x :: ys
      else y :: ys

theorem lastIdx?_isSome_iff (p : γ → Bool) (ys : List γ) : (lastIdx? p ys).isSome = ys.any p := by
  induction ys with
  | nil => rfl
  | cons y ys ih =>
      rw [lastIdx?, List.any_cons, ← ih]
      cases lastIdx? p ys with
      | some j => simp
      | none => cases p y <;> rfl

theorem insertIdx_lastIdx {p : γ → Bool} {x : γ} {ys : List γ} {i : Nat} (h : lastIdx? p ys = some i) :
    ys.insertIdx (i + 1) x = insertAfterLast p x ys := by
  induction ys generalizing i with
  | nil => cases h
  | cons y ys ih =>
      have hany := lastIdx?_isSome_iff p ys
      rw [lastIdx?] at h
      rw [insertAfterLast]
      cases hlast : lastIdx? p ys with
      | some j =>
          rw [hlast] at h hany
          obtain rfl := Option.some.inj h
          rw [← hany, if_pos (by rfl), List.insertIdx_succ_cons, ih hlast]
      | none =>
          rw [hlast] at h hany
          dsimp only at h
          rw [← hany, if_neg (by simp)]
          split at h
          · rename_i hpy
            obtain rfl := Option.some.inj h
            rw [if_pos hpy, List.insertIdx_succ_cons, List.insertIdx_zero]
          · cases h

theorem map_insertAfterLast {δ : Type} {p : γ → Bool} {q : δ → Bool} {f : γ → δ} (hq : ∀ y, q (f y) = p y)
    (x : γ) (ys : List γ) :
    (insertAfterLast p x ys).map f = insertAfterLast q (f x) (ys.map f) := by
  have hany : ∀ zs : List γ, (zs.map f).any q = zs.any p := fun zs => by
    rw [List.any_map, show q ∘ f = p from funext hq]
  induction ys with
  | nil => rfl
  | cons y ys ih =>
      rw [insertAfterLast, List.map_cons, insertAfterLast, hany, hq]
      split
      · rw [List.map_cons, ih]
      · split <;> rfl

/-- The item in front of those of the last entry with a property. -/
def attachLast (p : α → Bool) (b : β) : List (α × List β) → List (α × List β)
  | [] => []
  | (a, bs) :: rows =>
      if rows.any (p ·.1) then (a, bs) :: attachLast p b rows
      else if p a then (a, b :: bs) :: rows
      else (a, bs) :: rows

theorem any_items (p : α → Bool) (bs : List β) :
    (bs.map Sum.inr).any (Sum.elim p fun _ => false) = false :=
  List.any_eq_false.mpr (by simp)

theorem any_flat (p : α → Bool) (rows : List (α × List β)) :
    (flat rows).any (Sum.elim p fun _ => false) = rows.any (p ·.1) := by
  induction rows with
  | nil => rfl
  | cons row rows ih =>
      rw [flat, List.any_cons, List.any_append, any_items, Bool.false_or, ih, List.any_cons]
      rfl

theorem insertAfterLast_items (p : α → Bool) (b : β) (bs : List β) (rows : List (α × List β))
    (h : rows.any (p ·.1) = true) :
    insertAfterLast (Sum.elim p fun _ => false) (.inr b) (bs.map .inr ++ flat rows) =
      bs.map .inr ++ insertAfterLast (Sum.elim p fun _ => false) (.inr b) (flat rows) := by
  induction bs with
  | nil => rfl
  | cons b' bs ih =>
      rw [List.map_cons, List.cons_append, insertAfterLast, if_pos, ih, List.cons_append]
      rw [List.any_append, any_flat, h, Bool.or_true]

theorem insertAfterLast_flat (p : α → Bool) (b : β) (rows : List (α × List β)) :
    insertAfterLast (Sum.elim p fun _ => false) (.inr b) (flat rows) = flat (attachLast p b rows) := by
  induction rows with
  | nil => rfl
  | cons row rows ih =>
      obtain ⟨a, bs⟩ := row
      have hany : (bs.map Sum.inr ++ flat rows).any (Sum.elim p fun _ => false) = rows.any (p ·.1) := by
        rw [List.any_append, any_items, Bool.false_or, any_flat]
      rw [flat, insertAfterLast, hany, attachLast]
      split
      · rename_i hrows
        rw [insertAfterLast_items p b bs rows hrows, ih, flat]
      · split
        · rename_i hp
          rw [Sum.elim_inl] at hp
          rw [if_pos hp, flat, List.map_cons, List.cons_append]
        · rename_i hp
          rw [Sum.elim_inl] at hp
          rw [if_neg hp, flat]

/-! ## 3.  All items -/

variable (answers : β → α → Bool) (bs : List β)

/-- The entries, each with the items for which it is the last one they answer to. -/
def attached : List α → List (α × List β)
  | [] => []
  | a :: as => (a, (bs.filter fun b => answers b a && !as.any (answers b)).reverse) :: attached as

/-- Those of the entries at the front of a list. -/
def attachedTo (later : List α) : List α → List (α × List β)
  | [] => []
  | a :: as =>
      (a, (bs.filter fun b => answers b a && !(as ++ later).any (answers b)).reverse) :: attachedTo later as

variable {answers bs}

theorem attached_nil (as : List α) : attached answers [] as = as.map fun a => (a, []) := by
  induction as with
  | nil => rfl
  | cons a as ih => rw [attached, ih, List.map_cons, List.filter_nil, List.reverse_nil]

theorem inl_mem_flat_attached {a : α} {as : List α} (h : a ∈ as) :
    Sum.inl a ∈ flat (attached answers bs as) := by
  induction as with
  | nil => cases h
  | cons a' as ih =>
      rw [attached, flat]
      rcases List.mem_cons.mp h with rfl | h
      · exact List.mem_cons_self
      · exact List.mem_cons_of_mem _ (List.mem_append_right _ (ih h))

theorem attached_append (as later : List α) :
    attached answers bs (as ++ later) = attachedTo answers bs later as ++ attached answers bs later := by
  induction as with
  | nil => rfl
  | cons a as ih => rw [List.cons_append, attached, ih, attachedTo, List.cons_append]

theorem attachedTo_append (later as as' : List α) :
    attachedTo answers bs later (as ++ as') =
      attachedTo answers bs (as' ++ later) as ++ attachedTo answers bs later as' := by
  induction as with
  | nil => rfl
  | cons a as ih => rw [List.cons_append, attachedTo, ih, attachedTo, List.cons_append, List.append_assoc]

variable (answers bs) in
theorem map_fst_attachedTo (later as : List α) : (attachedTo answers bs later as).map Prod.fst = as := by
  induction as with
  | nil => rfl
  | cons a as ih => rw [attachedTo, List.map_cons, ih]

theorem any_attached (p : α → Bool) (as : List α) : (attached answers bs as).any (p ·.1) = as.any p := by
  induction as with
  | nil => rfl
  | cons a as ih => rw [attached, List.any_cons, ih, List.any_cons]

theorem attachLast_of_none {p : α → Bool} {b : β} {rows : List (α × List β)} (h : rows.any (p ·.1) = false) :
    attachLast p b rows = rows := by
  cases rows with
  | nil => rfl
  | cons row rows =>
      rw [List.any_cons, Bool.or_eq_false_iff] at h
      rw [attachLast, if_neg (by simp [h.2]), if_neg (by simp [h.1])]

/-- **One more item** goes in front of those of the last entry it answers to. -/
theorem attached_snoc (b : β) (as : List α) :
    attached answers (bs ++ [b]) as = attachLast (answers b) b (attached answers bs as) := by
  induction as with
  | nil => rfl
  | cons a as ih =>
      rw [attached, attached, attachLast, any_attached, ih, List.filter_append, List.reverse_append]
      cases hany : as.any (answers b) with
      | true =>
          rw [if_pos rfl, List.filter_cons_of_neg (by simp [hany])]
          rfl
      | false =>
          rw [if_neg (by simp), attachLast_of_none ((any_attached _ _).trans hany)]
          cases ha : answers b a with
          | true =>
              rw [if_pos rfl, List.filter_cons_of_pos (by simp [hany, ha])]
              rfl
          | false =>
              rw [if_neg (by simp), List.filter_cons_of_neg (by simp [ha])]
              rfl

/-! ## 4.  Groups -/

variable (answers bs)

/-- The items of a group: they answer to it and to nothing later. -/
def ofGroup (as later : List α) : List β :=
  bs.filter fun b => as.any (answers b) && !later.any (answers b)

/-- The groups, each followed by its items in the given order. -/
def grouped : List (List α) → List (α ⊕ β)
  | [] => []
  | as :: later => as.map .inl ++ (ofGroup answers bs as later.flatten).map .inr ++ grouped later

/-- The items of a group answer to its last entry, and their order is that of their reverse. -/
structure AtEnd (as later : List α) : Prop where
  last : ∀ b ∈ ofGroup answers bs as later, ∀ a, as.getLast? = some a → answers b a = true
  order : (ofGroup answers bs as later).reverse = ofGroup answers bs as later

variable {answers bs}

theorem attachedTo_bare_iff (later as : List α) :
    attachedTo answers bs later as = as.map (fun a => (a, [])) ↔
      ∀ b ∈ bs, as.any (answers b) = true → later.any (answers b) = true := by
  induction as with
  | nil => simp [attachedTo]
  | cons a as ih =>
      rw [attachedTo, List.map_cons, List.cons_eq_cons, ih, Prod.mk.injEq, List.reverse_eq_nil_iff,
        List.filter_eq_nil_iff]
      constructor
      · rintro ⟨⟨-, hhead⟩, htail⟩ b hb hany
        have hno := hhead b hb
        by_cases hrest : as.any (answers b) = true
        · exact htail b hb hrest
        · rw [Bool.not_eq_true] at hrest
          rw [List.any_cons, hrest, Bool.or_false] at hany
          simpa [List.any_append, hrest, hany] using hno
      · intro hall
        refine ⟨⟨rfl, fun b hb hhead => ?_⟩, fun b hb hany => hall b hb (by rw [List.any_cons, hany, Bool.or_true])⟩
        rw [Bool.and_eq_true, Bool.not_eq_true', List.any_append, Bool.or_eq_false_iff] at hhead
        have hlater := hall b hb (by rw [List.any_cons, hhead.1, Bool.true_or])
        rw [hhead.2.2] at hlater
        cases hlater

/-- Items that all answer to the last entry of their group are those of that entry. -/
theorem filter_last_eq_ofGroup {later init : List α} {z : α}
    (hlast : ∀ b ∈ ofGroup answers bs (init ++ [z]) later, answers b z = true) :
    (bs.filter fun b => answers b z && !later.any (answers b)) = ofGroup answers bs (init ++ [z]) later := by
  refine List.filter_congr fun b hb => ?_
  rw [Bool.eq_iff_iff]
  constructor
  · intro h
    simp only [Bool.and_eq_true] at h
    simp [h.1, h.2]
  · intro h
    have hz := hlast b (List.mem_filter.mpr ⟨hb, h⟩)
    simp only [Bool.and_eq_true] at h
    simp [hz, h.2]

variable (answers bs) in
/-- **One group.** -/
theorem attachedTo_eq_iff (later init : List α) (z : α) :
    attachedTo answers bs later (init ++ [z]) =
        init.map (fun a => (a, [])) ++ [(z, ofGroup answers bs (init ++ [z]) later)] ↔
      AtEnd answers bs (init ++ [z]) later := by
  have hmine : ∀ b ∈ bs, (b ∈ ofGroup answers bs (init ++ [z]) later ↔
      (init.any (answers b) = true ∨ answers b z = true) ∧ later.any (answers b) = false) := fun b hb => by
    simp [ofGroup, hb]
  have hlen : (attachedTo answers bs ([z] ++ later) init).length = (init.map fun a => (a, ([] : List β))).length := by
    have hfst := congrArg List.length (map_fst_attachedTo answers bs ([z] ++ later) init)
    rw [List.length_map] at hfst
    rw [hfst, List.length_map]
  have hsplit : attachedTo answers bs later (init ++ [z]) =
      init.map (fun a => (a, [])) ++ [(z, ofGroup answers bs (init ++ [z]) later)] ↔
        (∀ b ∈ bs, init.any (answers b) = true → ([z] ++ later).any (answers b) = true) ∧
          (bs.filter fun b => answers b z && !later.any (answers b)).reverse =
            ofGroup answers bs (init ++ [z]) later := by
    rw [attachedTo_append, ← attachedTo_bare_iff]
    constructor
    · intro h
      obtain ⟨hinit, hlast⟩ := List.append_inj h hlen
      exact ⟨hinit, (Prod.mk.inj (List.cons.inj hlast).1).2⟩
    · rintro ⟨hinit, hlast⟩
      rw [hinit, ← hlast]
      rfl
  rw [hsplit]
  constructor
  · rintro ⟨hinit, hreverse⟩
    have hlast : ∀ b ∈ ofGroup answers bs (init ++ [z]) later, answers b z = true := fun b hb => by
      obtain ⟨hor, hlater⟩ := (hmine b (List.mem_of_mem_filter hb)).mp hb
      rcases hor with hany | hz
      · have hafter := hinit b (List.mem_of_mem_filter hb) hany
        simpa [hlater] using hafter
      · exact hz
    refine ⟨fun b hb a ha => ?_, ?_⟩
    · rw [List.getLast?_concat, Option.some.injEq] at ha
      exact ha ▸ hlast b hb
    · rw [filter_last_eq_ofGroup hlast] at hreverse
      exact hreverse
  · rintro ⟨hlast, hreverse⟩
    have hz : ∀ b ∈ ofGroup answers bs (init ++ [z]) later, answers b z = true := fun b hb =>
      hlast b hb z List.getLast?_concat
    refine ⟨fun b hb hany => ?_, by rw [filter_last_eq_ofGroup hz, hreverse]⟩
    cases hlater : later.any (answers b) with
    | true => rw [List.any_append, hlater, Bool.or_true]
    | false =>
        have hans := hz b ((hmine b hb).mpr ⟨.inl hany, hlater⟩)
        simp [hans]

variable (answers bs) in
theorem grouped_eq_flat {groups : List (List α)} (hne : ∀ as ∈ groups, as ≠ []) :
    ∃ rows, grouped answers bs groups = flat rows := by
  induction groups with
  | nil => exact ⟨[], rfl⟩
  | cons as groups ih =>
      obtain ⟨rows, hrows⟩ := ih fun bs hbs => hne bs (List.mem_cons_of_mem _ hbs)
      obtain ⟨init, z, rfl⟩ : ∃ init z, as = init ++ [z] :=
        ⟨_, _, (List.dropLast_append_getLast (hne as List.mem_cons_self)).symm⟩
      refine ⟨init.map (fun a => (a, [])) ++ (z, ofGroup answers bs (init ++ [z]) groups.flatten) :: rows, ?_⟩
      rw [grouped, hrows, flat_append, flat_bare, List.map_append, flat]
      simp

variable (answers bs) in
/-- **When the items are where the groups want them.** -/
theorem flat_attached_eq_grouped_iff {groups : List (List α)} (hne : ∀ as ∈ groups, as ≠ []) :
    flat (attached answers bs groups.flatten) = grouped answers bs groups ↔
      ∀ before as later, groups = before ++ as :: later → AtEnd answers bs as later.flatten := by
  induction groups with
  | nil => exact ⟨fun _ before as later h => absurd h (by simp), fun _ => rfl⟩
  | cons as groups ih =>
      have ih := ih fun bs hbs => hne bs (List.mem_cons_of_mem _ hbs)
      obtain ⟨init, z, rfl⟩ : ∃ init z, as = init ++ [z] :=
        ⟨_, _, (List.dropLast_append_getLast (hne as List.mem_cons_self)).symm⟩
      obtain ⟨rows, hrows⟩ := grouped_eq_flat answers bs fun bs hbs => hne bs (List.mem_cons_of_mem _ hbs)
      have hone := attachedTo_eq_iff answers bs groups.flatten init z
      have hhead : (init ++ [z]).map Sum.inl ++
          (ofGroup answers bs (init ++ [z]) groups.flatten).map Sum.inr =
            flat (init.map (fun a => (a, [])) ++ [(z, ofGroup answers bs (init ++ [z]) groups.flatten)]) := by
        rw [flat_append, flat_bare, List.map_append, List.append_assoc]
        simp [flat]
      rw [List.flatten_cons, attached_append, flat_append, grouped, hhead]
      constructor
      · intro h before xs later heq
        rw [hrows, ← flat_append, ← flat_append] at h
        have hlen : (attachedTo answers bs groups.flatten (init ++ [z])).length =
            (init.map (fun a => (a, [])) ++ [(z, ofGroup answers bs (init ++ [z]) groups.flatten)]).length := by
          have hfst := congrArg List.length
            (map_fst_attachedTo answers bs groups.flatten (init ++ [z]))
          rw [List.length_map] at hfst
          simpa using hfst
        obtain ⟨hthis, hrest⟩ := List.append_inj (flat_injective h) hlen
        rcases List.cons_eq_append_iff.mp heq with ⟨rfl, hcons⟩ | ⟨before, rfl, htail⟩
        · obtain ⟨rfl, rfl⟩ := List.cons.inj hcons
          exact hone.mp hthis
        · exact ih.mp (by rw [hrest, hrows]) before xs later htail
      · intro hall
        rw [hone.mpr (hall [] _ _ rfl), (ih.mpr fun before xs later heq =>
          hall (_ :: before) xs later (by rw [heq]; rfl))]

end Attach
end VariantOne
