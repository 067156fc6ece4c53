import Mathlib.Data.List.Basic
import Mathlib.Order.Basic

/-!
# Fencing tokens

A fence guards a resource that one party at a time may hold.  Every grant takes
the next number, its *epoch*, and a party proves that it still holds the
resource by its name and its epoch.  What makes this safe does not depend on
clocks or on the parties: epochs only grow, and whoever holds the resource is
the party of the newest grant.

`Fenced grants f` says this of the list of grants given so far, newest first,
and of a fence `f`.  The three ways a fence can move (`Fenced.grant`,
`Fenced.drop`, and not at all) keep it.
-/

namespace VariantOne

/-- The epoch of the last grant and the party that holds the resource. -/
structure Fence (ω : Type) where
  epoch : Nat
  holder : Option ω

/-- **The fencing discipline.**  One grant for each epoch up to the current one,
epochs strictly decreasing from the newest grant on, and a holder, if there is
one, is the party of the newest grant. -/
structure Fenced {ω : Type} (grants : List (ω × Nat)) (f : Fence ω) : Prop where
  decreasing : grants.Pairwise fun a b => b.2 < a.2
  bounded : ∀ g ∈ grants, g.2 ≤ f.epoch
  counted : grants.length = f.epoch
  held : ∀ o, f.holder = some o → grants.head? = some (o, f.epoch)

namespace Fenced

variable {ω : Type} {grants : List (ω × Nat)} {f : Fence ω}

/-- Nothing granted yet. -/
theorem initial : Fenced ([] : List (ω × Nat)) ⟨0, none⟩ where
  decreasing := List.Pairwise.nil
  bounded := by simp
  counted := rfl
  held := by simp

/-- Granting takes the next epoch. -/
theorem grant (h : Fenced grants f) (o : ω) :
    Fenced ((o, f.epoch + 1) :: grants) ⟨f.epoch + 1, some o⟩ where
  decreasing := List.pairwise_cons.mpr ⟨fun g hg => Nat.lt_succ_of_le (h.bounded g hg), h.decreasing⟩
  bounded := by
    intro g hg
    rcases List.mem_cons.mp hg with rfl | hg
    · exact Nat.le_refl _
    · exact Nat.le_succ_of_le (h.bounded g hg)
  counted := by rw [List.length_cons, h.counted]
  held := by
    intro o' ho'
    rw [Option.some.inj ho']
    rfl

/-- Giving the resource back keeps the epoch. -/
theorem drop (h : Fenced grants f) : Fenced grants ⟨f.epoch, none⟩ where
  decreasing := h.decreasing
  bounded := h.bounded
  counted := h.counted
  held := by simp

/-- **A superseded grant is fenced off.**  A party that shows the current epoch
and the holder's name was given the newest grant. -/
theorem newest_of_held (h : Fenced grants f) {o : ω} {e : Nat} (ho : f.holder = some o)
    (he : f.epoch = e) : grants.head? = some (o, e) := by
  rw [← he]
  exact h.held o ho

end Fenced
end VariantOne
