import Mathlib.Data.List.Basic
import Mathlib.Logic.Relation

/-!
# Following a partial function

A trail goes from an item to the next one.  It ends where there is no next item, and also at an item
it has been at before: it ends on every function that is defined on finitely many items, whether
there are cycles or not.

The items that were seen lie in the domain and no item is seen twice, so one unit of fuel for each item of
the domain is enough, whatever the function is.  `mem_of_closed` finds what a trail can reach inside a set
that is closed under the function.
-/

namespace VariantOne
namespace Trail

variable {ι : Type} [DecidableEq ι] {next next' : ι → Option ι}

/-- The items on the trail of an item. -/
def Reaches (next : ι → Option ι) : ι → ι → Prop := Relation.ReflTransGen fun x y => next x = some y

/-- The items a trail has been at; `none` if it has not ended. -/
def follow (next : ι → Option ι) : Nat → List ι → Option ι → Option (List ι)
  | _, visited, none => some visited
  | 0, visited, some x => if x ∈ visited then some visited else none
  | n + 1, visited, some x =>
      if x ∈ visited then some visited else follow next n (visited ++ [x]) (next x)

/-- **A trail ends**: it leaves an item of the domain behind with every step but the last. -/
theorem follow_ne_none (domain : List ι) (hdomain : ∀ x y, next x = some y → x ∈ domain) {n : Nat}
    {visited : List ι} (hn : (domain.filter (· ∉ visited)).length < n) (current : Option ι) :
    follow next n visited current ≠ none := by
  induction n generalizing visited current with
  | zero => exact absurd hn (Nat.not_lt_zero _)
  | succ n ih =>
      cases current with
      | none => simp [follow]
      | some x =>
          rw [follow]
          split
          · simp
          · rename_i hx
            cases hnext : next x with
            | none => cases n <;> simp [follow]
            | some y =>
                refine ih ?_ _
                have hsub : (domain.filter (· ∉ visited ++ [x])) =
                    (domain.filter (· ∉ visited)).filter (· ≠ x) := by
                  rw [List.filter_filter]
                  refine List.filter_congr fun z _ => ?_
                  simp [and_comm]
                have hlt : ((domain.filter (· ∉ visited)).filter (· ≠ x)).length <
                    (domain.filter (· ∉ visited)).length := by
                  refine List.length_filter_lt_length_iff_exists.mpr ⟨x, ?_, by simp⟩
                  exact List.mem_filter.mpr ⟨hdomain x y hnext, by simpa using hx⟩
                rw [hsub]
                omega

omit [DecidableEq ι] in
/-- What has the first item and the next one of each of its items has the whole trail. -/
theorem mem_of_closed {seen : List ι} {x y : ι} (hstart : x ∈ seen)
    (hclosed : ∀ v ∈ seen, ∀ z, next v = some z → z ∈ seen) (hreach : Reaches next x y) : y ∈ seen := by
  induction hreach with
  | refl => exact hstart
  | tail _ hstep ih => exact hclosed _ ih _ hstep

omit [DecidableEq ι] in
/-- A function that changes at an item that is new has the trails it had. -/
theorem reaches_congr {fresh x y : ι} (hsame : ∀ z, z ≠ fresh → next' z = next z)
    (hnew : ∀ z, next z ≠ some fresh) (hx : x ≠ fresh) : Reaches next' x y ↔ Reaches next x y := by
  have hne : ∀ {z}, Reaches next x z → z ≠ fresh := by
    intro z hreach
    cases hreach with
    | refl => exact hx
    | tail _ hstep =>
        rintro rfl
        exact hnew _ hstep
  constructor
  · intro hreach
    induction hreach with
    | refl => exact .refl
    | tail _ hstep ih => exact ih.tail (by rw [← hsame _ (hne ih)]; exact hstep)
  · intro hreach
    induction hreach with
    | refl => exact .refl
    | tail hreach hstep ih => exact ih.tail (by rw [hsame _ (hne hreach)]; exact hstep)

end Trail
end VariantOne
