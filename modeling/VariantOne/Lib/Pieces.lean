import Mathlib.Data.List.Basic

/-!
# Cutting a list into pieces

A list is cut into pieces of one size, the last of which may be shorter: there are `count` of them, and the
piece at an index is what stands in the list from its multiple of the size on.  Every one of them has
something in it (`piece_ne_nil`) and none is longer than the size (`length_piece_le`), so a writer that sends
a list in pieces sends no empty one and none that is too long.
-/

namespace VariantOne
namespace Pieces

variable {α : Type*}

/-- How many pieces there are. -/
def count (size : Nat) (data : List α) : Nat := (data.length + size - 1) / size

/-- The piece of an index. -/
def piece (size : Nat) (data : List α) (index : Nat) : List α := (data.drop (index * size)).take size

theorem length_le_count_mul {size : Nat} (hsize : 0 < size) (data : List α) :
    data.length ≤ count size data * size := by
  unfold count
  have hdiv := Nat.div_add_mod (data.length + size - 1) size
  have hmod := Nat.mod_lt (data.length + size - 1) hsize
  rw [Nat.mul_comm] at hdiv
  omega

theorem length_piece_le (size : Nat) (data : List α) (index : Nat) :
    (piece size data index).length ≤ size := List.length_take_le _ _

/-- A piece of an index in range starts before the end. -/
theorem mul_lt_of_lt_count {size : Nat} (hsize : 0 < size) {data : List α} {index : Nat}
    (h : index < count size data) : index * size < data.length := by
  unfold count at h
  rw [Nat.lt_div_iff_mul_lt hsize] at h
  omega

theorem piece_ne_nil {size : Nat} (hsize : 0 < size) {data : List α} {index : Nat}
    (h : index < count size data) : piece size data index ≠ [] := by
  have hlt := mul_lt_of_lt_count hsize h
  intro hnil
  have hlength := congrArg List.length hnil
  unfold piece at hlength
  rw [List.length_take, List.length_drop, List.length_nil] at hlength
  omega

/-- There are at most as many pieces as items. -/
theorem count_le_length {size : Nat} (hsize : 0 < size) (data : List α) : count size data ≤ data.length := by
  by_contra hlt
  have hlast : data.length * size < data.length := mul_lt_of_lt_count hsize (by omega)
  have hle := Nat.le_mul_of_pos_right data.length hsize
  omega

theorem count_pos {size : Nat} (hsize : 0 < size) {data : List α} (hne : data ≠ []) :
    0 < count size data := by
  have hlength := List.length_pos_iff.mpr hne
  exact Nat.div_pos (by omega) hsize

end Pieces
end VariantOne
