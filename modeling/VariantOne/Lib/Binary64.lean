import Mathlib.Data.Int.Log
import Mathlib.Data.Rat.Floor
import Mathlib.Tactic.Linarith

/-!
# Rounding to doubles

A double is an integer times a power of two; the power depends on the size of the number,
and is the spacing of the doubles around it (`exponent`).  A sum or a product of doubles is
the exact one, rounded to the nearest double, and of two doubles equally near to the one
with the even integer (`round`).  Numbers beyond the largest double are not looked at: they
are rounded as if the exponent had no upper bound.

What arithmetic on doubles says of the exact arithmetic is the bound of the error:
`abs_round_sub_le` for every number, and `abs_round_sub_le_of_lt` for all numbers below a
power of two at once.
-/

namespace VariantOne
namespace Binary64

/-- The integer nearest to a number, and of two the even one. -/
def nearestEven (x : ℚ) : ℤ :=
  if x - ⌊x⌋ < 1 / 2 then ⌊x⌋
  else if 1 / 2 < x - ⌊x⌋ then ⌊x⌋ + 1
  else if ⌊x⌋ % 2 = 0 then ⌊x⌋
  else ⌊x⌋ + 1

/-- The doubles around a number are this power of two apart. -/
def exponent (x : ℚ) : ℤ := max (Int.log 2 |x| - 52) (-1074)

/-- The double nearest to a number. -/
def round (x : ℚ) : ℚ := nearestEven (x / 2 ^ exponent x) * 2 ^ exponent x

/-- `x + y` -/
def add (x y : ℚ) : ℚ := round (x + y)

/-- `x * y` -/
def mul (x y : ℚ) : ℚ := round (x * y)

theorem abs_nearestEven_sub_le (x : ℚ) : |nearestEven x - x| ≤ 1 / 2 := by
  have hfloor := Int.floor_le x
  have hlt := Int.lt_floor_add_one x
  rw [abs_le]
  unfold nearestEven
  split_ifs with hlow hhigh heven
  · constructor <;> linarith
  · push_cast
    constructor <;> linarith
  · constructor <;> linarith
  · push_cast
    constructor <;> linarith

/-- The error is at most half the spacing. -/
theorem abs_round_sub_le (x : ℚ) : |round x - x| ≤ 2 ^ exponent x / 2 := by
  have hpos : (0 : ℚ) < 2 ^ exponent x := zpow_pos two_pos _
  have hscaled : round x - x = (nearestEven (x / 2 ^ exponent x) - x / 2 ^ exponent x) * 2 ^ exponent x := by
    rw [round, sub_mul, div_mul_cancel₀ x hpos.ne']
  have hnear := abs_nearestEven_sub_le (x / 2 ^ exponent x)
  rw [hscaled, abs_mul, abs_of_pos hpos]
  calc |(nearestEven (x / 2 ^ exponent x) : ℚ) - x / 2 ^ exponent x| * 2 ^ exponent x
      ≤ 1 / 2 * 2 ^ exponent x := mul_le_mul_of_nonneg_right hnear hpos.le
    _ = 2 ^ exponent x / 2 := by ring

/-- Doubles are closer to each other below a power of two. -/
theorem exponent_le {x : ℚ} {n : ℤ} (hn : -1074 ≤ n) (hx : |x| < 2 ^ (n + 53)) (hne : x ≠ 0) :
    exponent x ≤ n := by
  have hlog : Int.log 2 |x| < n + 53 :=
    (Int.lt_zpow_iff_log_lt one_lt_two (abs_pos.mpr hne)).mp (by exact_mod_cast hx)
  exact max_le (by omega) hn

/-- The error below a power of two. -/
theorem abs_round_sub_le_of_lt {x : ℚ} {n : ℤ} (hn : -1074 ≤ n) (hx : |x| < 2 ^ (n + 53)) :
    |round x - x| ≤ 2 ^ n / 2 := by
  by_cases hzero : x = 0
  · have hround : round x - x = 0 := by
      rw [hzero]
      decide +kernel
    rw [hround, abs_zero]
    exact div_nonneg (zpow_nonneg zero_le_two n) zero_le_two
  · have hpow : (2 : ℚ) ^ exponent x ≤ 2 ^ n := zpow_le_zpow_right₀ one_le_two (exponent_le hn hx hzero)
    have herror := abs_round_sub_le x
    linarith

/-- A third is rounded in its last place, and a number halfway between two doubles to the even one. -/
example : round (1 / 3) = 6004799503160661 / 2 ^ 54 ∧ round (2 ^ 53 + 1) = 2 ^ 53 := by decide +kernel

end Binary64
end VariantOne
