import Mathlib.Algebra.Order.Field.Basic
import Mathlib.Analysis.SpecialFunctions.Pow.Real
import Mathlib.Tactic.Ring
import PanZoom.Scalar

/-!
# Exact arithmetic

The laws of the geometry are said over an ordered field, where nothing is rounded: every number is
finite, a pivot is any number but zero, and numbers agree if they are equal. What a field does not
settle by itself is a parameter:

* `PositiveReading`: powers of which no more is known than that they are positive, the greatest power,
  and the steps to a bound. The geometry asks for no more than that;
* `ExactReading`: powers that also turn sums into products, such as those of the real numbers.
-/

namespace PanZoom

/-- How powers, limits and counts of steps are read in an ordered field. Nothing is asked of the
powers of a base that no settings allow. -/
class PositiveReading (K : Type) [Field K] [LinearOrder K] [IsStrictOrderedRing K] where
  power : K → K → K
  power_pos {base : K} (x : K) : 1 < base → 0 < power base x
  powerLimit : K → K
  stepsPast : K → Nat

/-- A reading with the laws of powers. -/
class ExactReading (K : Type) [Field K] [LinearOrder K] [IsStrictOrderedRing K] extends
    PositiveReading K where
  power_zero {base : K} : 1 < base → power base 0 = 1
  power_add {base : K} (x y : K) : 1 < base → power base (x + y) = power base x * power base y
  powerLimit_nonneg {base : K} : 1 < base → 0 ≤ powerLimit base

noncomputable instance : ExactReading ℝ where
  power base x := base ^ x
  power_pos x h := Real.rpow_pos_of_pos (by linarith) x
  power_zero _ := Real.rpow_zero _
  power_add x y h := Real.rpow_add (by linarith) x y
  powerLimit base := ⌊Real.log (10 ^ 18) / Real.log base⌋
  powerLimit_nonneg h := by
    have hlog : 0 ≤ Real.log (10 ^ 18) := Real.log_nonneg (by norm_num)
    exact_mod_cast Int.floor_nonneg.mpr (div_nonneg hlog (Real.log_pos h).le)
  stepsPast bound := ⌊bound⌋₊ + 1

variable {K : Type} [Field K] [LinearOrder K] [IsStrictOrderedRing K] [PositiveReading K]

instance exactScalar : Scalar K where
  zero := 0
  one := 1
  add := (· + ·)
  sub := (· - ·)
  mul := (· * ·)
  div := (· / ·)
  neg := (- ·)
  lt := (· < ·)
  le := (· ≤ ·)
  decidableLT := inferInstanceAs (DecidableLT K)
  decidableLE := inferInstanceAs (DecidableLE K)
  agrees a b := decide (a = b)
  abs a := |a|
  isFinite _ := true
  ofCount n := n.toNat
  sizeLE a b := decide (|a| ≤ |b|)
  isPivot a := decide (a ≠ 0)
  pow := PositiveReading.power
  powerLimit := PositiveReading.powerLimit
  leastExtent := 1 / 10 ^ 6
  stepsPast := PositiveReading.stepsPast

namespace Scalar

@[simp] theorem isFinite_exact (x : K) : Scalar.isFinite x = true := rfl

@[simp] theorem agrees_exact (x y : K) : Scalar.agrees x y = decide (x = y) := rfl

@[simp] theorem sizeLE_exact (x y : K) : Scalar.sizeLE x y = decide (|x| ≤ |y|) := rfl

@[simp] theorem isPivot_exact (x : K) : Scalar.isPivot x = decide (x ≠ 0) := rfl

/-- Between ordered bounds, the nearest number is found. -/
theorem clamp?_of_le {low high : K} (h : low ≤ high) (x : K) :
    clamp? low high x = some (max low (min high x)) := by
  rw [clamp?, if_pos h]
  refine congrArg some ?_
  show (if high < (if x < low then low else x) then high else if x < low then low else x) = _
  rcases lt_or_ge x low with hx | hx
  · rw [if_pos hx, if_neg (not_lt.mpr h), min_eq_right (hx.le.trans h), max_eq_left hx.le]
  · rw [if_neg (not_lt.mpr hx)]
    rcases lt_or_ge high x with hh | hh
    · rw [if_pos hh, min_eq_left hh.le, max_eq_right h]
    · rw [if_neg (not_lt.mpr hh), min_eq_right hh, max_eq_right hx]

end Scalar

end PanZoom
