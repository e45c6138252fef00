import Mathlib.Algebra.Order.Archimedean.Basic
import Mathlib.Data.Rat.Floor
import PanZoom.Proofs.Camera.Loop
import PanZoom.Proofs.Exact.Scalar

namespace PanZoom

/-- A reading whose greatest powers are whole numbers of steps, which a search can count past. -/
class CountedReading (K : Type) [Field K] [LinearOrder K] [IsStrictOrderedRing K] extends
    PositiveReading K where
  limitSteps : K → ℕ
  powerLimit_eq (base : K) : powerLimit base = limitSteps base
  lt_stepsPast (n : ℕ) : n < stepsPast n

/-- How many steps of zoom stay within the bounds. -/
def greatestSteps (base : ℚ) : ℕ :=
  if h : 1 < base then Nat.find (pow_unbounded_of_one_lt (10 ^ 18) h) - 1 else 0

/-- The rational numbers, with powers of the whole part of an exponent. -/
instance : CountedReading ℚ where
  power base x := base ^ ⌊x⌋
  power_pos x h := zpow_pos (one_pos.trans h) ⌊x⌋
  powerLimit base := greatestSteps base
  stepsPast bound := ⌊bound⌋₊ + 1
  limitSteps := greatestSteps
  powerLimit_eq _ := rfl
  lt_stepsPast n := by simp

/-- Settings over the rational numbers in which a step of zoom is a factor of two. -/
def Settings.doubling : Settings ℚ :=
  ⟨2, 1, .default, ⟨rfl, one_lt_two⟩, ⟨rfl, zero_lt_one⟩⟩

namespace Fitting

/-- The number after some steps down from minus one. -/
theorem iterate_sub_one {R : Type} [CommRing R] (n : ℕ) :
    (· - (1 : R))^[n] (-1) = -(n + 1) := by
  simp_rw [sub_eq_add_neg, add_right_iterate, nsmul_eq_mul]
  ring

variable {K : Type} [Field K] [LinearOrder K] [IsStrictOrderedRing K] [CountedReading K]
  (f : Fitting K)

def limitSteps : ℕ :=
  CountedReading.limitSteps f.settings.zoomFactor

theorem limit_eq : f.limit = f.limitSteps :=
  CountedReading.powerLimit_eq f.settings.zoomFactor

theorem limitSteps_lt : f.limitSteps < Scalar.stepsPast f.limit := by
  rw [limit_eq]
  exact CountedReading.lt_stepsPast f.limitSteps

/-- A count of steps up ends at the limit at the latest. -/
theorem exists_climb : ∃ p, f.climb = some p := by
  by_contra hnone
  have hgoes := firstStop_eq_none_iff.mp (Option.eq_none_iff_forall_ne_some.mpr
    (not_exists.mp hnone)) f.limitSteps f.limitSteps_lt
  have hbelow : ((· + (1 : K))^[f.limitSteps] 0) < f.limit :=
    of_decide_eq_true (Bool.and_eq_true_iff.mp hgoes).1
  rw [add_right_iterate_apply_zero, nsmul_one, limit_eq] at hbelow
  exact lt_irrefl _ hbelow

/-- A count of steps down ends one step below the limit at the latest. -/
theorem exists_descend : ∃ p, f.descend = some p := by
  by_contra hnone
  have hgoes := firstStop_eq_none_iff.mp (Option.eq_none_iff_forall_ne_some.mpr
    (not_exists.mp hnone)) f.limitSteps f.limitSteps_lt
  have habove : -f.limit < (· - (1 : K))^[f.limitSteps] (-1) :=
    of_decide_eq_true (Bool.and_eq_true_iff.mp hgoes).1
  rw [iterate_sub_one, limit_eq] at habove
  linarith

/-- A search for a fit always ends. -/
theorem exists_power? : ∃ p, f.power? = some p := by
  unfold power?
  split
  · exact ⟨0, rfl⟩
  · split
    · exact f.exists_climb
    · split
      · exact f.exists_descend
      · exact ⟨0, rfl⟩

end Fitting

end PanZoom
