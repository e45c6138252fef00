import PanZoom.Proofs.Geometry.Diagonal
import PanZoom.Proofs.Precision.Width
import PanZoom.Scalar.Single

namespace PanZoom

namespace Precision

open Float.Model (UnpackedFloat)
open Float.Model.UnpackedFloat

variable {x : Float32}

/-- Without its sign a finite number is itself or its negation, whichever is not negative. -/
theorem abs_eq (h : IsFinite x) : x.abs = x ∧ 0 ≤ toRat x ∨ x.abs = -x ∧ toRat x ≤ 0 := by
  have habs : x.abs = Machine.settle (read x).abs := rfl
  have hneg : -x = Machine.settle (read x).neg := rfl
  have hsame : x = Machine.settle (read x) := (settle_read x).symm
  rw [habs, toRat]
  unfold IsFinite at h
  cases hread : read x with
  | notANumber => rw [hread] at h; cases h
  | infinity sign => rw [hread] at h; cases h
  | zero sign =>
    rw [hread] at hneg hsame
    cases sign with
    | negative => exact .inr ⟨hneg.symm, le_rfl⟩
    | positive => exact .inl ⟨hsame.symm, le_rfl⟩
  | finite sign m e hm =>
    rw [hread] at hneg hsame
    have hpos : (0 : ℚ) ≤ m * 2 ^ e := by positivity
    cases sign with
    | negative => exact .inr ⟨hneg.symm, neg_nonpos.mpr hpos⟩
    | positive => exact .inl ⟨hsame.symm, hpos⟩

theorem toRat_abs (h : IsFinite x) : IsFinite x.abs ∧ toRat x.abs = |toRat x| := by
  rcases abs_eq h with ⟨hsame, hsign⟩ | ⟨hneg, hsign⟩
  · rw [hsame, abs_of_nonneg hsign]
    exact ⟨h, rfl⟩
  · rw [hneg, toRat_neg h, abs_of_nonpos hsign]
    exact ⟨h.neg, rfl⟩

theorem read_zero : read (0 : Float32) = .zero .positive := by
  with_unfolding_all rfl

theorem agrees_zero_iff : Scalar.agrees x 0 = true ↔ IsFinite x ∧ toRat x = 0 := by
  have hagrees : Scalar.agrees x 0 = (read x).beq (read (0 : Float32)) := rfl
  rw [hagrees, read_zero]
  constructor
  · intro hequal
    unfold IsFinite toRat
    cases hread : read x with
    | zero sign => exact ⟨rfl, rfl⟩
    | notANumber => rw [hread] at hequal; cases hequal
    | infinity sign => rw [hread] at hequal; cases sign <;> cases hequal
    | finite sign m e hm => rw [hread] at hequal; cases sign <;> cases hequal
  · rintro ⟨hfinite, hzero⟩
    obtain ⟨sign, hread⟩ := read_eq_zero hfinite hzero
    rw [hread]
    rfl

/-- Adding zero changes nothing, unless it is to the negative zero. -/
theorem add_zero_of_read_ne (h : read x ≠ .zero .negative) : x + 0 = x := by
  have hsum : x + 0 = Machine.settle (add .binary32 (read x) (read (0 : Float32))) := rfl
  have hsame : add .binary32 (read x) (.zero .positive) = read x := by
    cases hread : read x with
    | notANumber | infinity | finite => rfl
    | zero sign =>
      cases sign with
      | negative => exact absurd hread h
      | positive => rfl
  rw [hsum, read_zero, hsame, settle_read]

/-- Both zeros are the same without their signs. -/
theorem abs_eq_zero (h : IsFinite x) (hzero : toRat x = 0) : x.abs = 0 := by
  obtain ⟨sign, hread⟩ := read_eq_zero h hzero
  have habs : x.abs = Machine.settle (read x).abs := rfl
  rw [habs, hread, ← settle_read 0, read_zero]
  rfl

end Precision

namespace Single

open Precision

variable {d : Float32}

theorem leastNormal_within : Within leastNormal (1 / 2 ^ 126) (1 / 2 ^ 126) := by
  with_unfolding_all decide

/-- A finite number that is not tiny can be divided by, in a row of zeros too. -/
theorem leads (h : IsFinite d) (hlow : 1 / 2 ^ 31 ≤ |toRat d|) : Elimination.Leads d := by
  have hpos : 0 < |toRat d| := lt_of_lt_of_le (by norm_num) hlow
  have hne : toRat d ≠ 0 := abs_pos.mp hpos
  obtain ⟨hfinite, habs⟩ := toRat_abs h
  refine ⟨?_, ?_, ?_⟩
  · have hnormal : ¬d.abs < leastNormal := by
      rw [lt_iff_toRat hfinite leastNormal_within.finite, habs, leastNormal_within.eq, not_lt]
      exact le_trans (by norm_num) hlow
    show (d.isFinite && !(decide (d.abs < leastNormal))) = true
    rw [decide_eq_false hnormal]
    exact (Bool.and_true _).trans h
  · intro z hz
    obtain ⟨hzfinite, hzero⟩ := agrees_zero_iff.mp hz
    have hlarger : ¬d.abs.toBits ≤ z.abs.toBits := by
      intro hle
      rw [abs_eq_zero hzfinite hzero] at hle
      have hsame : d.abs = 0 := Float32.toBits_inj.mp (UInt32.le_zero_iff.mp hle)
      rw [hsame, zero_within.eq] at habs
      exact hpos.ne habs
    exact decide_eq_false hlarger
  · intro z hz
    obtain ⟨hzfinite, hzero⟩ := agrees_zero_iff.mp hz
    have hone : toRat (1 : Float32) = 1 := one_within.eq
    have hsmall : |toRat (1 : Float32) / toRat d| ≤ 2 ^ 31 := by
      rw [hone, abs_div, abs_one, div_le_iff₀ hpos]
      linarith
    have hquotient : RoundsTo ((1 : Float32) / d) (toRat (1 : Float32) / toRat d) :=
      div_roundsTo one_within.finite h hne (abs_le_roomy_single hsmall (by norm_num))
    have hproduct : toRat z * toRat ((1 : Float32) / d) = 0 := by rw [hzero, zero_mul]
    have hshort : IsShort 0 := by decide
    have hstays : Within (z * ((1 : Float32) / d)) 0 0 :=
      mul_within hzfinite hquotient.finite hproduct.ge hproduct.le ⟨hshort, hshort⟩
    exact agrees_zero_iff.mpr ⟨hstays.finite, hstays.eq⟩

end Single

end PanZoom
