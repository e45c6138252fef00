import PanZoom.Proofs.Precision.Conversion

namespace PanZoom

open Precision
open Float.Model.UnpackedFloat

theorem Single.toRat_ofBits {w : UInt32} (h : w.toNat < 0x7f800000) :
    IsFinite (Float32.ofBits w) ∧
      toRat (Float32.ofBits w) = size (Binary.single.magnitude w.toNat) := by
  have hmod : w.toNat % 2 ^ 31 = w.toNat := Nat.mod_eq_of_lt (by omega)
  obtain ⟨hfinite, hrat⟩ := settle_unpack (F := Float32) w.toBitVec (hmod.trans_lt h)
  refine ⟨hfinite, hrat.trans ?_⟩
  have hpos : decide (2 ^ 31 ≤ w.toNat) = false := decide_eq_false (by omega)
  change negatedIf (decide (2 ^ 31 ≤ w.toNat))
    (size (Binary.single.magnitude (w.toNat % 2 ^ 31))) = _
  rw [hpos, hmod]
  rfl

theorem Double.toRat_ofBits {w : UInt64} (h : w.toNat < 0x7ff0000000000000) :
    IsFinite (Float.ofBits w) ∧
      toRat (Float.ofBits w) = size (Binary.double.magnitude w.toNat) := by
  have hmod : w.toNat % 2 ^ 63 = w.toNat := Nat.mod_eq_of_lt (by omega)
  obtain ⟨hfinite, hrat⟩ := settle_unpack (F := Float) w.toBitVec (hmod.trans_lt h)
  refine ⟨hfinite, hrat.trans ?_⟩
  have hpos : decide (2 ^ 63 ≤ w.toNat) = false := decide_eq_false (by omega)
  change negatedIf (decide (2 ^ 63 ≤ w.toNat))
    (size (Binary.double.magnitude (w.toNat % 2 ^ 63))) = _
  rw [hpos, hmod]
  rfl

theorem Single.size_toBits {x : Float32} (h : IsFinite x) (hpos : 0 < toRat x) :
    x.toBits.toNat < 2 ^ 31 ∧ size (Binary.single.magnitude x.toBits.toNat) = toRat x :=
  size_word h hpos

theorem Double.size_toBits {x : Float} (h : IsFinite x) (hpos : 0 < toRat x) :
    x.toBits.toNat < 2 ^ 63 ∧ size (Binary.double.magnitude x.toBits.toNat) = toRat x :=
  size_word h hpos

theorem Single.isNaN_of_isFinite {x : Float32} (h : IsFinite x) : x.isNaN = false := by
  have hread : x.isNaN = (read x).isNaN := rfl
  unfold IsFinite at h
  rw [hread]
  cases hx : read x with
  | notANumber => simp [hx, isFinite] at h
  | infinity sign => rfl
  | zero sign => rfl
  | finite sign m e hm => rfl

theorem Single.zero_within : Within (0 : Float32) 0 0 := by
  with_unfolding_all decide

theorem Single.one_within : Within (1 : Float32) 1 1 := by
  with_unfolding_all decide

theorem settle_ofNat_roundsTo {F : Type} [Add F] [Sub F] [Mul F] [Div F] [Neg F] [LT F] [LE F]
    [Machine F] (n : ℕ) (h : (n : ℚ) ≤ roomy (Machine.format F)) :
    RoundsTo (Machine.settle (ofNat (Machine.format F) n) : F) n := by
  refine settle_roundsTo ?_ (by rwa [Nat.abs_cast])
  have hround := normalize_rounds (Machine.format F) n 0 .positive
  rwa [zpow_zero, mul_one, Int.cast_natCast] at hround

theorem Single.toFloat32_roundsTo (n : UInt32) : RoundsTo n.toFloat32 n.toNat := by
  refine settle_ofNat_roundsTo (F := Float32) n.toNat ?_
  have hlt : (n.toNat : ℚ) ≤ 2 ^ (32 : ℤ) := by exact_mod_cast n.toNat_lt.le
  refine (hlt.trans (zpow_le_zpow_right₀ one_le_two ?_)).trans roomy_single.ge
  norm_num

theorem Double.toRat_toFloat {n : UInt64} (h : n.toNat ≤ 2 ^ 53) :
    IsFinite n.toFloat ∧ toRat n.toFloat = n.toNat := by
  have hround : RoundsTo n.toFloat n.toNat := by
    refine settle_ofNat_roundsTo (F := Float) n.toNat ?_
    have hlt : (n.toNat : ℚ) ≤ 2 ^ (53 : ℤ) := by exact_mod_cast h
    refine (hlt.trans (zpow_le_zpow_right₀ one_le_two ?_)).trans roomy_double.ge
    norm_num
  refine ⟨hround.finite, hround.rounds.eq_of_onGrid ⟨n.toNat, 0, ?_, by decide, by simp⟩⟩
  rw [Nat.abs_cast]
  exact_mod_cast h

/-- Dropping what is below the point approximates a number. -/
theorem approximates_whole (m : ℕ) (e : ℤ) :
    Approximates (shiftToExponent (m <<< (e - 0).toNat) (e - (e - 0).toNat) .exact 0).1
      (m * 2 ^ e) := by
  have hshift := (Approximates.ofMantissa (m <<< (e - 0).toNat)).shiftRight
    (0 - (e - (e - 0).toNat)).toNat
  have hquotient : ((m <<< (e - 0).toNat : ℕ) : ℚ) / 2 ^ (0 - (e - (e - 0).toNat)).toNat =
      m * 2 ^ e := by
    have hright : (0 - (e - (e - 0).toNat)).toNat = (-e).toNat := by omega
    have hshifted := shifted_quotient m 1 (-e)
    rw [neg_neg, Nat.one_shiftLeft, Nat.cast_one, div_one, zpow_neg, div_inv_eq_mul] at hshifted
    rw [hright, sub_zero, ← hshifted]
    push_cast
    rfl
  rwa [hquotient] at hshift

/-- A whole number that is not negative has nothing below the point to be dropped. -/
theorem toInt_eq {u : Float.Model.UnpackedFloat} {n : ℕ} (h : u.isFinite = true)
    (hn : number u = n) : u.toInt 0 (UInt32.size - 1) = n := by
  cases u with
  | notANumber => cases h
  | infinity sign => cases h
  | zero sign =>
    change (0 : ℚ) = n at hn
    change (0 : ℤ) = n
    exact_mod_cast hn
  | finite sign m e hm =>
    have hwhole := approximates_whole m e
    have hround : (finite sign m e hm).toInt 0 (UInt32.size - 1) = sign.apply
      (shiftToExponent (m <<< (e - 0).toNat) (e - (e - 0).toNat) .exact 0).1.mantissa := rfl
    rw [hround]
    generalize (shiftToExponent _ _ _ _).1 = em at hwhole ⊢
    obtain ⟨hle, hlt, -⟩ := hwhole
    have hnonneg : (0 : ℚ) ≤ m * 2 ^ e := by positivity
    change signed sign (m * 2 ^ e) = n at hn
    generalize (m * 2 ^ e : ℚ) = t at hle hlt hnonneg hn
    cases sign with
    | positive =>
      change t = n at hn
      subst hn
      have hlower : em.mantissa ≤ n := by exact_mod_cast hle
      have hupper : n < em.mantissa + 1 := by exact_mod_cast hlt
      exact congrArg Nat.cast (by omega : em.mantissa = n)
    | negative =>
      change -t = n at hn
      have hn₀ : n = 0 := by
        have hcast : (n : ℚ) ≤ 0 := by linarith
        exact Nat.le_zero.mp (by exact_mod_cast hcast)
      have hzero : em.mantissa = 0 := by
        have hcast : (em.mantissa : ℚ) ≤ 0 := by
          rw [hn₀, Nat.cast_zero] at hn
          linarith
        exact Nat.le_zero.mp (by exact_mod_cast hcast)
      rw [hzero, hn₀]
      rfl

theorem Single.toNat_toUInt32 {x : Float32} {n : ℕ} (h : IsFinite x) (hx : toRat x = n)
    (hn : n < 2 ^ 32) : x.toUInt32.toNat = n := by
  have hword : x.toUInt32 = UInt32.ofNatClamp ((read x).toInt 0 (UInt32.size - 1)).toNat := rfl
  rw [hword, toInt_eq h hx, Int.toNat_natCast, UInt32.ofNatClamp_eq_ofNat n hn]
  exact UInt32.toNat_ofNat_of_lt hn

/-! ## Widening -/

namespace Single

/-- The words of double precision that widening puts together. -/
theorem toNat_widened (field fraction : UInt64) (hfield : field.toNat < 2047)
    (hfraction : fraction.toNat < 2 ^ 23) :
    ((field <<< 52) ||| (fraction <<< 29)).toNat =
      field.toNat * 2 ^ 52 + fraction.toNat * 2 ^ 29 := by
  have hshift : fraction.toNat <<< 29 < 2 ^ 52 := by
    rw [Nat.shiftLeft_eq]
    omega
  have hleft : (field <<< 52).toNat = field.toNat <<< 52 := by
    rw [UInt64.toNat_shiftLeft]
    simp only [UInt64.reduceToNat, Nat.reduceMod, Nat.shiftLeft_eq]
    omega
  have hright : (fraction <<< 29).toNat = fraction.toNat <<< 29 := by
    rw [UInt64.toNat_shiftLeft]
    simp only [UInt64.reduceToNat, Nat.reduceMod, Nat.shiftLeft_eq]
    omega
  rw [UInt64.toNat_or, hleft, hright, ← Nat.shiftLeft_add_eq_or_of_lt hshift, Nat.shiftLeft_eq,
    Nat.shiftLeft_eq]

/-- A normal magnitude in the longer word. -/
theorem size_widened {w : ℕ} (hnormal : 2 ^ 23 ≤ w) :
    size (Binary.double.magnitude (w * 2 ^ 29 + 896 * 2 ^ 52)) =
      size (Binary.single.magnitude w) := by
  have hwide := magnitude_eq .binary64 (w * 2 ^ 29 + 896 * 2 ^ 52)
  have hnarrow := magnitude_eq .binary32 w
  have hfield : (w * 2 ^ 29 + 896 * 2 ^ 52) / 2 ^ 52 = w / 2 ^ 23 + 896 := by omega
  have hfraction : (w * 2 ^ 29 + 896 * 2 ^ 52) % 2 ^ 52 = w % 2 ^ 23 * 2 ^ 29 := by omega
  have hfield₀ : w / 2 ^ 23 ≠ 0 := by omega
  rw [hfield, hfraction, if_neg (by omega)] at hwide
  rw [if_neg hfield₀] at hnarrow
  change Binary.double.magnitude _ = _ at hwide
  change Binary.single.magnitude _ = _ at hnarrow
  rw [hwide, hnarrow, size, size]
  have hexponent : Float.Model.Format.binary64.minExponent + ((w / 2 ^ 23 + 896 - 1 : ℕ) : ℤ) + 29 =
      Float.Model.Format.binary32.minExponent + ((w / 2 ^ 23 - 1 : ℕ) : ℤ) := by
    have hmin₆₄ : Float.Model.Format.binary64.minExponent = -1074 := rfl
    have hmin₃₂ : Float.Model.Format.binary32.minExponent = -149 := rfl
    omega
  rw [← hexponent, zpow_add₀ two_ne_zero _ 29]
  push_cast
  ring

/-- A magnitude below the normal ones counts its steps. -/
theorem size_subnormal {w : ℕ} (h : w < 2 ^ 23) :
    size (Binary.single.magnitude w) = w * 2 ^ (-149 : ℤ) := by
  have hmagnitude := magnitude_eq .binary32 w
  rw [if_pos (by omega : w / 2 ^ 23 = 0), Nat.mod_eq_of_lt h] at hmagnitude
  change Binary.single.magnitude _ = _ at hmagnitude
  rw [hmagnitude]
  rfl

theorem toRat_leastStep : IsFinite leastStep ∧ toRat leastStep = 2 ^ (-149 : ℤ) := by
  obtain ⟨hfinite, hrat⟩ := Double.toRat_ofBits (w := 0x36a0000000000000) (by decide)
  refine ⟨hfinite, hrat.trans ?_⟩
  have hmagnitude : Binary.double.magnitude (0x36a0000000000000 : UInt64).toNat =
      ⟨2 ^ 52, -201⟩ := by with_unfolding_all decide
  rw [hmagnitude, size]
  norm_num

/-- Below the normal numbers, the fraction times the least step. -/
theorem toRat_countedSteps {fraction : UInt64} (h : fraction.toNat < 2 ^ 23) :
    IsFinite (fraction.toFloat * leastStep) ∧
      toRat (fraction.toFloat * leastStep) =
        Precision.size (Binary.single.magnitude fraction.toNat) := by
  obtain ⟨hcount, hcountRat⟩ := Double.toRat_toFloat (n := fraction) (by omega)
  obtain ⟨hstep, hstepRat⟩ := toRat_leastStep
  have hgrid : OnGrid .binary64 ((fraction.toNat : ℚ) * 2 ^ (-149 : ℤ)) :=
    ⟨fraction.toNat, -149, by rw [Nat.abs_cast]; exact_mod_cast h.le.trans (by decide),
      by decide, by simp⟩
  have hmul := mul_roundsTo hcount hstep (by
    rw [hcountRat, hstepRat]
    refine abs_le_roomy_double (k := 0) ?_ (by norm_num)
    have hcast : (fraction.toNat : ℚ) ≤ 2 ^ (23 : ℤ) := by exact_mod_cast h.le
    rw [abs_of_nonneg (by positivity), pow_zero]
    calc (fraction.toNat : ℚ) * 2 ^ (-149 : ℤ) ≤ 2 ^ (23 : ℤ) * 2 ^ (-149 : ℤ) := by gcongr
      _ ≤ 1 := by norm_num)
  rw [hcountRat, hstepRat] at hmul
  refine ⟨hmul.finite, ?_⟩
  rw [hmul.rounds.eq_of_onGrid hgrid, size_subnormal h]

/-- A normal number, its fields moved to their places in the longer word. -/
theorem toRat_movedFields {field fraction : UInt64} (hfraction : fraction.toNat < 2 ^ 23)
    (hpos : 0 < field.toNat) (hfield : field.toNat < 255) :
    IsFinite (Float.ofBits (((field + 896) <<< 52) ||| (fraction <<< 29))) ∧
      toRat (Float.ofBits (((field + 896) <<< 52) ||| (fraction <<< 29))) =
        Precision.size (Binary.single.magnitude (field.toNat * 2 ^ 23 + fraction.toNat)) := by
  have hadd : (field + 896).toNat = field.toNat + 896 := by
    rw [UInt64.toNat_add]
    simp only [UInt64.reduceToNat]
    omega
  have hword := toNat_widened (field + 896) fraction (by omega) hfraction
  rw [hadd] at hword
  have hmoved : (field.toNat + 896) * 2 ^ 52 + fraction.toNat * 2 ^ 29 =
      (field.toNat * 2 ^ 23 + fraction.toNat) * 2 ^ 29 + 896 * 2 ^ 52 := by omega
  obtain ⟨hfinite, hrat⟩ := Double.toRat_ofBits
    (w := ((field + 896) <<< 52) ||| (fraction <<< 29)) (by omega)
  refine ⟨hfinite, ?_⟩
  rw [hrat, hword, hmoved, size_widened (by omega)]

/-- The size of a finite number, in the longer word. -/
theorem toRat_widened (field fraction : UInt64) (hfraction : fraction.toNat < 2 ^ 23)
    (hfield : field.toNat < 255) :
    let size : Float :=
      if field = 0 then fraction.toFloat * leastStep
      else
        let widened : UInt64 := if field = 0xff then 0x7ff else field + 896
        .ofBits ((widened <<< 52) ||| (fraction <<< 29))
    IsFinite size ∧
      toRat size =
        Precision.size (Binary.single.magnitude (field.toNat * 2 ^ 23 + fraction.toNat)) := by
  intro size
  by_cases hzero : field = 0
  · have hsize : size = fraction.toFloat * leastStep := if_pos hzero
    rw [hsize, hzero]
    simpa using toRat_countedSteps hfraction
  · have hsize : size = .ofBits (((field + 896) <<< 52) ||| (fraction <<< 29)) := by
      have hlast : field ≠ 0xff := by
        rintro rfl
        exact absurd hfield (by decide)
      simp only [size, if_neg hzero, if_neg hlast]
    have hpos : 0 < field.toNat := by
      rw [Nat.pos_iff_ne_zero]
      intro h
      exact hzero (UInt64.toNat_inj.mp h)
    rw [hsize]
    exact toRat_movedFields hfraction hpos hfield

/-- Widening changes nothing. -/
theorem toRat_toDouble {x : Float32} (h : IsFinite x) :
    IsFinite (toDouble x) ∧ toRat (toDouble x) = toRat x := by
  have hfits : x.toBits.toNat % 2 ^ 31 < 255 * 2 ^ 23 := isFinite_iff.mp h
  have hword : x.toBits.toUInt64.toNat = x.toBits.toNat := rfl
  have hlt := x.toBits.toNat_lt
  have hrat : toRat x = negatedIf (2 ^ 31 ≤ x.toBits.toNat)
      (size (Binary.single.magnitude (x.toBits.toNat % 2 ^ 31))) := (decoded_of_isFinite h).2
  have hfraction : (x.toBits.toUInt64 &&& 0x7fffff).toNat = x.toBits.toNat % 2 ^ 23 := by
    rw [UInt64.toNat_and, hword]
    exact Nat.and_two_pow_sub_one_eq_mod _ 23
  have hfield : ((x.toBits.toUInt64 >>> 23) &&& 0xff).toNat = x.toBits.toNat / 2 ^ 23 % 2 ^ 8 := by
    rw [UInt64.toNat_and, UInt64.toNat_shiftRight, hword, Nat.shiftRight_eq_div_pow]
    exact Nat.and_two_pow_sub_one_eq_mod _ 8
  have hsign : x.toBits.toUInt64 >>> 31 = 0 ↔ ¬2 ^ 31 ≤ x.toBits.toNat := by
    rw [← UInt64.toNat_inj, UInt64.toNat_shiftRight, hword, Nat.shiftRight_eq_div_pow]
    simp only [UInt64.reduceToNat, Nat.reduceMod]
    omega
  obtain ⟨hfinite, hsize⟩ := toRat_widened ((x.toBits.toUInt64 >>> 23) &&& 0xff)
    (x.toBits.toUInt64 &&& 0x7fffff) (by omega) (by omega)
  have hrest : x.toBits.toNat / 2 ^ 23 % 2 ^ 8 * 2 ^ 23 + x.toBits.toNat % 2 ^ 23 =
      x.toBits.toNat % 2 ^ 31 := by omega
  rw [hfield, hfraction, hrest] at hsize
  simp only [toDouble]
  split
  · rename_i hpos
    refine ⟨hfinite, hsize.trans ?_⟩
    rw [hrat, decide_eq_false (hsign.mp hpos)]
    rfl
  · rename_i hneg
    refine ⟨hfinite.neg, ?_⟩
    rw [toRat_neg hfinite, hsize, hrat, decide_eq_true (not_not.mp (mt hsign.mpr hneg))]
    rfl

/-! ## Narrowing -/

/-- Dropping 29 bits rounds to a neighbouring whole number. -/
theorem toNat_nearestWord {w : UInt64} (hlow : 0x3810000000000000 ≤ w.toNat)
    (hhigh : w.toNat ≤ 0x47e0000000000000) :
    (nearestWord w).toNat * 2 ^ 29 < w.toNat - 896 * 2 ^ 52 + 2 ^ 29 ∧
      w.toNat - 896 * 2 ^ 52 < (nearestWord w).toNat * 2 ^ 29 + 2 ^ 29 := by
  have hdefined : ¬0x7ff0000000000000 < w := by
    rw [UInt64.lt_iff_toNat_lt]
    simp only [UInt64.reduceToNat]
    omega
  have hsmall : ¬0x47f0000000000000 ≤ w := by
    rw [UInt64.le_iff_toNat_le]
    simp only [UInt64.reduceToNat]
    omega
  have hnormal : 0x3810000000000000 ≤ w := by
    rw [UInt64.le_iff_toNat_le]
    exact hlow
  have hoffset : (0x3800000000000000 : UInt64) ≤ w := by
    rw [UInt64.le_iff_toNat_le]
    simp only [UInt64.reduceToNat]
    omega
  have hmoved : (w - 0x3800000000000000).toNat = w.toNat - 896 * 2 ^ 52 :=
    UInt64.toNat_sub_of_le _ _ hoffset
  rw [nearestWord, if_neg hdefined, if_neg hsmall, if_pos hnormal]
  simp only [UInt64.toNat_div, UInt64.toNat_add, UInt64.toNat_mod, hmoved, UInt64.reduceToNat]
  have hlt : w.toNat - 896 * 2 ^ 52 < 2 ^ 60 := by omega
  generalize w.toNat - 896 * 2 ^ 52 = m at *
  rw [Nat.mod_eq_of_lt (by omega : m + 268435455 < 2 ^ 64),
    Nat.mod_eq_of_lt (by omega : m + 268435455 + m / 536870912 % 2 < 2 ^ 64)]
  omega

/-- The words of the numbers that are normal in single precision. -/
theorem toNat_toBits_normal {x : Float} (h : IsFinite x) (hlow : 2 ^ (-126 : ℤ) ≤ toRat x)
    (hhigh : toRat x ≤ 2 ^ (127 : ℤ)) :
    0x3810000000000000 ≤ x.toBits.toNat ∧ x.toBits.toNat ≤ 0x47e0000000000000 := by
  obtain ⟨-, hsize⟩ := Double.size_toBits h (lt_of_lt_of_le (by positivity) hlow)
  have hmono : StrictMono fun w => size (Binary.double.magnitude w) := size_strictMono .binary64
  constructor
  · rw [← hmono.le_iff_le, hsize]
    refine le_trans (le_of_eq ?_) hlow
    have hmagnitude : Binary.double.magnitude 0x3810000000000000 = ⟨2 ^ 52, -178⟩ := by
      with_unfolding_all decide
    rw [hmagnitude, size]
    norm_num
  · rw [← hmono.le_iff_le, hsize]
    refine hhigh.trans (le_of_eq ?_)
    have hmagnitude : Binary.double.magnitude 0x47e0000000000000 = ⟨2 ^ 52, 75⟩ := by
      with_unfolding_all decide
    rw [hmagnitude, size]
    norm_num

/-- A number without a sign is narrowed as its size is. -/
theorem ofDouble_of_positive {x : Float} (hsign : x.toBits.toNat < 2 ^ 63) :
    ofDouble x = .ofBits (nearestWord x.toBits).toUInt32 := by
  have hshift : x.toBits >>> 63 = 0 := by
    rw [← UInt64.toNat_inj, UInt64.toNat_shiftRight, Nat.shiftRight_eq_div_pow]
    exact Nat.div_eq_of_lt hsign
  have hmask : x.toBits &&& 0x7fffffffffffffff = x.toBits := by
    rw [← UInt64.toNat_inj, UInt64.toNat_and]
    exact (Nat.and_two_pow_sub_one_eq_mod _ 63).trans (Nat.mod_eq_of_lt hsign)
  simp only [ofDouble, hshift, hmask]
  simp

/-- Numbers below the normal ones are below the least of these. -/
theorem size_lt_normal {w : ℕ} (h : w < 2 ^ 23) :
    size (Binary.single.magnitude w) < 2 ^ (-126 : ℤ) := by
  have hcast : (w : ℚ) < 2 ^ (23 : ℤ) := by exact_mod_cast h
  rw [size_subnormal h]
  calc (w : ℚ) * 2 ^ (-149 : ℤ) < 2 ^ (23 : ℤ) * 2 ^ (-149 : ℤ) := by gcongr
    _ = 2 ^ (-126 : ℤ) := by norm_num

/-- Narrowing a number in the range of the normal numbers rounds it to the grid. -/
theorem ofDouble_roundsTo {x : Float} (h : IsFinite x) (hlow : 2 ^ (-126 : ℤ) ≤ toRat x)
    (hhigh : toRat x ≤ 2 ^ (127 : ℤ)) : RoundsTo (ofDouble x) (toRat x) := by
  obtain ⟨hsign, hsize⟩ := Double.size_toBits h (lt_of_lt_of_le (by positivity) hlow)
  have hmono : StrictMono fun w => size (Binary.double.magnitude w) :=
    size_strictMono .binary64
  have hmono₃₂ : StrictMono fun w => size (Binary.single.magnitude w) :=
    size_strictMono .binary32
  obtain ⟨hleast, hgreatest⟩ := toNat_toBits_normal h hlow hhigh
  obtain ⟨hceil, hfloor⟩ := toNat_nearestWord hleast hgreatest
  have hnat : (nearestWord x.toBits).toUInt32.toNat = (nearestWord x.toBits).toNat := by
    rw [UInt64.toNat_toUInt32, Nat.mod_eq_of_lt (by omega)]
  rw [ofDouble_of_positive hsign]
  generalize (nearestWord x.toBits) = v at *
  obtain ⟨hfinite, hrat⟩ := toRat_ofBits (w := v.toUInt32) (by omega)
  refine ⟨hfinite, ?_, ?_⟩
  · intro g hg hgx
    rcases le_or_gt g 0 with hg₀ | hg₀
    · exact hg₀.trans (by rw [hrat]; unfold size; positivity)
    · obtain ⟨u, hu⟩ := hg.exists_word hg₀.le
      change size (Binary.single.magnitude u) = g at hu
      rw [hrat, hnat, ← hu, hmono₃₂.le_iff_le]
      -- A number below the normal ones is below all results.
      rcases Nat.lt_or_ge u (2 ^ 23) with hsub | hnormal
      · omega
      · rw [← hu, ← size_widened hnormal, ← hsize, hmono.le_iff_le] at hgx
        omega
  · intro g hg hxg
    have hg₀ : 0 ≤ g := le_trans (by positivity) (hlow.trans hxg)
    obtain ⟨u, hu⟩ := hg.exists_word hg₀
    change size (Binary.single.magnitude u) = g at hu
    rw [hrat, hnat, ← hu, hmono₃₂.le_iff_le]
    rcases Nat.lt_or_ge u (2 ^ 23) with hsub | hnormal
    · exact absurd (hlow.trans hxg) (not_le.mpr (hu ▸ size_lt_normal hsub))
    · rw [← hu, ← size_widened hnormal, ← hsize, hmono.le_iff_le] at hxg
      omega

end Single

end PanZoom
