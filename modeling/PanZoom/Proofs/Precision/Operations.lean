import PanZoom.Proofs.Precision.Rounding

namespace PanZoom.Precision

open Float.Model (Format UnpackedFloat totalExponent)
open Float.Model.UnpackedFloat

variable {spec : Format} {a b : UnpackedFloat}

theorem signed_neg (sign : Sign) (x : ℚ) : signed (-sign) x = -signed sign x := by
  cases sign with
  | negative => exact (neg_neg x).symm
  | positive => rfl

theorem signed_mul (s t : Sign) (x y : ℚ) : signed (s * t) (x * y) = signed s x * signed t y :=
  match s, t with
  | .negative, .negative => (neg_mul_neg x y).symm
  | .negative, .positive => (neg_mul x y).symm
  | .positive, .negative => (mul_neg x y).symm
  | .positive, .positive => rfl

theorem signed_div (s t : Sign) (x y : ℚ) : signed (s / t) (x / y) = signed s x / signed t y :=
  match s, t with
  | .negative, .negative => (neg_div_neg_eq x y).symm
  | .negative, .positive => (neg_div y x).symm
  | .positive, .negative => (div_neg x).symm
  | .positive, .positive => rfl

theorem signed_mul_right (s : Sign) (x y : ℚ) : signed s x * y = signed s (x * y) := by
  cases s with
  | negative => exact neg_mul x y
  | positive => rfl

theorem cast_apply (s : Sign) (n : ℤ) : ((s.apply n : ℤ) : ℚ) = signed s n := by
  cases s with
  | negative => exact Int.cast_neg n
  | positive => rfl

theorem number_neg (a : UnpackedFloat) : number a.neg = -number a := by
  cases a with
  | finite => exact signed_neg _ _
  | _ => exact neg_zero.symm

theorem canonical_neg (h : Canonical spec a) : Canonical spec a.neg := by
  cases a with
  | finite => exact h
  | _ => trivial

theorem isFinite_neg (a : UnpackedFloat) : a.neg.isFinite = a.isFinite := by
  cases a <;> rfl

/-- Canonical numbers are on the grid. -/
theorem Canonical.onGrid (h : Canonical spec a) : OnGrid spec (number a) := by
  cases a with
  | finite sign m e hm =>
    have hgrid : OnGrid spec ((m : ℚ) * 2 ^ e) :=
      ⟨m, e, by rw [Nat.abs_cast]; exact_mod_cast h.1.le, h.2.1, by push_cast; rfl⟩
    cases sign with
    | negative => exact hgrid.neg
    | positive => exact hgrid
  | _ => exact .zero

theorem Canonical.isRounding (h : Canonical spec a) (hfinite : a.isFinite = true) :
    IsRounding spec (number a) a :=
  ⟨h, hfinite, .refl _ _⟩

theorem shifted_significand (m : ℕ) {e least : ℤ} (h : least ≤ e) :
    ((m <<< (e - least).toNat : ℕ) : ℚ) * 2 ^ least = m * 2 ^ e := by
  have hpow : (2 : ℚ) ^ e = 2 ^ (e - least).toNat * 2 ^ least := by
    rw [← zpow_natCast, ← zpow_add₀ two_ne_zero]
    congr 1
    omega
  rw [Nat.shiftLeft_eq, hpow]
  push_cast
  ring

theorem add_rounds (ha : Canonical spec a) (hb : Canonical spec b) (hfa : a.isFinite = true)
    (hfb : b.isFinite = true) : IsRounding spec (number a + number b) (add spec a b) := by
  cases a with
  | notANumber | infinity => cases hfa
  | zero s =>
    cases b with
    | notANumber | infinity => cases hfb
    | zero t =>
      simp only [number, add_zero, add]
      split <;> exact ⟨trivial, rfl, .refl _ _⟩
    | finite t n k hn => simpa [number, add] using hb.isRounding hfb
  | finite s m e hm =>
    cases b with
    | notANumber | infinity => cases hfb
    | zero t => simpa [number, add] using ha.isRounding hfa
    | finite t n k hn =>
      have hsum := normalize_rounds spec
        (s.apply (m <<< (e - min e k).toNat : ℕ) + t.apply (n <<< (k - min e k).toNat : ℕ))
        (min e k) .positive
      have hexact : ((s.apply (m <<< (e - min e k).toNat : ℕ) +
          t.apply (n <<< (k - min e k).toNat : ℕ) : ℤ) : ℚ) * 2 ^ min e k =
          number (.finite s m e hm) + number (.finite t n k hn) := by
        rw [Int.cast_add, cast_apply, cast_apply, add_mul, signed_mul_right, signed_mul_right,
          Int.cast_natCast, Int.cast_natCast, shifted_significand m (min_le_left e k),
          shifted_significand n (min_le_right e k)]
        rfl
      rwa [hexact] at hsum

/-- A difference is computed like the sum with the other number's negative. -/
theorem sub_eq_add (a b : UnpackedFloat) : sub spec a b = add spec a b.neg := by
  cases a with
  | notANumber => rfl
  | infinity s => cases b with
    | infinity t => cases s <;> cases t <;> rfl
    | _ => rfl
  | zero s => cases b with
    | zero t => cases s <;> cases t <;> rfl
    | _ => rfl
  | finite s m e hm => cases b with
    | finite t n k hn => cases t with
      | negative => simp only [sub, add, UnpackedFloat.neg, Sign.apply, Int.sub_neg]
      | positive => simp only [sub, add, UnpackedFloat.neg, Sign.apply, Int.sub_eq_add_neg]
    | _ => rfl

theorem sub_rounds (ha : Canonical spec a) (hb : Canonical spec b) (hfa : a.isFinite = true)
    (hfb : b.isFinite = true) : IsRounding spec (number a - number b) (sub spec a b) := by
  rw [sub_eq_add, sub_eq_add_neg, ← number_neg]
  exact add_rounds ha (canonical_neg hb) hfa ((isFinite_neg b).trans hfb)

/-! ## Products and quotients -/

theorem minExponent_nonpos (spec : Format) : spec.minExponent ≤ 0 := by
  have hpow : (1 : ℤ) ≤ 2 ^ (spec.exponentBits - 1) := by exact_mod_cast Nat.one_le_two_pow
  have hbits := mantissaBits_eq spec
  have hpos := spec.hm
  rw [Format.minExponent]
  omega

theorem mul_rounds (ha : Canonical spec a) (hb : Canonical spec b) (hfa : a.isFinite = true)
    (hfb : b.isFinite = true) : IsRounding spec (number a * number b) (mul spec a b) := by
  cases a with
  | notANumber | infinity => cases hfa
  | zero s =>
    cases b with
    | notANumber | infinity => cases hfb
    | zero | finite =>
      simp only [number, zero_mul, mul]
      exact ⟨trivial, rfl, .refl _ _⟩
  | finite s m e hm =>
    cases b with
    | notANumber | infinity => cases hfb
    | zero t =>
      simp only [number, mul_zero, mul]
      exact ⟨trivial, rfl, .refl _ _⟩
    | finite t n k hn =>
      obtain ⟨-, he, hmfull⟩ := ha
      obtain ⟨-, hk, hnfull⟩ := hb
      have hfull : Full spec (m * n) (e + k) := fun hlt => by
        have hmin := minExponent_nonpos spec
        -- One of the two exponents is above the least, so its significand has all bits.
        rcases he.lt_or_eq with he | rfl
        · exact (hmfull he).trans (Nat.le_mul_of_pos_right m hn)
        · exact (hnfull (by omega)).trans (Nat.le_mul_of_pos_left n hm)
      have hexact : number (.finite s m e hm) * number (.finite t n k hn) =
          signed (s * t) (((m * n : ℕ) : ℚ) * 2 ^ (e + k)) := by
        have hpow : ((m * n : ℕ) : ℚ) * 2 ^ (e + k) = m * 2 ^ e * (n * 2 ^ k) := by
          rw [zpow_add₀ two_ne_zero]
          push_cast
          ring
        rw [hpow, signed_mul]
        rfl
      rw [hexact]
      exact roundWithAccuracy_rounds (s * t) hfull (.ofMantissa _)

/-- The whole part of a quotient of significands, and how the remainder compares to the divisor. -/
theorem Approximates.quotient (m : ℕ) {n : ℕ} (hn : 0 < n) :
    Approximates (.ofMantissaAndAccuracy (m / n) (accuracyOfFraction (m % n) n)) ((m : ℚ) / n) := by
  have hpos : (0 : ℚ) < n := by exact_mod_cast hn
  have hdiv : (m : ℚ) = (m / n : ℕ) * n + (m % n : ℕ) := by
    exact_mod_cast (Nat.div_add_mod' m n).symm
  have hmod : ((m % n : ℕ) : ℚ) < n := by exact_mod_cast Nat.mod_lt m hn
  have hmod₀ : (0 : ℚ) ≤ (m % n : ℕ) := by positivity
  refine ⟨?_, ?_, ?_⟩
  · rw [mantissa_eq, le_div_iff₀ hpos]
    linarith
  · rw [mantissa_eq, div_lt_iff₀ hpos]
    linarith
  · rw [mantissa_eq, div_eq_iff hpos.ne', accuracyOfFraction]
    split
    · rename_i hzero
      refine ⟨fun _ => ?_, fun _ => ⟨rfl, rfl⟩⟩
      rw [hdiv, hzero, Nat.cast_zero, add_zero]
    · rename_i hzero
      have hne : (m : ℚ) ≠ (m / n : ℕ) * n := by
        have hmod₁ : (0 : ℚ) < (m % n : ℕ) := by exact_mod_cast Nat.pos_of_ne_zero hzero
        linarith
      refine ⟨fun h => ?_, fun h => absurd h hne⟩
      cases hc : compare (2 * (m % n)) n <;> simp [ExtendedMantissa.ofMantissaAndAccuracy, hc] at h

/-- The exponent of a quotient is low enough for the whole part to have all bits. -/
theorem full_quotient (spec : Format) {m n : ℕ} {e k : ℤ} (hm : 0 < m) (hn : 0 < n) :
    let target := min (e - k) (spec.targetExponent (totalExponent m e - totalExponent n k))
    Full spec (m <<< (e - k - target).toNat / n) target := by
  intro target hlt
  have hbits := mantissaBits_eq spec
  have hle : target ≤ spec.targetExponent (totalExponent m e - totalExponent n k) :=
    min_le_right _ _
  have hmax : spec.targetExponent (totalExponent m e - totalExponent n k) =
      max ((m.log2 + 1 + e) - (n.log2 + 1 + k) - spec.mantissaBits) spec.minExponent := rfl
  have hcount : spec.mantissaBitsWithoutImplicit + (n.log2 + 1) ≤
      m.log2 + (e - k - target).toNat := by
    omega
  rw [Nat.le_div_iff_mul_le hn, Nat.shiftLeft_eq]
  calc 2 ^ spec.mantissaBitsWithoutImplicit * n
      ≤ 2 ^ spec.mantissaBitsWithoutImplicit * 2 ^ (n.log2 + 1) :=
        Nat.mul_le_mul_left _ Nat.lt_log2_self.le
    _ ≤ 2 ^ (m.log2 + (e - k - target).toNat) := by
        rw [← pow_add]
        exact Nat.pow_le_pow_right two_pos hcount
    _ ≤ m * 2 ^ (e - k - target).toNat := by
        rw [pow_add]
        exact Nat.mul_le_mul_right _ (Nat.log2_self_le hm.ne')

theorem div_rounds (hfa : a.isFinite = true) (hfb : b.isFinite = true)
    (hb : number b ≠ 0) : IsRounding spec (number a / number b) (div spec a b) := by
  cases b with
  | notANumber | infinity => cases hfb
  | zero => exact absurd rfl hb
  | finite t n k hn =>
    cases a with
    | notANumber | infinity => cases hfa
    | zero s =>
      simp only [number, zero_div, div]
      exact ⟨trivial, rfl, .refl _ _⟩
    | finite s m e hm =>
      have hfull := full_quotient spec (e := e) (k := k) hm hn
      have hle :
          min (e - k) (spec.targetExponent (totalExponent m e - totalExponent n k)) ≤ e - k :=
        min_le_left _ _
      have hround := roundWithAccuracy_rounds (s / t) hfull (.quotient _ hn)
      simp only [div, divCore]
      generalize min (e - k) (spec.targetExponent (totalExponent m e - totalExponent n k)) =
        target at *
      have hexact : ((m <<< (e - k - target).toNat : ℕ) : ℚ) / n * 2 ^ target =
          m * 2 ^ e / (n * 2 ^ k) := by
        rw [div_mul_eq_mul_div, shifted_significand m hle, zpow_sub₀ two_ne_zero]
        field_simp
      rw [hexact, signed_div] at hround
      exact hround

/-! ## Comparisons -/

theorem finite_pos {m : ℕ} (hm : 0 < m) (e : ℤ) : (0 : ℚ) < m * 2 ^ e := by
  have hcast : (0 : ℚ) < m := by exact_mod_cast hm
  positivity

/-- Of two canonical magnitudes the one with the greater exponent is greater. -/
theorem magnitude_lt_of_exponent_lt {m n : ℕ} {e k : ℤ} (hm : m < 2 ^ spec.mantissaBits)
    (he : spec.minExponent ≤ e) (hn : Full spec n k) (h : e < k) :
    (m : ℚ) * 2 ^ e < n * 2 ^ k := by
  have hunit : (0 : ℚ) < 2 ^ e := by positivity
  have hmcast : (m : ℚ) < 2 * 2 ^ spec.mantissaBitsWithoutImplicit := by
    have hpow : 2 ^ spec.mantissaBits = 2 * 2 ^ spec.mantissaBitsWithoutImplicit := by
      rw [Format.mantissaBits, pow_add, pow_one]
    exact_mod_cast hpow ▸ hm
  have hncast : (2 : ℚ) ^ spec.mantissaBitsWithoutImplicit ≤ n := by exact_mod_cast hn (by omega)
  have hstep : (2 : ℚ) * 2 ^ e ≤ 2 ^ k := by
    rw [← zpow_one_add₀ two_ne_zero]
    exact zpow_le_zpow_right₀ one_le_two (by omega)
  calc (m : ℚ) * 2 ^ e < 2 * 2 ^ spec.mantissaBitsWithoutImplicit * 2 ^ e := by gcongr
    _ = 2 ^ spec.mantissaBitsWithoutImplicit * (2 * 2 ^ e) := by ring
    _ ≤ n * 2 ^ k := by gcongr

theorem compare_magnitude {m n : ℕ} {e k : ℤ} (hm : m < 2 ^ spec.mantissaBits)
    (he : spec.minExponent ≤ e) (hmfull : Full spec m e) (hn : n < 2 ^ spec.mantissaBits)
    (hk : spec.minExponent ≤ k) (hnfull : Full spec n k) :
    (compare e k).then (compare m n) = compare ((m : ℚ) * 2 ^ e) (n * 2 ^ k) := by
  rcases lt_trichotomy e k with h | rfl | h
  · rw [compare_lt_iff_lt.mpr h, compare_lt_iff_lt.mpr (magnitude_lt_of_exponent_lt hm he hnfull h)]
    rfl
  · have hunit : (0 : ℚ) < 2 ^ e := by positivity
    rw [compare_eq_iff_eq.mpr rfl]
    rcases lt_trichotomy m n with h | rfl | h
    · have hcast : (m : ℚ) < n := by exact_mod_cast h
      rw [compare_lt_iff_lt.mpr ((mul_lt_mul_iff_left₀ hunit).mpr hcast)]
      exact compare_lt_iff_lt.mpr h
    · rw [compare_eq_iff_eq.mpr rfl, compare_eq_iff_eq.mpr rfl]
      rfl
    · have hcast : (n : ℚ) < m := by exact_mod_cast h
      rw [compare_gt_iff_gt.mpr ((mul_lt_mul_iff_left₀ hunit).mpr hcast)]
      exact compare_gt_iff_gt.mpr h
  · rw [compare_gt_iff_gt.mpr h, compare_gt_iff_gt.mpr (magnitude_lt_of_exponent_lt hn hk hmfull h)]
    rfl

theorem compare_neg (x y : ℚ) : compare (-x) (-y) = (compare x y).swap := by
  rcases lt_trichotomy x y with h | rfl | h
  · rw [compare_lt_iff_lt.mpr h, compare_gt_iff_gt.mpr (neg_lt_neg h)]
    rfl
  · rw [compare_eq_iff_eq.mpr rfl, compare_eq_iff_eq.mpr rfl]
    rfl
  · rw [compare_gt_iff_gt.mpr h, compare_lt_iff_lt.mpr (neg_lt_neg h)]
    rfl

/-- Canonical finite numbers compare as the numbers they stand for. -/
theorem compare_eq (ha : Canonical spec a) (hb : Canonical spec b) (hfa : a.isFinite = true)
    (hfb : b.isFinite = true) : a.compare b = some (compare (number a) (number b)) := by
  cases a with
  | notANumber | infinity => cases hfa
  | zero s =>
    cases b with
    | notANumber | infinity => cases hfb
    | zero t => cases s <;> cases t <;> rfl
    | finite t n k hn => cases t with
      | negative =>
        exact congrArg some (compare_gt_iff_gt.mpr (neg_neg_of_pos (finite_pos hn k))).symm
      | positive => exact congrArg some (compare_lt_iff_lt.mpr (finite_pos hn k)).symm
  | finite s m e hm =>
    obtain ⟨hmlt, he, hmfull⟩ := ha
    cases b with
    | notANumber | infinity => cases hfb
    | zero t => cases s with
      | negative =>
        exact congrArg some (compare_lt_iff_lt.mpr (neg_neg_of_pos (finite_pos hm e))).symm
      | positive => exact congrArg some (compare_gt_iff_gt.mpr (finite_pos hm e)).symm
    | finite t n k hn =>
      obtain ⟨hnlt, hk, hnfull⟩ := hb
      -- Two different signs decide; otherwise the magnitudes do.
      have hmagnitude := compare_magnitude hmlt he hmfull hnlt hk hnfull
      have hmpos := finite_pos hm e
      have hnpos := finite_pos hn k
      cases s with
      | negative => cases t with
        | negative =>
          refine congrArg some ?_
          rw [hmagnitude]
          exact (compare_neg _ _).symm
        | positive =>
          exact congrArg some (compare_lt_iff_lt.mpr ((neg_neg_of_pos hmpos).trans hnpos)).symm
      | positive => cases t with
        | negative =>
          exact congrArg some (compare_gt_iff_gt.mpr ((neg_neg_of_pos hnpos).trans hmpos)).symm
        | positive => exact congrArg some hmagnitude

theorem unpacked_lt_iff (ha : Canonical spec a) (hb : Canonical spec b) (hfa : a.isFinite = true)
    (hfb : b.isFinite = true) : a.lt b = true ↔ number a < number b := by
  rw [UnpackedFloat.lt, compare_eq ha hb hfa hfb, ← compare_lt_iff_lt]
  simp

theorem unpacked_le_iff (ha : Canonical spec a) (hb : Canonical spec b) (hfa : a.isFinite = true)
    (hfb : b.isFinite = true) : a.le b = true ↔ number a ≤ number b := by
  rw [UnpackedFloat.le, compare_eq ha hb hfa hfb, ← compare_le_iff_le]
  cases compare (number a) (number b) <;> simp

/-- Numbers other than zero have one canonical form. -/
theorem eq_of_number_eq (ha : Canonical spec a) (hb : Canonical spec b)
    (h : number a = number b) (h₀ : number a ≠ 0) : a = b := by
  cases a with
  | notANumber | infinity | zero => exact absurd rfl h₀
  | finite s m e hm =>
    obtain ⟨hmlt, he, hmfull⟩ := ha
    cases b with
    | notANumber | infinity | zero => exact absurd h h₀
    | finite t n k hn =>
      obtain ⟨hnlt, hk, hnfull⟩ := hb
      have hmpos := finite_pos hm e
      have hnpos := finite_pos hn k
      have hmagnitude := compare_magnitude hmlt he hmfull hnlt hk hnfull
      have hsame (hx : (m : ℚ) * 2 ^ e = n * 2 ^ k) : e = k ∧ m = n := by
        rw [compare_eq_iff_eq.mpr hx, Ordering.then_eq_eq] at hmagnitude
        exact ⟨compare_eq_iff_eq.mp hmagnitude.1, compare_eq_iff_eq.mp hmagnitude.2⟩
      simp only [number] at h
      cases s with
      | negative => cases t with
        | negative =>
          obtain ⟨rfl, rfl⟩ := hsame (neg_inj.mp h)
          rfl
        | positive =>
          simp only [signed] at h
          linarith
      | positive => cases t with
        | negative =>
          simp only [signed] at h
          linarith
        | positive =>
          obtain ⟨rfl, rfl⟩ := hsame h
          rfl

end PanZoom.Precision
