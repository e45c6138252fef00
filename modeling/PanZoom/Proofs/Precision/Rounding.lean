import PanZoom.Proofs.Precision.Grid

/-!
# Rounding of unpacked numbers

The arithmetic of both precisions ends in one rounding of a significand and an exponent. Here is
what that rounding does to the number they stand for:

* `number`: the rational number that an unpacked number stands for;
* `Canonical`: the form in which every number has one significand and one exponent;
* `Approximates`: what the bits behind a significand say about what was cut off;
* `roundWithAccuracy_rounds`, `round_rounds`, `normalize_rounds`: the result is canonical, and
  rounds the exact number to the grid.
-/

namespace PanZoom.Precision

open Float.Model (Format UnpackedFloat totalExponent)
open Float.Model.UnpackedFloat
open ExtendedMantissa (ofMantissaAndAccuracy)

def signed (sign : Sign) (x : ℚ) : ℚ :=
  match sign with
  | .negative => -x
  | .positive => x

/-- The rational number that an unpacked number stands for, zero if there is none. -/
def number : UnpackedFloat → ℚ
  | .finite sign mantissa exponent _ => signed sign (mantissa * 2 ^ exponent)
  | _ => 0

/-- A finite number has the least exponent or a significand with all bits. -/
def Canonical (spec : Format) : UnpackedFloat → Prop
  | .finite _ mantissa exponent _ =>
    mantissa < 2 ^ spec.mantissaBits ∧ spec.minExponent ≤ exponent ∧
      (spec.minExponent < exponent → 2 ^ spec.mantissaBitsWithoutImplicit ≤ mantissa)
  | _ => True

/-- The result of rounding `x`: a canonical finite number that no grid number separates from it. -/
structure IsRounding (spec : Format) (x : ℚ) (u : UnpackedFloat) : Prop where
  canonical : Canonical spec u
  finite : u.isFinite = true
  rounds : Rounds spec x (number u)

theorem Rounds.signed {spec : Format} {x y : ℚ} (h : Rounds spec x y) (sign : Sign) :
    Rounds spec (signed sign x) (signed sign y) := by
  cases sign with
  | negative => exact h.neg
  | positive => exact h

/-- The significand is the whole part of `t`, and both bits are clear if it is all of `t`. -/
structure Approximates (em : ExtendedMantissa) (t : ℚ) : Prop where
  le : (em.mantissa : ℚ) ≤ t
  lt : t < em.mantissa + 1
  exact : em.roundBit = false ∧ em.stickyBit = false ↔ t = em.mantissa

namespace Approximates

variable {em : ExtendedMantissa} {t : ℚ}

theorem mantissa_eq (m : ℕ) (accuracy : Accuracy) :
    (ofMantissaAndAccuracy m accuracy).mantissa = m := by
  cases accuracy with
  | exact => rfl
  | inexact relative => cases relative <;> rfl

theorem ofMantissa (m : ℕ) : Approximates (ofMantissaAndAccuracy m .exact) m :=
  ⟨le_rfl, lt_add_one _, ⟨fun _ => rfl, fun _ => ⟨rfl, rfl⟩⟩⟩

theorem shiftRightOne (h : Approximates em t) : Approximates em.shiftRightOne (t / 2) := by
  obtain ⟨m, roundBit, stickyBit⟩ := em
  obtain ⟨hle, hlt, hexact⟩ := h
  have hdiv : (m : ℚ) = 2 * (m / 2 : ℕ) + (m % 2 : ℕ) := by
    exact_mod_cast (Nat.div_add_mod m 2).symm
  have hbit : ((m % 2 : ℕ) : ℚ) ≤ 1 := by
    exact_mod_cast Nat.le_of_lt_succ (Nat.mod_lt m two_pos)
  have hbit₀ : (0 : ℚ) ≤ (m % 2 : ℕ) := by positivity
  simp only at hle hlt hexact
  refine ⟨?_, ?_, ?_⟩
  · simp only [ExtendedMantissa.shiftRightOne]
    linarith
  · simp only [ExtendedMantissa.shiftRightOne]
    linarith
  · simp only [ExtendedMantissa.shiftRightOne, Bool.or_eq_false_iff, hexact, bne_eq_false_iff_eq]
    constructor
    · rintro ⟨hmod, rfl⟩
      rw [hdiv, hmod, Nat.cast_zero]
      ring
    · intro ht
      have hmod : ((m % 2 : ℕ) : ℚ) = 0 := by linarith
      exact ⟨by exact_mod_cast hmod, by linarith⟩

theorem shiftRight (h : Approximates em t) (n : ℕ) : Approximates (em >>> n) (t / 2 ^ n) := by
  induction n with
  | zero =>
    show Approximates em _
    rwa [pow_zero, div_one]
  | succ n ih =>
    have hstep := ih.shiftRightOne
    rwa [div_div, ← pow_succ] at hstep

/-- The rounded significand is one of the two whole numbers next to `t`. -/
theorem rounded (h : Approximates em t) :
    ⌊t⌋ ≤ em.roundedMantissa ∧ (em.roundedMantissa : ℤ) ≤ ⌈t⌉ := by
  obtain ⟨m, roundBit, stickyBit⟩ := em
  obtain ⟨hle, hlt, hexact⟩ := h
  simp only at hle hlt hexact
  have hfloor : ⌊t⌋ = m := Int.floor_eq_iff.mpr ⟨by exact_mod_cast hle, by exact_mod_cast hlt⟩
  have hmod : m % 2 ≤ 1 := Nat.le_of_lt_succ (Nat.mod_lt m two_pos)
  rw [hfloor]
  by_cases hm : t = m
  · obtain ⟨rfl, rfl⟩ := hexact.mpr hm
    rw [hm, Int.ceil_natCast]
    exact ⟨le_rfl, le_rfl⟩
  · have hceil : (m : ℤ) + 1 ≤ ⌈t⌉ := by
      rw [Int.add_one_le_iff, Int.lt_ceil]
      exact_mod_cast lt_of_le_of_ne hle (Ne.symm hm)
    have hnear : m ≤ (⟨m, roundBit, stickyBit⟩ : ExtendedMantissa).roundedMantissa ∧
        (⟨m, roundBit, stickyBit⟩ : ExtendedMantissa).roundedMantissa ≤ m + 1 := by
      cases roundBit <;> cases stickyBit <;>
        simp only [ExtendedMantissa.roundedMantissa, ExtendedMantissa.accuracy,
          Accuracy.roundToNearestEven] <;> omega
    omega

end Approximates

/-! ## One rounding -/

variable {spec : Format}

theorem minExponent_le_targetExponent (spec : Format) (total : ℤ) :
    spec.minExponent ≤ spec.targetExponent total :=
  le_max_right _ _

/-- A significand and an exponent that rounding only has to shift to the right. -/
def Full (spec : Format) (m : ℕ) (e : ℤ) : Prop :=
  spec.minExponent < e → 2 ^ spec.mantissaBitsWithoutImplicit ≤ m

theorem mantissaBits_eq (spec : Format) :
    (spec.mantissaBits : ℤ) = spec.mantissaBitsWithoutImplicit + 1 := by
  rw [Format.mantissaBits]
  omega

theorem Full.log2 {m : ℕ} {e : ℤ} (h : Full spec m e) (he : spec.minExponent < e) :
    spec.mantissaBitsWithoutImplicit ≤ m.log2 :=
  (Nat.le_log2 (Nat.pos_of_ne_zero fun hm => by
    have := h he
    have := Nat.one_le_two_pow (n := spec.mantissaBitsWithoutImplicit)
    omega).ne').mpr (h he)

theorem Full.le_target {m : ℕ} {e : ℤ} (h : Full spec m e) :
    e ≤ spec.targetExponent (totalExponent m e) := by
  rcases le_or_gt e spec.minExponent with he | he
  · exact he.trans (minExponent_le_targetExponent _ _)
  · have hlog := h.log2 he
    refine le_trans ?_ (le_max_left _ _)
    rw [mantissaBits_eq, totalExponent]
    omega

/-- A multiplier that fills its unit is rounded to a significand that fills it too, or is one too
many, and no number of the grid is passed. -/
theorem rounds_multiplier {x : ℚ} {e : ℤ} {m : ℕ} (hx : 0 ≤ x)
    (hfew : x / 2 ^ e ≤ 2 ^ spec.mantissaBits)
    (hmany : spec.minExponent < e → 2 ^ spec.mantissaBitsWithoutImplicit ≤ x / 2 ^ e)
    (hfloor : ⌊x / 2 ^ e⌋ ≤ m) (hceil : (m : ℤ) ≤ ⌈x / 2 ^ e⌉) :
    m ≤ 2 ^ spec.mantissaBits ∧ Full spec m e ∧ Rounds spec x (m * 2 ^ e) := by
  refine ⟨?_, ?_, ?_⟩
  · have hbits : ⌈x / 2 ^ e⌉ ≤ ((2 ^ spec.mantissaBits : ℕ) : ℤ) :=
      Int.ceil_le.mpr (by exact_mod_cast hfew)
    exact_mod_cast hceil.trans hbits
  · intro hmin
    have hbits : ((2 ^ spec.mantissaBitsWithoutImplicit : ℕ) : ℤ) ≤ ⌊x / 2 ^ e⌋ :=
      Int.le_floor.mpr (by exact_mod_cast hmany hmin)
    exact_mod_cast hbits.trans hfloor
  · refine rounds_of_floor_ceil hx (fun hmin => ?_) hfloor hceil
    have hbits := (le_div_iff₀ (by positivity)).mp (hmany hmin)
    rwa [zpow_natCast]

/-- At the target exponent the significand has no more bits than the format, and all of them unless
the exponent is the least. -/
theorem significand_bounds {x : ℚ} {m : ℕ} {e : ℤ} (h : Full spec m e) (hle : (m : ℚ) * 2 ^ e ≤ x)
    (hlt : x < (m + 1) * 2 ^ e) :
    let target := spec.targetExponent (totalExponent m e)
    x / 2 ^ target ≤ 2 ^ spec.mantissaBits ∧
      (spec.minExponent < target → 2 ^ spec.mantissaBitsWithoutImplicit ≤ x / 2 ^ target) := by
  intro target
  have hunit : (0 : ℚ) < 2 ^ target := by positivity
  have htarget : (m.log2 : ℤ) + 1 + e - spec.mantissaBits ≤ target := le_max_left _ _
  constructor
  · have hbits : (m : ℚ) + 1 ≤ 2 ^ (m.log2 + 1) := by exact_mod_cast Nat.lt_log2_self
    rw [div_le_iff₀ hunit]
    calc x ≤ (m + 1) * 2 ^ e := hlt.le
      _ ≤ 2 ^ (m.log2 + 1) * 2 ^ e := by gcongr
      _ = 2 ^ ((m.log2 : ℤ) + 1 + e) := by
        rw [zpow_add₀ two_ne_zero, ← zpow_natCast]
        push_cast
        rfl
      _ ≤ 2 ^ ((spec.mantissaBits : ℤ) + target) := zpow_le_zpow_right₀ one_le_two (by omega)
      _ = 2 ^ spec.mantissaBits * 2 ^ target := by
        rw [zpow_add₀ two_ne_zero, zpow_natCast]
  · intro hmin
    -- Above the least exponent the target is the one that leaves room for all bits.
    have heq : target = (m.log2 : ℤ) + 1 + e - spec.mantissaBits := by
      have hmax : target = max ((m.log2 : ℤ) + 1 + e - spec.mantissaBits) spec.minExponent := rfl
      omega
    have hm : m ≠ 0 := by
      rintro rfl
      have hfull := h (by rw [mantissaBits_eq] at heq; simp at heq; omega)
      have := Nat.one_le_two_pow (n := spec.mantissaBitsWithoutImplicit)
      omega
    have hbits : (2 : ℚ) ^ m.log2 ≤ m := by exact_mod_cast Nat.log2_self_le hm
    rw [le_div_iff₀ hunit]
    calc (2 : ℚ) ^ spec.mantissaBitsWithoutImplicit * 2 ^ target
        = 2 ^ m.log2 * 2 ^ e := by
          rw [← zpow_natCast, ← zpow_natCast, ← zpow_add₀ two_ne_zero, ← zpow_add₀ two_ne_zero]
          congr 1
          rw [heq, mantissaBits_eq]
          ring
      _ ≤ m * 2 ^ e := by gcongr
      _ ≤ x := hle

/-- A rounded significand that needs one bit too many is halved, which loses nothing. -/
theorem carry {m : ℕ} {e : ℤ} (hm : m ≤ 2 ^ spec.mantissaBits) (he : spec.minExponent ≤ e)
    (h : Full spec m e) :
    let k := (spec.targetExponent (totalExponent m e) - e).toNat
    let half := (ofMantissaAndAccuracy m .exact >>> k).mantissa
    half < 2 ^ spec.mantissaBits ∧ Full spec half (e + k) ∧
      (half : ℚ) * 2 ^ (e + k) = m * 2 ^ e := by
  intro k half
  rcases hm.lt_or_eq with hlt | rfl
  · -- There is room for all bits, and nothing is shifted.
    have hk : k = 0 := by
      have hlog : m.log2 < spec.mantissaBits ∨ m = 0 := by
        rcases Nat.eq_zero_or_pos m with hm₀ | hm₀
        · exact .inr hm₀
        · exact .inl ((Nat.log2_lt hm₀.ne').mpr hlt)
      have hbits := mantissaBits_eq spec
      have htarget : spec.targetExponent (totalExponent m e) ≤ e := by
        refine max_le ?_ he
        rw [totalExponent]
        rcases hlog with hlog | rfl
        · omega
        · simp
          omega
      simp only [k]
      omega
    have hhalf : half = m := by
      simp only [half, hk]
      rfl
    rw [hhalf, hk]
    exact ⟨hlt, by simpa using h, by simp⟩
  · -- The significand is the least with one bit too many, so the bit that is dropped is zero.
    have hk : k = 1 := by
      have htarget : spec.targetExponent (totalExponent (2 ^ spec.mantissaBits) e) = e + 1 := by
        rw [Format.targetExponent, totalExponent, Nat.log2_two_pow]
        omega
      simp only [k, htarget]
      omega
    have hpow : 2 ^ spec.mantissaBits = 2 * 2 ^ spec.mantissaBitsWithoutImplicit := by
      rw [Format.mantissaBits, pow_add, pow_one]
    have hhalf : half = 2 ^ spec.mantissaBitsWithoutImplicit := by
      have hdiv : half = 2 ^ spec.mantissaBits / 2 := by
        simp only [half, hk]
        rfl
      rw [hdiv, hpow, Nat.mul_div_cancel_left _ two_pos]
    rw [hhalf, hk, hpow]
    refine ⟨by have := Nat.one_le_two_pow (n := spec.mantissaBitsWithoutImplicit); omega,
      fun _ => le_rfl, ?_⟩
    rw [zpow_add₀ two_ne_zero]
    push_cast
    ring

/-- The unpacked number with a significand that may be zero. -/
def assemble (sign : Sign) (m : ℕ) (e : ℤ) : UnpackedFloat :=
  if h : m = 0 then .zero sign else .finite sign m e (Nat.pos_of_ne_zero h)

theorem number_assemble (sign : Sign) (m : ℕ) (e : ℤ) :
    number (assemble sign m e) = signed sign (m * 2 ^ e) := by
  rw [assemble]
  split
  · rename_i hm
    cases sign <;> simp [number, signed, hm]
  · rfl

theorem isFinite_assemble (sign : Sign) (m : ℕ) (e : ℤ) : (assemble sign m e).isFinite = true := by
  rw [assemble]
  split <;> rfl

theorem canonical_assemble (sign : Sign) {m : ℕ} {e : ℤ} (hm : m < 2 ^ spec.mantissaBits)
    (he : spec.minExponent ≤ e) (h : Full spec m e) : Canonical spec (assemble sign m e) := by
  rw [assemble]
  split
  · trivial
  · exact ⟨hm, he, h⟩

/-- Rounding shifts to the target exponent, rounds, and moves a carry into the exponent. -/
theorem roundWithAccuracy_eq (sign : Sign) {m : ℕ} {e : ℤ} (accuracy : Accuracy)
    (h : Full spec m e) :
    let target := spec.targetExponent (totalExponent m e)
    let rounded :=
      (ofMantissaAndAccuracy m accuracy >>> (target - e).toNat).roundedMantissa
    let k := (spec.targetExponent (totalExponent rounded target) - target).toNat
    roundWithAccuracy spec sign m e accuracy =
      assemble sign (ofMantissaAndAccuracy rounded .exact >>> k).mantissa
        (target + k) := by
  intro target rounded k
  have hshift : e + (target - e).toNat = target := by
    have := h.le_target
    omega
  have heq : roundWithAccuracy spec sign m e accuracy =
      let k := (spec.targetExponent (totalExponent rounded (e + (target - e).toNat)) -
        (e + (target - e).toNat)).toNat
      assemble sign (ofMantissaAndAccuracy rounded .exact >>> k).mantissa
        (e + (target - e).toNat + k) := rfl
  rw [heq, hshift]

/-- Rounding a significand and what is known of the bits behind it. -/
theorem roundWithAccuracy_rounds {m : ℕ} {e : ℤ} {accuracy : Accuracy} {t : ℚ} (sign : Sign)
    (h : Full spec m e) (hem : Approximates (ofMantissaAndAccuracy m accuracy) t) :
    IsRounding spec (signed sign (t * 2 ^ e)) (roundWithAccuracy spec sign m e accuracy) := by
  have hunit : (0 : ℚ) < 2 ^ e := by positivity
  have hle := hem.le
  have hlt := hem.lt
  rw [Approximates.mantissa_eq] at hle hlt
  obtain ⟨hfew, hmany⟩ := significand_bounds h (mul_le_mul_of_nonneg_right hle hunit.le)
    (mul_lt_mul_of_pos_right hlt hunit)
  have htarget := h.le_target
  have hmin := minExponent_le_targetExponent spec (totalExponent m e)
  rw [roundWithAccuracy_eq sign accuracy h]
  generalize spec.targetExponent (totalExponent m e) = target at *
  -- The shifted significand approximates the number in units of the target exponent.
  have hshifted : Approximates (ofMantissaAndAccuracy m accuracy >>> (target - e).toNat)
      (t * 2 ^ e / 2 ^ target) := by
    have hpow : (2 : ℚ) ^ target = 2 ^ (target - e).toNat * 2 ^ e := by
      rw [← zpow_natCast, ← zpow_add₀ two_ne_zero]
      congr 1
      omega
    rw [hpow, mul_div_mul_right _ _ hunit.ne']
    exact hem.shiftRight _
  obtain ⟨hfloor, hceil⟩ := hshifted.rounded
  generalize (ofMantissaAndAccuracy m accuracy >>> (target - e).toNat).roundedMantissa =
    rounded at *
  have hnonneg : 0 ≤ t * 2 ^ e := mul_nonneg ((Nat.cast_nonneg m).trans hle) hunit.le
  obtain ⟨hrounded, hfull, hrounds⟩ := rounds_multiplier hnonneg hfew hmany hfloor hceil
  obtain ⟨hhalf, hhalfFull, hsame⟩ := carry hrounded hmin hfull
  refine ⟨canonical_assemble sign hhalf (by omega) hhalfFull, isFinite_assemble .., ?_⟩
  rw [number_assemble, hsame]
  exact hrounds.signed sign

/-- Rounding a significand and an exponent, whichever way they have to be shifted. -/
theorem round_rounds (spec : Format) {m : ℕ} (sign : Sign) (hm : 0 < m) (e : ℤ) :
    IsRounding spec (signed sign (m * 2 ^ e)) (round spec sign m e) := by
  have hbits := mantissaBits_eq spec
  have hpos := spec.hm
  have hmax : spec.targetExponent (totalExponent m e) =
      max ((m.log2 : ℤ) + 1 + e - spec.mantissaBits) spec.minExponent := rfl
  have heq : round spec sign m e =
      let k := (e - spec.targetExponent (totalExponent m e)).toNat
      roundWithAccuracy spec sign (m <<< k) (e - k) .exact := rfl
  rw [heq]
  generalize spec.targetExponent (totalExponent m e) = target at *
  dsimp only
  generalize hk : (e - target).toNat = k
  have hfull : Full spec (m <<< k) (e - k) := fun hlt => by
    have hlog : spec.mantissaBitsWithoutImplicit ≤ m.log2 + k := by omega
    rw [Nat.shiftLeft_eq]
    calc 2 ^ spec.mantissaBitsWithoutImplicit
      _ ≤ 2 ^ (m.log2 + k) := Nat.pow_le_pow_right two_pos hlog
      _ = 2 ^ m.log2 * 2 ^ k := pow_add ..
      _ ≤ m * 2 ^ k := Nat.mul_le_mul_right _ (Nat.log2_self_le hm.ne')
  have hsame : (m : ℚ) * 2 ^ e = (m <<< k : ℕ) * 2 ^ (e - k) := by
    rw [Nat.shiftLeft_eq, zpow_sub₀ two_ne_zero, zpow_natCast]
    push_cast
    field_simp
  rw [hsame]
  exact roundWithAccuracy_rounds sign hfull (.ofMantissa _)

/-- Rounding a signed significand and an exponent. -/
theorem normalize_rounds (spec : Format) (m e : ℤ) (zeroSign : Sign) :
    IsRounding spec (m * 2 ^ e) (normalize spec m e zeroSign) := by
  rw [UnpackedFloat.normalize]
  split
  · rename_i h
    have hm : m < 0 := by simpa [compare_lt_iff_lt] using h
    have hround := round_rounds spec (m := (-m).toNat) .negative (by omega) e
    have hcast : (((-m).toNat : ℕ) : ℚ) = -m := by
      exact_mod_cast Int.toNat_of_nonneg (by omega : (0 : ℤ) ≤ -m)
    simpa only [signed, hcast, neg_mul, neg_neg] using hround
  · rename_i h
    have hm : m = 0 := by simpa [compare_eq_iff_eq] using h
    subst hm
    refine ⟨trivial, rfl, ?_⟩
    simpa [number] using Rounds.refl spec 0
  · rename_i h
    have hm : 0 < m := by simpa [compare_gt_iff_gt] using h
    have hround := round_rounds spec (m := m.toNat) .positive (by omega) e
    have hcast : ((m.toNat : ℕ) : ℚ) = m := by
      exact_mod_cast Int.toNat_of_nonneg hm.le
    simpa only [signed, hcast] using hround

end PanZoom.Precision
