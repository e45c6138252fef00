import PanZoom.Binary.Format
import PanZoom.Proofs.Precision.Operations

/-!
# Words of a format

The word of a magnitude counts the magnitudes below it: one unit more in the word is the next
magnitude, through every exponent up to infinity. The machine packs its numbers into such words.

* `wordOf`: the word of a significand and an exponent;
* `magnitude_wordOf`, `wordOf_magnitude`: no other word has that magnitude, and every word has one;
* `size_wordOf`, `size_strictMono`: greater words are greater magnitudes;
* `unpack_of_lt`, `unpack_of_eq`, `unpack_of_gt`: what unpacking makes of a word;
* `toNat_pack`, `unpack_pack`: packing writes the word of the magnitude, and loses nothing.
-/

namespace PanZoom.Precision

open Float.Model (Format UnpackedFloat totalExponent)
open Float.Model.UnpackedFloat
open Binary (Magnitude)

variable {spec : Format}

def layout (spec : Format) : Binary.Format :=
  ⟨spec.mantissaBitsWithoutImplicit, spec.exponentBits⟩

theorem leastExponent_layout : (layout spec).leastExponent = spec.minExponent := by
  simp only [layout, Binary.Format.leastExponent, Format.minExponent, Format.mantissaBits,
    Nat.pow_eq]
  push_cast
  ring

def size (m : Magnitude) : ℚ :=
  m.significand * 2 ^ m.exponent

/-- The word of a significand and an exponent: a leading bit goes into the exponent's field. -/
def wordOf (spec : Format) (m : ℕ) (e : ℤ) : ℕ :=
  (e - spec.minExponent).toNat * 2 ^ spec.mantissaBitsWithoutImplicit + m

theorem magnitude_eq (spec : Format) (w : ℕ) :
    (layout spec).magnitude w =
      if w / 2 ^ spec.mantissaBitsWithoutImplicit = 0 then
        ⟨w % 2 ^ spec.mantissaBitsWithoutImplicit, spec.minExponent⟩
      else
        ⟨2 ^ spec.mantissaBitsWithoutImplicit + w % 2 ^ spec.mantissaBitsWithoutImplicit,
          spec.minExponent + (w / 2 ^ spec.mantissaBitsWithoutImplicit - 1 : ℕ)⟩ := by
  rw [Binary.Format.magnitude, leastExponent_layout]
  split
  · rename_i hfield
    exact (if_pos hfield).symm
  · rename_i hfield
    refine Eq.trans ?_ (if_neg hfield).symm
    congr 2
    show ((w / 2 ^ spec.mantissaBitsWithoutImplicit : ℕ) : ℤ) - 1 = _
    have hpos : w / 2 ^ spec.mantissaBitsWithoutImplicit ≠ 0 := hfield
    generalize w / 2 ^ spec.mantissaBitsWithoutImplicit = field at *
    omega

theorem two_pow_mantissaBits :
    2 ^ spec.mantissaBits = 2 * 2 ^ spec.mantissaBitsWithoutImplicit := by
  rw [Format.mantissaBits, pow_add, pow_one]

/-- A canonical magnitude is that of its word. -/
theorem magnitude_wordOf {m : ℕ} {e : ℤ} (hm : m < 2 ^ spec.mantissaBits)
    (he : spec.minExponent ≤ e) (h : Full spec m e) :
    (layout spec).magnitude (wordOf spec m e) = ⟨m, e⟩ := by
  have hunit := Nat.two_pow_pos spec.mantissaBitsWithoutImplicit
  rw [two_pow_mantissaBits] at hm
  rw [Full] at h
  rw [magnitude_eq, wordOf]
  generalize 2 ^ spec.mantissaBitsWithoutImplicit = unit at *
  rcases lt_or_ge m unit with hlt | hge
  · have hmin : e = spec.minExponent := by
      by_contra hne
      have := h (by omega)
      omega
    rw [hmin, sub_self, Int.toNat_zero, zero_mul, zero_add, Nat.div_eq_of_lt hlt, if_pos rfl,
      Nat.mod_eq_of_lt hlt]
  · obtain ⟨f, rfl⟩ := Nat.exists_eq_add_of_le hge
    have hf : f < unit := by omega
    have hfield : ((e - spec.minExponent).toNat * unit + (unit + f)) / unit =
        (e - spec.minExponent).toNat + 1 := by
      rw [← add_assoc, ← Nat.succ_mul, Nat.add_comm, Nat.add_mul_div_right _ _ hunit,
        Nat.div_eq_of_lt hf, zero_add]
    have hfraction : ((e - spec.minExponent).toNat * unit + (unit + f)) % unit = f := by
      rw [← add_assoc, ← Nat.succ_mul, Nat.add_comm, Nat.add_mul_mod_self_right,
        Nat.mod_eq_of_lt hf]
    rw [hfield, hfraction, if_neg (Nat.succ_ne_zero _), Nat.add_sub_cancel]
    congr 1
    omega

/-- Every word is the word of its magnitude, which is canonical. -/
theorem wordOf_magnitude (spec : Format) (w : ℕ) :
    let m := (layout spec).magnitude w
    m.significand < 2 ^ spec.mantissaBits ∧ spec.minExponent ≤ m.exponent ∧
      Full spec m.significand m.exponent ∧ wordOf spec m.significand m.exponent = w := by
  have hunit := Nat.two_pow_pos spec.mantissaBitsWithoutImplicit
  rw [two_pow_mantissaBits, magnitude_eq]
  simp only [Full, wordOf]
  have hdiv := Nat.div_add_mod' w (2 ^ spec.mantissaBitsWithoutImplicit)
  have hmod := Nat.mod_lt w hunit
  generalize 2 ^ spec.mantissaBitsWithoutImplicit = unit at *
  split
  · rename_i hfield
    rw [hfield] at hdiv
    refine ⟨by dsimp only; omega, le_rfl, fun hlt => absurd hlt (lt_irrefl _), ?_⟩
    simp only [sub_self, Int.toNat_zero]
    exact hdiv
  · rename_i hfield
    refine ⟨by dsimp only; omega, by dsimp only; omega, fun _ => Nat.le_add_right _ _, ?_⟩
    simp only [add_sub_cancel_left, Int.toNat_natCast]
    obtain ⟨field, hfield'⟩ := Nat.exists_eq_succ_of_ne_zero hfield
    rw [hfield'] at hdiv ⊢
    rw [Nat.succ_sub_one, ← add_assoc, ← Nat.succ_mul]
    exact hdiv

theorem size_zero : size ((layout spec).magnitude 0) = 0 := by
  rw [magnitude_eq]
  simp [size]

/-- The size of a word, also when its significand has one bit too many: the word then carries into
the exponent's field. -/
theorem size_wordOf {m : ℕ} {e : ℤ} (hm : m ≤ 2 ^ spec.mantissaBits) (he : spec.minExponent ≤ e)
    (h : Full spec m e) : size ((layout spec).magnitude (wordOf spec m e)) = m * 2 ^ e := by
  rcases hm.lt_or_eq with hlt | rfl
  · rw [magnitude_wordOf hlt he h, size]
  · have hcarry : wordOf spec (2 ^ spec.mantissaBits) e =
        wordOf spec (2 ^ spec.mantissaBitsWithoutImplicit) (e + 1) := by
      have hk : (e + 1 - spec.minExponent).toNat = (e - spec.minExponent).toNat + 1 := by omega
      rw [wordOf, wordOf, hk, two_pow_mantissaBits]
      ring
    have hfew : 2 ^ spec.mantissaBitsWithoutImplicit < 2 ^ spec.mantissaBits :=
      Nat.pow_lt_pow_right one_lt_two (by rw [Format.mantissaBits]; omega)
    rw [hcarry, magnitude_wordOf hfew (by omega) fun _ => le_rfl, size, two_pow_mantissaBits,
      zpow_add_one₀ two_ne_zero]
    push_cast
    ring

/-- The next word is the next magnitude: one unit of its exponent more. -/
theorem size_succ (w : ℕ) :
    size ((layout spec).magnitude (w + 1)) =
      size ((layout spec).magnitude w) + 2 ^ ((layout spec).magnitude w).exponent := by
  obtain ⟨hm, he, hfull, hw⟩ := wordOf_magnitude spec w
  generalize (layout spec).magnitude w = a at *
  have hnext : w + 1 = wordOf spec (a.significand + 1) a.exponent := by
    rw [← hw, wordOf, wordOf, add_assoc]
  rw [hnext, size_wordOf hm he fun h => (hfull h).trans (Nat.le_succ _), size]
  push_cast
  ring

theorem size_strictMono (spec : Format) : StrictMono fun w => size ((layout spec).magnitude w) :=
  strictMono_nat_of_lt_succ fun w => by
    rw [size_succ]
    exact lt_add_of_pos_right _ (by positivity)

theorem toNat_unpackMantissa (b : BitVec spec.numBits) :
    (unpackMantissa b).toNat = b.toNat % 2 ^ spec.mantissaBitsWithoutImplicit := by
  have hpos := spec.hm
  simp only [unpackMantissa, BitVec.toNat_cast, BitVec.extractLsb_toNat, Nat.shiftRight_zero]
  congr 2
  omega

theorem toNat_unpackExponent (b : BitVec spec.numBits) :
    (unpackExponent b).toNat =
      b.toNat / 2 ^ spec.mantissaBitsWithoutImplicit % 2 ^ spec.exponentBits := by
  have hpos := spec.he
  simp only [unpackExponent, BitVec.toNat_cast, BitVec.extractLsb_toNat, Nat.shiftRight_eq_div_pow]
  congr 2
  omega

theorem toNat_unpackSign (b : BitVec spec.numBits) :
    (unpackSign b).toNat =
      b.toNat / 2 ^ (spec.mantissaBitsWithoutImplicit + spec.exponentBits) % 2 := by
  simp only [unpackSign, BitVec.toNat_cast, BitVec.extractLsb_toNat, Nat.shiftRight_eq_div_pow]
  congr 1
  simp

/-! ## Unpacking -/

def signOf (spec : Format) (w : ℕ) : Sign :=
  if w < (layout spec).signBit then .positive else .negative

theorem signBit_eq :
    (layout spec).signBit = 2 ^ spec.mantissaBitsWithoutImplicit * 2 ^ spec.exponentBits :=
  pow_add ..

theorem two_mul_signBit : 2 * (layout spec).signBit = 2 ^ spec.numBits := by
  rw [signBit_eq, Format.numBits, pow_add, pow_add, pow_one]
  ring

theorem toNat_lt (b : BitVec spec.numBits) : b.toNat < 2 * (layout spec).signBit := by
  rw [two_mul_signBit]
  exact b.isLt

theorem ofBitVec_unpackSign (b : BitVec spec.numBits) :
    Sign.ofBitVec (unpackSign b) = signOf spec b.toNat := by
  have hlt := toNat_lt b
  have hpos : 0 < (layout spec).signBit := Nat.two_pow_pos _
  have hbit : (unpackSign b = 0#1) ↔ b.toNat < (layout spec).signBit := by
    rw [← BitVec.toNat_inj, toNat_unpackSign, ← Nat.div_eq_zero_iff_lt hpos]
    have htwo : b.toNat / (layout spec).signBit < 2 :=
      Nat.div_lt_of_lt_mul (by rwa [mul_comm] at hlt)
    show b.toNat / (layout spec).signBit % 2 = 0 ↔ _
    rw [Nat.mod_eq_of_lt htwo]
  simp only [Sign.ofBitVec, hbit, signOf]

/-- The exponent's field and the fraction do not depend on the sign. -/
theorem toNat_unpackExponent' (b : BitVec spec.numBits) :
    (unpackExponent b).toNat =
      b.toNat % (layout spec).signBit / 2 ^ spec.mantissaBitsWithoutImplicit := by
  rw [toNat_unpackExponent, signBit_eq, Nat.mod_mul_right_div_self]

theorem toNat_unpackMantissa' (b : BitVec spec.numBits) :
    (unpackMantissa b).toNat =
      b.toNat % (layout spec).signBit % 2 ^ spec.mantissaBitsWithoutImplicit := by
  rw [toNat_unpackMantissa, signBit_eq, Nat.mod_mul_right_mod]

theorem infinity_eq :
    (layout spec).infinity = (2 ^ spec.exponentBits - 1) * 2 ^ spec.mantissaBitsWithoutImplicit :=
  rfl

theorem append_implicit (f : BitVec spec.mantissaBitsWithoutImplicit) :
    (1#1 ++ f).toNat = 2 ^ spec.mantissaBitsWithoutImplicit + f.toNat := by
  rw [BitVec.toNat_append, ← Nat.shiftLeft_add_eq_or_of_lt f.isLt]
  simp [Nat.shiftLeft_eq]

theorem unpackExponent_eq_ones (b : BitVec spec.numBits) :
    unpackExponent b = -1#_ ↔ (layout spec).infinity ≤ b.toNat % (layout spec).signBit := by
  have hunit := Nat.two_pow_pos spec.mantissaBitsWithoutImplicit
  have hfields := Nat.two_pow_pos spec.exponentBits
  have hlt : b.toNat % (layout spec).signBit / 2 ^ spec.mantissaBitsWithoutImplicit <
      2 ^ spec.exponentBits := by
    rw [← toNat_unpackExponent']
    exact (unpackExponent b).isLt
  rw [← BitVec.toNat_inj, toNat_unpackExponent', BitVec.neg_one_eq_allOnes, BitVec.toNat_allOnes,
    infinity_eq, ← Nat.le_div_iff_mul_le hunit]
  omega

theorem minExponent_eq :
    spec.minExponent = 1 - (spec.exponentBias + spec.mantissaBitsWithoutImplicit : ℤ) := by
  have hpow : 1 ≤ 2 ^ (spec.exponentBits - 1) := Nat.one_le_two_pow
  rw [Format.minExponent, mantissaBits_eq, Format.exponentBias, Nat.cast_sub hpow]
  push_cast
  ring

theorem finite_eq_assemble (sign : Sign) {m n : ℕ} {e k : ℤ} (hm : 0 < m) (hmn : m = n)
    (hek : e = k) : UnpackedFloat.finite sign m e hm = assemble sign n k := by
  subst hmn hek
  rw [assemble, dif_neg hm.ne']

/-- A word below infinity is the number of its magnitude. -/
theorem unpack_of_lt (b : BitVec spec.numBits)
    (h : b.toNat % (layout spec).signBit < (layout spec).infinity) :
    let m := (layout spec).magnitude (b.toNat % (layout spec).signBit)
    unpack spec b = assemble (signOf spec b.toNat) m.significand m.exponent := by
  have hones : ¬unpackExponent b = -1#_ := fun hb =>
    absurd ((unpackExponent_eq_ones b).mp hb) (not_le.mpr h)
  have hfield : unpackExponent b = 0#_ ↔
      b.toNat % (layout spec).signBit / 2 ^ spec.mantissaBitsWithoutImplicit = 0 := by
    rw [← BitVec.toNat_inj, toNat_unpackExponent']
    rfl
  have hfraction : unpackMantissa b = 0#_ ↔
      b.toNat % (layout spec).signBit % 2 ^ spec.mantissaBitsWithoutImplicit = 0 := by
    rw [← BitVec.toNat_inj, toNat_unpackMantissa']
    rfl
  intro m
  simp only [unpack, if_neg hones, ofBitVec_unpackSign]
  by_cases hsmall : unpackExponent b = 0#_
  · -- Below the normal words the fraction is the whole significand.
    have hm : m = ⟨b.toNat % (layout spec).signBit % 2 ^ spec.mantissaBitsWithoutImplicit,
        spec.minExponent⟩ := (magnitude_eq spec _).trans (if_pos (hfield.mp hsmall))
    rw [if_pos hsmall, hm]
    split
    · rename_i hzero
      rw [assemble, dif_pos (hfraction.mp hzero)]
    · refine finite_eq_assemble _ _ (toNat_unpackMantissa' b) ?_
      rw [hsmall, minExponent_eq]
      simp
      ring
  · -- A normal word has a leading bit in front of its fraction.
    have hm : m = ⟨2 ^ spec.mantissaBitsWithoutImplicit +
          b.toNat % (layout spec).signBit % 2 ^ spec.mantissaBitsWithoutImplicit,
        spec.minExponent +
          (b.toNat % (layout spec).signBit / 2 ^ spec.mantissaBitsWithoutImplicit - 1 : ℕ)⟩ :=
      (magnitude_eq spec _).trans (if_neg fun h => hsmall (hfield.mpr h))
    rw [if_neg hsmall, hm]
    refine finite_eq_assemble _ _ ?_ ?_
    · rw [append_implicit, toNat_unpackMantissa']
    · rw [toNat_unpackExponent', minExponent_eq]
      have hpos := mt hfield.mpr hsmall
      generalize b.toNat % (layout spec).signBit / 2 ^ spec.mantissaBitsWithoutImplicit = field at *
      dsimp only
      omega

/-- The word of infinity. -/
theorem unpack_of_eq (b : BitVec spec.numBits)
    (h : b.toNat % (layout spec).signBit = (layout spec).infinity) :
    unpack spec b = .infinity (signOf spec b.toNat) := by
  have hones : unpackExponent b = -1#_ := (unpackExponent_eq_ones b).mpr h.ge
  have hfraction : unpackMantissa b = 0#_ := by
    rw [← BitVec.toNat_inj, toNat_unpackMantissa', h, infinity_eq, Nat.mul_mod_left]
    rfl
  simp only [unpack, if_pos hones, if_pos hfraction, ofBitVec_unpackSign]

/-- The words above infinity are undefined. -/
theorem unpack_of_gt (b : BitVec spec.numBits)
    (h : (layout spec).infinity < b.toNat % (layout spec).signBit) :
    unpack spec b = .notANumber := by
  have hones : unpackExponent b = -1#_ := (unpackExponent_eq_ones b).mpr h.le
  have hfraction : ¬unpackMantissa b = 0#_ := by
    rw [← BitVec.toNat_inj, toNat_unpackMantissa']
    intro hzero
    have hfield := congrArg BitVec.toNat hones
    rw [toNat_unpackExponent', BitVec.neg_one_eq_allOnes, BitVec.toNat_allOnes] at hfield
    have hdiv := Nat.div_add_mod' (b.toNat % (layout spec).signBit)
      (2 ^ spec.mantissaBitsWithoutImplicit)
    rw [hzero, hfield, BitVec.toNat_zero, add_zero, ← infinity_eq] at hdiv
    omega
  simp only [unpack, if_pos hones, if_neg hfraction]

theorem canonical_unpack (b : BitVec spec.numBits) : Canonical spec (unpack spec b) := by
  rcases lt_trichotomy (b.toNat % (layout spec).signBit) (layout spec).infinity with h | h | h
  · obtain ⟨hm, he, hfull, -⟩ := wordOf_magnitude spec (b.toNat % (layout spec).signBit)
    rw [unpack_of_lt b h]
    exact canonical_assemble _ hm he hfull
  · rw [unpack_of_eq b h]
    trivial
  · rw [unpack_of_gt b h]
    trivial

/-! ## Packing -/

def signedWord (spec : Format) (sign : Sign) (w : ℕ) : ℕ :=
  match sign with
  | .negative => (layout spec).signBit + w
  | .positive => w

theorem toNat_packComponents (sign : Sign) (field : BitVec spec.exponentBits)
    (fraction : BitVec spec.mantissaBitsWithoutImplicit) :
    (packComponents spec sign field fraction).toNat =
      signedWord spec sign
        (field.toNat * 2 ^ spec.mantissaBitsWithoutImplicit + fraction.toNat) := by
  rw [packComponents, BitVec.toNat_append, ← Nat.shiftLeft_add_eq_or_of_lt fraction.isLt,
    BitVec.toNat_append, ← Nat.shiftLeft_add_eq_or_of_lt field.isLt, Nat.shiftLeft_eq,
    Nat.shiftLeft_eq]
  cases sign with
  | negative =>
    simp only [signedWord, signBit_eq, Sign.toBitVec, BitVec.toNat_ofNat]
    ring
  | positive =>
    simp [signedWord, Sign.toBitVec]

theorem log2_eq_iff {m : ℕ} (hm : m < 2 ^ spec.mantissaBits) (hpos : 0 < m) :
    m.log2 + 1 = spec.mantissaBits ↔ 2 ^ spec.mantissaBitsWithoutImplicit ≤ m := by
  have hlt := (Nat.log2_lt hpos.ne').mpr hm
  have hle := Nat.le_log2 (k := spec.mantissaBitsWithoutImplicit) hpos.ne'
  rw [← hle]
  have hbits : spec.mantissaBits = 1 + spec.mantissaBitsWithoutImplicit := rfl
  omega

/-- A significand and its exponent's field, for a number with or without the leading bit. -/
theorem field_eq {e : ℤ} (he : spec.minExponent ≤ e) :
    (e + spec.exponentBias + spec.mantissaBitsWithoutImplicit).toNat =
      (e - spec.minExponent).toNat + 1 := by
  rw [minExponent_eq] at he ⊢
  omega

/-- A canonical number below infinity is packed into the word of its magnitude. -/
theorem toNat_pack (hbits : 1 < spec.exponentBits) (sign : Sign) {m : ℕ} {e : ℤ}
    (hm : m < 2 ^ spec.mantissaBits) (he : spec.minExponent ≤ e) (h : Full spec m e)
    (hfits : wordOf spec m e < (layout spec).infinity) :
    (pack spec (assemble sign m e)).toNat = signedWord spec sign (wordOf spec m e) := by
  have hunit := Nat.two_pow_pos spec.mantissaBitsWithoutImplicit
  have hfields : 4 ≤ 2 ^ spec.exponentBits :=
    (by norm_num : 4 = 2 ^ 2) ▸ Nat.pow_le_pow_right two_pos hbits
  have hlow (hlt : m < 2 ^ spec.mantissaBitsWithoutImplicit) :
      (e - spec.minExponent).toNat = 0 := by
    by_contra hne
    have := h (by omega)
    omega
  rw [wordOf, infinity_eq] at hfits
  rw [assemble]
  split
  · rename_i hzero
    rw [pack, packedZero, toNat_packComponents, wordOf, hlow (by omega), hzero]
    simp
  · rename_i hpos
    have hnormal := log2_eq_iff hm (Nat.pos_of_ne_zero hpos)
    rw [two_pow_mantissaBits] at hm
    simp only [pack, field_eq he, hnormal, wordOf]
    generalize hk : (e - spec.minExponent).toNat = k at *
    rcases Nat.lt_or_ge m (2 ^ spec.mantissaBitsWithoutImplicit) with hlt | hge
    · -- Without the leading bit the exponent is the least, and its field is zero.
      have hk₀ := hlow hlt
      rw [if_neg (by omega), if_neg (by omega), toNat_packComponents, hk₀, BitVec.toNat_ofNat,
        BitVec.toNat_ofNat, Nat.mod_eq_of_lt hlt]
      simp
    · have hfield : k + 1 < 2 ^ spec.exponentBits - 1 := by
        by_contra hle
        have hmul := Nat.mul_le_mul_right (2 ^ spec.mantissaBitsWithoutImplicit) (not_lt.mp hle)
        rw [Nat.succ_mul] at hmul
        omega
      have hmod : m % 2 ^ spec.mantissaBitsWithoutImplicit =
          m - 2 ^ spec.mantissaBitsWithoutImplicit := by
        rw [Nat.mod_eq_sub_mod hge, Nat.mod_eq_of_lt (by omega)]
      rw [if_neg (by omega), if_pos hge, toNat_packComponents, BitVec.toNat_ofNat,
        BitVec.toNat_ofNat, Nat.mod_eq_of_lt (by omega : k + 1 < _), hmod, Nat.succ_mul]
      congr 1
      omega

/-- A canonical number that is too large is packed into infinity. -/
theorem pack_of_overflow (sign : Sign) {m : ℕ} {e : ℤ} (hm : m < 2 ^ spec.mantissaBits)
    (he : spec.minExponent ≤ e) (h : Full spec m e)
    (hlarge : (layout spec).infinity ≤ wordOf spec m e) :
    pack spec (assemble sign m e) = packedInfinity spec sign := by
  have hunit := Nat.two_pow_pos spec.mantissaBitsWithoutImplicit
  have hfields : 2 ≤ 2 ^ spec.exponentBits :=
    (by norm_num : 2 = 2 ^ 1) ▸ Nat.pow_le_pow_right two_pos spec.he
  have hinf : 2 ^ spec.mantissaBitsWithoutImplicit ≤ (layout spec).infinity := by
    rw [infinity_eq]
    exact Nat.le_mul_of_pos_left _ (by omega)
  rw [wordOf] at hlarge
  rw [two_pow_mantissaBits] at hm
  have hge : 2 ^ spec.mantissaBitsWithoutImplicit ≤ m := by
    by_contra hlt
    have hmin : ¬spec.minExponent < e := fun hlt' => hlt (h hlt')
    have hk : (e - spec.minExponent).toNat = 0 := by omega
    rw [hk, zero_mul, zero_add] at hlarge
    omega
  have hfield : 2 ^ spec.exponentBits - 1 ≤ (e - spec.minExponent).toNat + 1 := by
    by_contra hlt
    rw [infinity_eq] at hlarge
    have hmul := Nat.mul_le_mul_right (2 ^ spec.mantissaBitsWithoutImplicit)
      (Nat.succ_le_of_lt (not_le.mp hlt))
    rw [Nat.succ_mul, Nat.succ_mul] at hmul
    omega
  rw [assemble, dif_neg (by omega)]
  simp only [pack, field_eq he]
  rw [if_pos (by omega)]

theorem infinity_lt_signBit (spec : Format) : (layout spec).infinity < (layout spec).signBit := by
  have hunit := Nat.two_pow_pos spec.mantissaBitsWithoutImplicit
  have hfields := Nat.two_pow_pos spec.exponentBits
  rw [infinity_eq, signBit_eq, mul_comm]
  exact Nat.mul_lt_mul_of_pos_left (by omega) hunit

theorem signedWord_mod (sign : Sign) {w : ℕ} (h : w < (layout spec).signBit) :
    signedWord spec sign w % (layout spec).signBit = w := by
  cases sign with
  | negative => simp only [signedWord, Nat.add_mod_left, Nat.mod_eq_of_lt h]
  | positive => exact Nat.mod_eq_of_lt h

theorem signOf_signedWord (sign : Sign) {w : ℕ} (h : w < (layout spec).signBit) :
    signOf spec (signedWord spec sign w) = sign := by
  cases sign with
  | negative => exact if_neg (by simp [signedWord])
  | positive => exact if_pos h

/-- The least magnitude that is too large for the format. -/
@[irreducible]
def overflow (spec : Format) : ℚ :=
  size ((layout spec).magnitude (layout spec).infinity)

theorem size_lt_overflow_iff {w : ℕ} :
    size ((layout spec).magnitude w) < overflow spec ↔ w < (layout spec).infinity := by
  rw [overflow]
  exact (size_strictMono spec).lt_iff_lt

/-- A canonical finite number has a significand, which may be zero, and an exponent. -/
theorem Canonical.exists_assemble {u : UnpackedFloat} (h : Canonical spec u)
    (hfinite : u.isFinite = true) :
    ∃ (sign : Sign) (m : ℕ) (e : ℤ), u = assemble sign m e ∧ m < 2 ^ spec.mantissaBits ∧
      spec.minExponent ≤ e ∧ Full spec m e := by
  cases u with
  | notANumber | infinity => cases hfinite
  | zero s =>
    exact ⟨s, 0, spec.minExponent, rfl, Nat.two_pow_pos _, le_rfl, fun h => absurd h (lt_irrefl _)⟩
  | finite s m e hm => exact ⟨s, m, e, finite_eq_assemble s hm rfl rfl, h.1, h.2.1, h.2.2⟩

theorem abs_signed {x : ℚ} (sign : Sign) (hx : 0 ≤ x) : |signed sign x| = x := by
  cases sign with
  | negative => exact (abs_neg x).trans (abs_of_nonneg hx)
  | positive => exact abs_of_nonneg hx

/-- Every number of the grid that is not negative is the size of a word. -/
theorem OnGrid.exists_word {q : ℚ} (h : OnGrid spec q) (hq : 0 ≤ q) :
    ∃ w, size ((layout spec).magnitude w) = q := by
  obtain ⟨n, k, hn, hk, hnk⟩ := id h
  rcases hq.eq_or_lt with rfl | hpos
  · exact ⟨0, size_zero⟩
  · have hn₀ : 0 < n := by
      have hunit : (0 : ℚ) < 2 ^ k := by positivity
      exact_mod_cast pos_of_mul_pos_left (hnk ▸ hpos) hunit.le
    have hcast : ((n.toNat : ℕ) : ℚ) = n := by exact_mod_cast Int.toNat_of_nonneg hn₀.le
    -- Rounding brings the number into canonical form and does not change it.
    have hround := round_rounds spec (m := n.toNat) .positive (by omega) k
    have hnumber : number (round spec .positive n.toNat k) = q := by
      rw [hround.rounds.eq_of_onGrid] <;> simp only [signed, hcast, ← hnk]
      exact h
    obtain ⟨sign, m, e, hu, hm, he, hfull⟩ := hround.canonical.exists_assemble hround.finite
    refine ⟨wordOf spec m e, ?_⟩
    rw [magnitude_wordOf hm he hfull, size, ← abs_of_pos hpos, ← hnumber, hu, number_assemble,
      abs_signed _ (by positivity)]

/-- Packing loses nothing of a canonical number that is not too large. -/
theorem unpack_pack (hbits : 1 < spec.exponentBits) {u : UnpackedFloat} (h : Canonical spec u)
    (hfinite : u.isFinite = true) (hlt : |number u| < overflow spec) :
    unpack spec (pack spec u) = u := by
  obtain ⟨sign, m, e, rfl, hm, he, hfull⟩ := h.exists_assemble hfinite
  have hmagnitude := magnitude_wordOf hm he hfull
  have hfits : wordOf spec m e < (layout spec).infinity := by
    rw [← size_lt_overflow_iff, hmagnitude, size]
    rwa [number_assemble, abs_signed _ (by positivity)] at hlt
  have hsign := hfits.trans (infinity_lt_signBit spec)
  have hword := toNat_pack hbits sign hm he hfull hfits
  have hrest : (pack spec (assemble sign m e)).toNat % (layout spec).signBit = wordOf spec m e := by
    rw [hword, signedWord_mod sign hsign]
  rw [unpack_of_lt _ (by rwa [hrest]), hrest, hmagnitude, hword, signOf_signedWord sign hsign]

theorem toNat_packedInfinity (sign : Sign) :
    (packedInfinity spec sign).toNat = signedWord spec sign (layout spec).infinity := by
  rw [packedInfinity, toNat_packComponents, BitVec.neg_one_eq_allOnes, BitVec.toNat_allOnes]
  rfl

theorem unpack_packedInfinity (sign : Sign) :
    unpack spec (packedInfinity spec sign) = .infinity sign := by
  have hsign := infinity_lt_signBit spec
  have hrest :
      (packedInfinity spec sign).toNat % (layout spec).signBit = (layout spec).infinity := by
    rw [toNat_packedInfinity, signedWord_mod sign hsign]
  rw [unpack_of_eq _ hrest, toNat_packedInfinity, signOf_signedWord sign hsign]

/-- A canonical number that is too large comes back as infinity. -/
theorem unpack_pack_of_overflow {u : UnpackedFloat} (h : Canonical spec u)
    (hfinite : u.isFinite = true) (hle : overflow spec ≤ |number u|) :
    ∃ sign, unpack spec (pack spec u) = .infinity sign := by
  obtain ⟨sign, m, e, rfl, hm, he, hfull⟩ := h.exists_assemble hfinite
  refine ⟨sign, ?_⟩
  rw [pack_of_overflow sign hm he hfull, unpack_packedInfinity]
  rw [number_assemble, abs_signed _ (by positivity)] at hle
  by_contra hlt
  rw [not_le, ← size_lt_overflow_iff, magnitude_wordOf hm he hfull] at hlt
  exact absurd hle (not_le.mpr hlt)

end PanZoom.Precision
