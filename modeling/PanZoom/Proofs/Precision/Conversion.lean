import PanZoom.Proofs.Precision.Decode

namespace PanZoom

open Precision
open Binary (Magnitude)

theorem Single.ofRatio_roundsTo (negative : Bool) (num : ℕ) {den : ℕ} (hden : 0 < den)
    (h : (num : ℚ) / den ≤ roomy .binary32) :
    RoundsTo (Single.ofRatio negative num den) (negatedIf negative (num / den)) :=
  nearest_roundsTo (F := Float32) negative num hden h

namespace Double

theorem ofRatio_roundsTo (negative : Bool) (num : ℕ) {den : ℕ} (hden : 0 < den)
    (h : (num : ℚ) / den ≤ roomy .binary64) :
    RoundsTo (ofRatio negative num den) (negatedIf negative (num / den)) :=
  nearest_roundsTo (F := Float) negative num hden h

theorem cast_signed (negative : Bool) (n : ℕ) :
    ((signed negative n : ℤ) : ℚ) = negatedIf negative n := by
  cases negative with
  | true => simp [signed, negatedIf]
  | false => simp [signed, negatedIf]

theorem negatedIf_mul (s t : Bool) (q r : ℚ) :
    negatedIf s q * negatedIf t r = negatedIf (s != t) (q * r) := by
  cases s <;> cases t <;> simp [negatedIf]

theorem negatedIf_mul_right (negative : Bool) (q r : ℚ) :
    negatedIf negative q * r = negatedIf negative (q * r) := by
  cases negative <;> simp [negatedIf]

/-- A multiple of a power of two, as a multiple of a lower power. -/
theorem signed_shift (negative : Bool) (n : ℕ) {k least : ℤ} (h : least ≤ k) :
    (signed negative n : ℚ) * 2 ^ (k - least).toNat * 2 ^ least =
      negatedIf negative (n * 2 ^ k) := by
  have hpow : (2 : ℚ) ^ k = 2 ^ (k - least).toNat * 2 ^ least := by
    rw [← zpow_natCast, ← zpow_add₀ two_ne_zero]
    congr 1
    omega
  rw [cast_signed, mul_assoc, ← hpow, negatedIf_mul_right]

theorem negatedIf_lt_zero (n : ℤ) : negatedIf (decide (n < 0)) (n.natAbs : ℚ) = n := by
  rcases lt_or_ge n 0 with h | h
  · rw [decide_eq_true h, negatedIf, if_pos rfl]
    exact_mod_cast (by omega : -(n.natAbs : ℤ) = n)
  · rw [decide_eq_false (not_lt.mpr h), negatedIf, if_neg Bool.false_ne_true]
    rw [← Int.cast_natCast, Int.natAbs_of_nonneg h]

/-- The number nearest to a whole multiple of a power of two. -/
theorem ofRatio_shift_roundsTo (n k : ℤ) (h : |(n : ℚ) * 2 ^ k| ≤ roomy .binary64) :
    RoundsTo (ofRatio (n < 0) (n.natAbs <<< k.toNat) (1 <<< (-k).toNat)) (n * 2 ^ k) := by
  have hquotient := shifted_quotient n.natAbs 1 (-k)
  rw [neg_neg, Nat.cast_one, div_one, zpow_neg, div_inv_eq_mul] at hquotient
  have hden : 0 < 1 <<< (-k).toNat := by
    rw [Nat.one_shiftLeft]
    exact Nat.two_pow_pos _
  have hround := ofRatio_roundsTo (n < 0) (n.natAbs <<< k.toNat) hden (by
    rw [hquotient]
    rwa [abs_mul, abs_of_nonneg (by positivity : (0 : ℚ) ≤ 2 ^ k), ← Int.cast_abs,
      Int.abs_eq_natAbs, Int.cast_natCast] at h)
  rwa [hquotient, ← negatedIf_mul_right, negatedIf_lt_zero] at hround

/-- A product with a third number added is rounded once. -/
theorem multiplyAdd_roundsTo {a b c : Float} (ha : IsFinite a) (hb : IsFinite b) (hc : IsFinite c)
    (hlimit : |toRat c| ≤ roomy .binary64)
    (h : |toRat a * toRat b + toRat c| ≤ roomy .binary64) :
    RoundsTo (multiplyAdd a b c) (toRat a * toRat b + toRat c) := by
  obtain ⟨hva, hra⟩ := decoded_of_isFinite ha
  obtain ⟨hvb, hrb⟩ := decoded_of_isFinite hb
  obtain ⟨hvc, hrc⟩ := decoded_of_isFinite hc
  have hvalue (x : Float) : value x = decoded x := rfl
  rw [multiplyAdd, hvalue, hvalue, hvalue, hva, hvb, hvc]
  simp only [Nat.pow_eq, Nat.cast_pow, Nat.cast_ofNat]
  generalize Binary.Format.magnitude _ (rest a) = ma at hra ⊢
  generalize Binary.Format.magnitude _ (rest b) = mb at hrb ⊢
  generalize Binary.Format.magnitude _ (rest c) = mc at hrc ⊢
  generalize decide (_ ≤ (Machine.word a).toNat) = sa at hra ⊢
  generalize decide (_ ≤ (Machine.word b).toNat) = sb at hrb ⊢
  generalize decide (_ ≤ (Machine.word c).toNat) = sc at hrc ⊢
  generalize hleast : min (ma.exponent + mb.exponent) mc.exponent = least
  generalize hsum : signed (sa != sb) (ma.significand * mb.significand) *
      2 ^ (ma.exponent + mb.exponent - least).toNat +
      signed sc mc.significand * 2 ^ (mc.exponent - least).toNat = sum
  have hexact : (sum : ℚ) * 2 ^ least = toRat a * toRat b + toRat c := by
    have hproduct := signed_shift (sa != sb) (ma.significand * mb.significand)
      (hleast ▸ min_le_left _ _ : least ≤ ma.exponent + mb.exponent)
    have hthird := signed_shift sc mc.significand (hleast ▸ min_le_right _ _ : least ≤ mc.exponent)
    rw [← hsum, hra, hrb, hrc, negatedIf_mul, size, size, size]
    push_cast at hproduct ⊢
    rw [add_mul, hproduct, hthird, zpow_add₀ two_ne_zero]
    ring_nf
  split
  · rename_i hzero
    -- The product is then the third number's negative, which the machine finds exactly.
    rw [hzero, Int.cast_zero, zero_mul] at hexact
    have hproduct : toRat a * toRat b = -toRat c := by linarith
    have hmul : RoundsTo (a * b) (toRat a * toRat b) := mul_roundsTo ha hb (by
      rw [hproduct, abs_neg]
      exact hlimit)
    have hmul' : toRat (a * b) = -toRat c := by
      rw [hmul.rounds.eq_of_onGrid (hproduct ▸ (onGrid_toRat c).neg), hproduct]
    have hadd := add_roundsTo hmul.finite hc (by
      rw [hmul', neg_add_cancel, abs_zero]
      exact (abs_nonneg _).trans h)
    rwa [hmul', ← hproduct] at hadd
  · rw [← hexact] at h ⊢
    exact ofRatio_shift_roundsTo sum least h

theorem multiplyAdd_within {a b c : Float} {least greatest low high : ℚ} (ha : IsFinite a)
    (hb : IsFinite b) (hc : Within c least greatest) (hle : low ≤ toRat a * toRat b + toRat c)
    (hge : toRat a * toRat b + toRat c ≤ high)
    (hshort : (IsShort least ∧ IsShort greatest) ∧ IsShort low ∧ IsShort high) :
    Within (multiplyAdd a b c) low high := by
  have hterm : |toRat c| ≤ roomy .binary64 :=
    abs_le_roomy_of_short (F := Float) hshort.1 hc.le hc.ge
  have hsum : |toRat a * toRat b + toRat c| ≤ roomy .binary64 :=
    abs_le_roomy_of_short (F := Float) hshort.2 hle hge
  exact (multiplyAdd_roundsTo ha hb hc.finite hterm hsum).within_short hle hge hshort.2

end Double

namespace Single

/-- A whole number with no more bits than a significand is kept exactly. -/
theorem toRat_ofRatio_natCast (negative : Bool) {n : ℕ} (h : n ≤ 2 ^ 24) :
    IsFinite (ofRatio negative n 1) ∧ toRat (ofRatio negative n 1) = negatedIf negative n := by
  have hshort := IsShort.natCast h
  have hroom : |(n : ℚ)| ≤ roomy .binary32 := hshort.abs_le_roomy (F := Float32)
  have hround := ofRatio_roundsTo negative n one_pos (by simpa using hroom)
  rw [Nat.cast_one, div_one] at hround
  refine ⟨hround.finite, hround.rounds.eq_of_onGrid ?_⟩
  cases negative with
  | true => exact hshort.neg.onGrid_format (F := Float32)
  | false => exact hshort.onGrid_format (F := Float32)

theorem floor_negatedIf (negative : Bool) (n : ℕ) {unit : ℕ} (hunit : 0 < unit) :
    (⌊negatedIf negative ((n : ℚ) / unit)⌋ : ℚ) =
      negatedIf negative (if negative ∧ n % unit ≠ 0 then n / unit + 1 else n / unit : ℕ) := by
  have hpos : (0 : ℚ) < unit := by exact_mod_cast hunit
  have hdiv : (n : ℚ) = (n / unit : ℕ) * unit + (n % unit : ℕ) := by
    exact_mod_cast (Nat.div_add_mod' n unit).symm
  have hmod : ((n % unit : ℕ) : ℚ) < unit := by exact_mod_cast Nat.mod_lt n hunit
  have hquotient : (n : ℚ) / unit = (n / unit : ℕ) + (n % unit : ℕ) / unit := by
    rw [div_eq_iff hpos.ne', add_mul, div_mul_cancel₀ _ hpos.ne', ← hdiv]
  have hpart : ((n % unit : ℕ) : ℚ) / unit < 1 := (div_lt_one hpos).mpr hmod
  generalize n / unit = whole at *
  cases negative with
  | false =>
    simp only [negatedIf, Bool.false_eq_true, false_and, if_false]
    have hfloor : ⌊(n : ℚ) / unit⌋ = whole :=
      Int.floor_eq_iff.mpr ⟨by rw [hquotient]; simp; positivity,
        by rw [hquotient]; push_cast; linarith⟩
    rw [hfloor]
    rfl
  | true =>
    simp only [negatedIf, true_and, if_true]
    -- Below zero, rounding down goes away from zero unless there is no fraction.
    by_cases hzero : n % unit = 0
    · rw [hquotient, hzero, if_neg (by simp)]
      simp only [Nat.cast_zero, zero_div, add_zero]
      exact_mod_cast Int.floor_intCast (-(whole : ℤ))
    · have hfraction : (0 : ℚ) < (n % unit : ℕ) / unit := by
        have hcast : (0 : ℚ) < (n % unit : ℕ) := by exact_mod_cast Nat.pos_of_ne_zero hzero
        positivity
      have hfloor : ⌊-((n : ℚ) / unit)⌋ = -((whole : ℤ) + 1) :=
        Int.floor_eq_iff.mpr ⟨by rw [hquotient]; push_cast; linarith,
          by rw [hquotient]; push_cast; linarith⟩
      rw [hfloor, if_pos (by simpa using hzero)]
      push_cast
      ring

/-- Rounding down gives the greatest whole number that is no greater. -/
theorem toRat_floor {x : Float32} (h : IsFinite x) :
    IsFinite (floor x) ∧ toRat (floor x) = ⌊toRat x⌋ := by
  obtain ⟨hvalue, hrat⟩ := decoded_of_isFinite h
  have hbits : _ < 2 ^ 24 := (wordOf_magnitude (Machine.format Float32) (rest x)).1
  generalize decide (_ ≤ (Machine.word x).toNat) = negative at hvalue hrat
  generalize Binary.Format.magnitude _ (rest x) = m at hvalue hrat hbits
  have hfloor : floor x = if 0 ≤ m.exponent ∨ m.significand = 0 then x
      else
        let unit := 2 ^ (-m.exponent).toNat
        ofRatio negative (if negative ∧ m.significand % unit ≠ 0 then m.significand / unit + 1
          else m.significand / unit) 1 := by
    have hdecoded : value x = .finite negative m := hvalue
    simp only [floor, hdecoded, Nat.pow_eq]
  rw [hfloor]
  split
  · rename_i hwhole
    -- There is nothing below the point.
    refine ⟨h, ?_⟩
    obtain ⟨n, hn⟩ : ∃ n : ℤ, toRat x = n := by
      rcases hwhole with hexponent | hzero
      · refine ⟨Double.signed negative (m.significand * 2 ^ m.exponent.toNat), ?_⟩
        rw [hrat, Double.cast_signed, size]
        push_cast
        rw [← zpow_natCast, Int.toNat_of_nonneg hexponent]
      · exact ⟨0, by rw [hrat, size, hzero]; cases negative <;> simp [negatedIf]⟩
    rw [hn, Int.floor_intCast]
  · rename_i hpart
    rw [not_or, not_le] at hpart
    have hunit : 0 < 2 ^ (-m.exponent).toNat := Nat.two_pow_pos _
    have hunit₂ : 2 ≤ 2 ^ (-m.exponent).toNat :=
      (by norm_num : 2 = 2 ^ 1) ▸ Nat.pow_le_pow_right two_pos (by omega)
    have hsize : size m = (m.significand : ℚ) / (2 ^ (-m.exponent).toNat : ℕ) := by
      rw [size, div_eq_mul_inv]
      congr 1
      rw [Nat.cast_pow, ← zpow_natCast, Int.toNat_of_nonneg (by omega), zpow_neg, Nat.cast_ofNat,
        inv_inv]
    have hfew : (if negative ∧ m.significand % 2 ^ (-m.exponent).toNat ≠ 0 then
        m.significand / 2 ^ (-m.exponent).toNat + 1
        else m.significand / 2 ^ (-m.exponent).toNat) ≤ 2 ^ 24 := by
      have hhalf : m.significand / 2 ^ (-m.exponent).toNat ≤ m.significand / 2 :=
        Nat.div_le_div_left hunit₂ two_pos
      split <;> omega
    obtain ⟨hfinite, hexact⟩ := toRat_ofRatio_natCast negative hfew
    refine ⟨hfinite, ?_⟩
    rw [hrat, hsize, floor_negatedIf negative m.significand hunit]
    exact hexact

end Single

end PanZoom
