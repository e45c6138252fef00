import PanZoom.Proofs.Precision.Word

namespace PanZoom.Precision

open Float.Model (Format)
open Float.Model.UnpackedFloat
open Binary (roundRatio)

variable {spec : Format} {num den : ℕ}

/-- Shifting one side of a quotient divides it by a power of two. -/
theorem shifted_quotient (num den : ℕ) (e : ℤ) :
    ((num <<< (-e).toNat : ℕ) : ℚ) / (den <<< e.toNat : ℕ) = num / den / 2 ^ e := by
  have hpow : (2 : ℚ) ^ e.toNat = 2 ^ e * 2 ^ (-e).toNat := by
    rw [← zpow_natCast, ← zpow_natCast, ← zpow_add₀ two_ne_zero]
    congr 1
    omega
  rw [Nat.shiftLeft_eq, Nat.shiftLeft_eq]
  push_cast
  rw [hpow]
  field_simp

/-- A quotient is at least the power of two at its leading bit, and below twice that. -/
theorem floorLog2_spec (hnum : 0 < num) (hden : 0 < den) :
    (2 : ℚ) ^ Binary.Format.floorLog2 num den ≤ num / den ∧
      (num : ℚ) / den < 2 ^ (Binary.Format.floorLog2 num den + 1) := by
  have hden₀ : (0 : ℚ) < den := by exact_mod_cast hden
  have hlow : (2 : ℚ) ^ ((num.log2 : ℤ) - den.log2 - 1) ≤ num / den := by
    have hnum₁ : (2 : ℚ) ^ num.log2 ≤ num := by exact_mod_cast Nat.log2_self_le hnum.ne'
    have hden₁ : (den : ℚ) ≤ 2 ^ (den.log2 + 1) := by exact_mod_cast Nat.lt_log2_self.le
    calc (2 : ℚ) ^ ((num.log2 : ℤ) - den.log2 - 1) = 2 ^ num.log2 / 2 ^ (den.log2 + 1) := by
          rw [sub_sub, zpow_sub₀ two_ne_zero, zpow_natCast]
          norm_cast
      _ ≤ num / den := by gcongr
  have hhigh : (num : ℚ) / den < 2 ^ ((num.log2 : ℤ) - den.log2 + 1) := by
    have hnum₁ : (num : ℚ) < 2 ^ (num.log2 + 1) := by exact_mod_cast Nat.lt_log2_self
    have hden₁ : (2 : ℚ) ^ den.log2 ≤ den := by exact_mod_cast Nat.log2_self_le hden.ne'
    calc (num : ℚ) / den < 2 ^ (num.log2 + 1) / 2 ^ den.log2 := by gcongr
      _ = 2 ^ ((num.log2 : ℤ) - den.log2 + 1) := by
          rw [sub_add_eq_add_sub, zpow_sub₀ two_ne_zero]
          norm_cast
  have hcompare (e : ℤ) : num <<< (-e).toNat < den <<< e.toNat ↔ (num : ℚ) / den < 2 ^ e := by
    have hshift : (0 : ℚ) < (den <<< e.toNat : ℕ) := by
      rw [Nat.shiftLeft_eq]
      positivity
    rw [← div_lt_one (by positivity : (0 : ℚ) < 2 ^ e), ← shifted_quotient, div_lt_one hshift,
      Nat.cast_lt]
  simp only [Binary.Format.floorLog2, hcompare]
  split
  · rename_i h
    exact ⟨hlow, by rwa [sub_add_cancel]⟩
  · rename_i h
    exact ⟨not_lt.mp h, hhigh⟩

/-- Rounding a quotient is what the machine does with the quotient of two significands. -/
theorem roundRatio_eq (num : ℕ) (hden : 0 < den) :
    roundRatio num den = (ExtendedMantissa.ofMantissaAndAccuracy (num / den)
      (accuracyOfFraction (num % den) den)).roundedMantissa := by
  rw [roundRatio, accuracyOfFraction]
  by_cases hzero : num % den = 0
  · rw [if_pos hzero, hzero, mul_zero, compare_lt_iff_lt.mpr hden]
    rfl
  · rw [if_neg hzero]
    cases compare (2 * (num % den)) den <;> rfl

theorem roundRatio_spec (num : ℕ) (hden : 0 < den) :
    ⌊(num : ℚ) / den⌋ ≤ roundRatio num den ∧ (roundRatio num den : ℤ) ≤ ⌈(num : ℚ) / den⌉ := by
  rw [roundRatio_eq num hden]
  exact (Approximates.quotient num hden).rounded

/-- The nearest word of a quotient that is not too large. -/
theorem nearest_rounds (num : ℕ) (hden : 0 < den) {bound : ℚ} (hbound : OnGrid spec bound)
    (hlt : bound < overflow spec) (h : (num : ℚ) / den ≤ bound) :
    (layout spec).nearest num den < (layout spec).infinity ∧
      Rounds spec (num / den) (size ((layout spec).magnitude ((layout spec).nearest num den))) := by
  have hquotient : (0 : ℚ) ≤ num / den := by positivity
  rcases Nat.eq_zero_or_pos num with rfl | hnum
  · rw [Binary.Format.nearest, if_pos rfl, size_zero, Nat.cast_zero, zero_div]
    refine ⟨?_, .refl _ _⟩
    rw [← size_lt_overflow_iff, size_zero]
    exact (hquotient.trans h).trans_lt hlt
  · obtain ⟨hlow, hhigh⟩ := floorLog2_spec hnum hden
    have heq : (layout spec).nearest num den =
        let e := max (Binary.Format.floorLog2 num den - spec.mantissaBitsWithoutImplicit)
          spec.minExponent
        min (wordOf spec (roundRatio (num <<< (-e).toNat) (den <<< e.toNat)) e)
          (layout spec).infinity := by
      rw [Binary.Format.nearest, if_neg hnum.ne', leastExponent_layout]
      rfl
    rw [heq]
    dsimp only
    generalize Binary.Format.floorLog2 num den = leading at *
    generalize he : max (leading - spec.mantissaBitsWithoutImplicit) spec.minExponent = e
    have hshift : 0 < den <<< e.toNat := by
      rw [Nat.shiftLeft_eq]
      positivity
    obtain ⟨hfloor, hceil⟩ := roundRatio_spec (num <<< (-e).toNat) hshift
    rw [shifted_quotient] at hfloor hceil
    generalize roundRatio (num <<< (-e).toNat) (den <<< e.toNat) = m at *
    -- The exponent leaves room for the leading bit, and for no more unless it is the least.
    have hmany (hmin : spec.minExponent < e) :
        2 ^ spec.mantissaBitsWithoutImplicit ≤ (num : ℚ) / den / 2 ^ e := by
      have hleading : (spec.mantissaBitsWithoutImplicit : ℤ) + e = leading := by omega
      rwa [le_div_iff₀ (by positivity), ← zpow_natCast, ← zpow_add₀ two_ne_zero, hleading]
    have hfew : (num : ℚ) / den / 2 ^ e ≤ 2 ^ spec.mantissaBits := by
      rw [div_le_iff₀ (by positivity), ← zpow_natCast, ← zpow_add₀ two_ne_zero]
      refine hhigh.le.trans (zpow_le_zpow_right₀ one_le_two ?_)
      rw [mantissaBits_eq]
      omega
    obtain ⟨hm, hfull, hrounds⟩ := rounds_multiplier hquotient hfew hmany hfloor hceil
    have hsize := size_wordOf hm (by omega) hfull
    have hfits : wordOf spec m e < (layout spec).infinity := by
      rw [← size_lt_overflow_iff, hsize]
      exact (hrounds.below _ hbound h).trans_lt hlt
    rw [min_eq_left hfits.le, hsize]
    exact ⟨hfits, hrounds⟩

end PanZoom.Precision
