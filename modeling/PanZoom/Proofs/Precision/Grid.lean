import Mathlib

namespace PanZoom.Precision

open Float.Model (Format)

variable {spec : Format} {x y : ℚ}

/-- A multiple of a power of two that the format has a significand and an exponent for. -/
def OnGrid (spec : Format) (x : ℚ) : Prop :=
  ∃ n k : ℤ, |n| ≤ 2 ^ spec.mantissaBits ∧ spec.minExponent ≤ k ∧ x = n * 2 ^ k

/-- No number of the grid separates `y` from `x`. -/
structure Rounds (spec : Format) (x y : ℚ) : Prop where
  above : ∀ g, OnGrid spec g → g ≤ x → g ≤ y
  below : ∀ g, OnGrid spec g → x ≤ g → y ≤ g

namespace OnGrid

theorem neg (h : OnGrid spec x) : OnGrid spec (-x) := by
  obtain ⟨n, k, hn, hk, rfl⟩ := h
  exact ⟨-n, k, by rwa [abs_neg], hk, by push_cast; ring⟩

theorem zero : OnGrid spec 0 :=
  ⟨0, spec.minExponent, by positivity, le_rfl, by simp⟩

theorem two_zpow {k : ℤ} (h : spec.minExponent ≤ k) : OnGrid spec (2 ^ k) :=
  ⟨1, k, by simpa using one_le_pow₀ one_le_two, h, by simp⟩

/-- A fraction whose denominator is a power of two. -/
theorem of_div {n : ℤ} {k : ℕ} (hn : |n| ≤ 2 ^ spec.mantissaBits)
    (hk : spec.minExponent ≤ -(k : ℤ)) (hx : x = n / 2 ^ k) : OnGrid spec x :=
  ⟨n, -k, hn, hk, by rw [hx, zpow_neg, zpow_natCast, div_eq_mul_inv]⟩

end OnGrid

/-- A fraction of few bits. Single precision, and whatever is finer, keeps it exactly. -/
def IsShort (x : ℚ) : Prop :=
  x.den ∣ 2 ^ 149 ∧ |x.num| ≤ 2 ^ 24

instance (x : ℚ) : Decidable (IsShort x) :=
  inferInstanceAs (Decidable (_ ∧ _))

theorem IsShort.of_intDiv {n : ℤ} {k : ℕ} (hn : |n| ≤ 2 ^ 24) (hk : k ≤ 149) :
    IsShort (n / 2 ^ k) := by
  have hdiv : (n / 2 ^ k : ℚ) = Rat.divInt n (2 ^ k : ℕ) := by
    rw [Rat.divInt_eq_div]
    push_cast
    rfl
  rw [hdiv]
  constructor
  · exact (Int.natCast_dvd_natCast.mp (Rat.den_dvd _ _)).trans (pow_dvd_pow 2 hk)
  · rcases eq_or_ne n 0 with rfl | hn₀
    · simp
    · have hdvd := Rat.num_dvd n (b := (2 ^ k : ℕ)) (by positivity)
      exact (Int.le_of_dvd (abs_pos.mpr hn₀) ((abs_dvd_abs _ _).mpr hdvd)).trans hn

theorem IsShort.of_div {n k : ℕ} (hn : n ≤ 2 ^ 24) (hk : k ≤ 149) : IsShort (n / 2 ^ k) := by
  have hint : |(n : ℤ)| ≤ 2 ^ 24 := by
    rw [Nat.abs_cast]
    exact_mod_cast hn
  have hshort := IsShort.of_intDiv hint hk
  rwa [Int.cast_natCast] at hshort

theorem IsShort.natCast {n : ℕ} (hn : n ≤ 2 ^ 24) : IsShort n := by
  simpa using IsShort.of_div hn (Nat.zero_le 149)

theorem IsShort.neg (h : IsShort x) : IsShort (-x) :=
  ⟨h.1, by rw [Rat.neg_num, abs_neg]; exact h.2⟩

theorem IsShort.onGrid (h : IsShort x) (hbits : 24 ≤ spec.mantissaBits)
    (hmin : spec.minExponent ≤ -149) : OnGrid spec x := by
  obtain ⟨⟨c, hc⟩, hnum⟩ := h
  obtain ⟨k, hk, hden⟩ := (Nat.dvd_prime_pow Nat.prime_two).mp ⟨c, hc⟩
  refine .of_div (hnum.trans (pow_le_pow_right₀ one_le_two hbits)) (k := k) (by omega) ?_
  conv_lhs => rw [← Rat.num_div_den x]
  rw [hden]
  push_cast
  rfl

namespace Rounds

theorem refl (spec : Format) (x : ℚ) : Rounds spec x x :=
  ⟨fun _ _ h => h, fun _ _ h => h⟩

theorem neg (h : Rounds spec x y) : Rounds spec (-x) (-y) :=
  ⟨fun _ hg hle => le_neg.mpr (h.below _ hg.neg (le_neg.mp hle)),
    fun _ hg hle => neg_le.mpr (h.above _ hg.neg (neg_le.mp hle))⟩

theorem eq_of_onGrid (h : Rounds spec x y) (hx : OnGrid spec x) : y = x :=
  le_antisymm (h.below x hx le_rfl) (h.above x hx le_rfl)

theorem nonneg (h : Rounds spec x y) (hx : 0 ≤ x) : 0 ≤ y :=
  h.above 0 .zero hx

end Rounds

/-- A positive number of the grid is a multiple of `2 ^ e`, or below all numbers whose multiplier of
`2 ^ e` has the full number of bits. -/
theorem OnGrid.multiple_or_le (h : OnGrid spec x) (hx : 0 < x) (e : ℤ) :
    (∃ n : ℤ, x = n * 2 ^ e) ∨
      spec.minExponent < e ∧ x ≤ 2 ^ (spec.mantissaBitsWithoutImplicit : ℤ) * 2 ^ e := by
  obtain ⟨n, k, hn, hk, rfl⟩ := h
  rcases le_or_gt e k with hek | hke
  · left
    refine ⟨n * 2 ^ (k - e).toNat, ?_⟩
    have hpow : (2 : ℚ) ^ k = 2 ^ (k - e).toNat * 2 ^ e := by
      rw [← zpow_natCast, ← zpow_add₀ two_ne_zero]
      congr 1
      omega
    rw [hpow]
    push_cast
    ring
  · right
    have hbits : (n : ℚ) ≤ 2 ^ spec.mantissaBits := by exact_mod_cast (le_abs_self n).trans hn
    have hsplit : (2 : ℚ) ^ spec.mantissaBits = 2 ^ (spec.mantissaBitsWithoutImplicit : ℤ) * 2 := by
      rw [Format.mantissaBits, zpow_natCast, pow_add]
      ring
    have hstep : (2 : ℚ) * 2 ^ k ≤ 2 ^ e := by
      rw [← zpow_one_add₀ two_ne_zero]
      exact zpow_le_zpow_right₀ one_le_two (by omega)
    refine ⟨by omega, ?_⟩
    calc (n : ℚ) * 2 ^ k ≤ 2 ^ spec.mantissaBits * 2 ^ k := by gcongr
      _ = 2 ^ (spec.mantissaBitsWithoutImplicit : ℤ) * (2 * 2 ^ k) := by rw [hsplit]; ring
      _ ≤ 2 ^ (spec.mantissaBitsWithoutImplicit : ℤ) * 2 ^ e := by gcongr

/-- Rounding a multiplier of `2 ^ e` to a neighbouring whole number passes no number of the grid, if
`2 ^ e` is the least unit or the multiplier has the full number of bits. -/
theorem rounds_of_floor_ceil {e : ℤ} {m : ℕ} (hx : 0 ≤ x)
    (hfull : spec.minExponent < e → 2 ^ (spec.mantissaBitsWithoutImplicit : ℤ) * 2 ^ e ≤ x)
    (hfloor : ⌊x / 2 ^ e⌋ ≤ m) (hceil : (m : ℤ) ≤ ⌈x / 2 ^ e⌉) : Rounds spec x (m * 2 ^ e) := by
  have hunit : (0 : ℚ) < 2 ^ e := by positivity
  -- Whole multiples of the unit are not passed, whatever the grid.
  have habove (n : ℤ) (h : (n : ℚ) * 2 ^ e ≤ x) : (n : ℚ) * 2 ^ e ≤ m * 2 ^ e := by
    have hn : n ≤ ⌊x / 2 ^ e⌋ := Int.le_floor.mpr ((le_div_iff₀ hunit).mpr h)
    have hnm : (n : ℚ) ≤ m := by exact_mod_cast hn.trans hfloor
    gcongr
  have hbelow (n : ℤ) (h : x ≤ (n : ℚ) * 2 ^ e) : (m : ℚ) * 2 ^ e ≤ n * 2 ^ e := by
    have hn : ⌈x / 2 ^ e⌉ ≤ n := Int.ceil_le.mpr ((div_le_iff₀ hunit).mpr h)
    have hmn : (m : ℚ) ≤ n := by exact_mod_cast hceil.trans hn
    gcongr
  have hcast : ((2 ^ spec.mantissaBitsWithoutImplicit : ℤ) : ℚ) =
      2 ^ (spec.mantissaBitsWithoutImplicit : ℤ) := by push_cast; rw [zpow_natCast]
  constructor
  · intro g hg hgx
    rcases le_or_gt g 0 with hg₀ | hg₀
    · exact hg₀.trans (by positivity)
    · rcases hg.multiple_or_le hg₀ e with ⟨n, rfl⟩ | ⟨he, hge⟩
      · exact habove n hgx
      · have hbits := habove (2 ^ spec.mantissaBitsWithoutImplicit) (by rw [hcast]; exact hfull he)
        rw [hcast] at hbits
        exact hge.trans hbits
  · intro g hg hxg
    rcases hx.trans hxg |>.eq_or_lt with rfl | hg₀
    · simpa using hbelow 0 (by simpa using hxg)
    · rcases hg.multiple_or_le hg₀ e with ⟨n, rfl⟩ | ⟨he, hge⟩
      · exact hbelow n hxg
      · have hbits := hbelow (2 ^ spec.mantissaBitsWithoutImplicit)
          (by rw [hcast]; exact hxg.trans hge)
        rw [hcast] at hbits
        exact hbits.trans ((hfull he).trans hxg)

end PanZoom.Precision
