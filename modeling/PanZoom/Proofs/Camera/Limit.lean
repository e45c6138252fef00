import PanZoom.Camera.Settings
import PanZoom.Proofs.Elementary.Logarithm

namespace PanZoom

open Precision Elementary

variable {x : Float32}

theorem IsZoomFactor.isFinite (h : IsZoomFactor x) : IsFinite x :=
  h.1

theorem IsZoomFactor.one_lt (h : IsZoomFactor x) : 1 < toRat x := by
  rw [← Single.one_within.eq]
  exact (lt_iff_toRat Single.one_within.finite h.isFinite).mp h.2

/-- The words of zoom factors lie between those of one and of infinity. -/
theorem IsZoomFactor.word (h : IsZoomFactor x) :
    0x3f800000 < x.toBits.toNat ∧ x.toBits.toNat < 0x7f800000 := by
  obtain ⟨hsign, hsize⟩ := Single.size_toBits h.isFinite (zero_lt_one.trans h.one_lt)
  have hmono : StrictMono fun w => size (Binary.single.magnitude w) := size_strictMono .binary32
  constructor
  · rw [← hmono.lt_iff_lt, hsize]
    refine lt_of_eq_of_lt ?_ h.one_lt
    with_unfolding_all decide
  · have hrest : x.toBits.toNat % 2 ^ 31 < 0x7f800000 := isFinite_iff.mp h.isFinite
    rwa [Nat.mod_eq_of_lt hsign] at hrest

theorem IsZoomFactor.ln_within (h : IsZoomFactor x) : Within (ln x) (1 / 2 ^ 24) 92 := by
  obtain ⟨hlow, hhigh⟩ := h.word
  rcases Nat.lt_or_ge x.toBits.toNat 0x3f830000 with hnear | hfar
  · obtain ⟨f, hf⟩ := Nat.exists_eq_add_of_le hlow.le
    obtain ⟨hfinite, hleast, hgreatest⟩ :=
      ln_near_one (k := 5) hf (by omega) le_rfl (by norm_num) (by omega) (by omega)
    have hf₁ : (1 : ℚ) ≤ f := by exact_mod_cast (by omega : 1 ≤ f)
    have hf₂ : (f : ℚ) ≤ 2 ^ 23 := by exact_mod_cast (by omega : f ≤ 2 ^ 23)
    refine ⟨hfinite, le_trans ?_ hleast, hgreatest.trans ?_⟩
    · rw [div_le_div_iff₀ (by positivity) (by positivity)]
      push_cast
      linarith
    · rw [div_le_iff₀ (by positivity)]
      linarith
  · obtain ⟨hfinite, hleast, hgreatest⟩ := ln_above hfar hhigh
    exact ⟨hfinite, le_trans (by norm_num) hleast, hgreatest⟩

theorem ln_greatestZoom : Within (ln Single.greatestZoom) 41 (83 / 2) := by
  decide +kernel

/-- The quotient that is rounded down to the greatest power. -/
theorem IsZoomFactor.quotient (h : IsZoomFactor x) :
    RoundsTo (ln Single.greatestZoom / ln x) (toRat (ln Single.greatestZoom) / toRat (ln x)) := by
  obtain ⟨hgreatest, hlow, hhigh⟩ := ln_greatestZoom
  obtain ⟨hfinite, hleast, -⟩ := h.ln_within
  have hpos : 0 < toRat (ln x) := lt_of_lt_of_le (by norm_num) hleast
  refine div_roundsTo hgreatest hfinite hpos.ne' ?_
  refine abs_le_roomy_single (k := 30) ?_ (by norm_num)
  rw [abs_of_nonneg (div_nonneg (by linarith) hpos.le), div_le_iff₀ hpos]
  linarith

theorem IsZoomFactor.exists_powerLimit (h : IsZoomFactor x) :
    ∃ n : ℕ, n < 2 ^ 32 ∧ Within (Single.powerLimit x) n n := by
  have hquotient := h.quotient
  have hnonneg : 0 ≤ toRat (ln Single.greatestZoom / ln x) := by
    refine hquotient.rounds.nonneg (div_nonneg ?_ ?_)
    · exact le_trans (by norm_num) ln_greatestZoom.le
    · exact le_trans (by norm_num) h.ln_within.le
  obtain ⟨hfinite, hfloor⟩ := Single.toRat_floor hquotient.finite
  obtain ⟨n, hn⟩ := Int.eq_ofNat_of_zero_le (Int.floor_nonneg.mpr hnonneg)
  have hlimit : toRat (Single.powerLimit x) = n := by
    rw [Single.powerLimit, hfloor, hn]
    rfl
  refine ⟨n, ?_, hfinite, hlimit.ge, hlimit.le⟩
  have hfew : toRat (ln Single.greatestZoom / ln x) ≤ 2 ^ (30 : ℤ) := by
    refine hquotient.rounds.below _ (.two_zpow (by decide)) ?_
    rw [div_le_iff₀ (lt_of_lt_of_le (by norm_num) h.ln_within.le)]
    linarith [ln_greatestZoom.ge, h.ln_within.le]
  have hfloor₀ := Int.floor_le (toRat (ln Single.greatestZoom / ln x))
  rw [hn] at hfloor₀
  have hn₀ : (n : ℚ) < 2 ^ 32 := lt_of_le_of_lt (hfloor₀.trans hfew) (by norm_num)
  exact_mod_cast hn₀

theorem IsZoomFactor.powerLimit_le (h : IsZoomFactor x)
    (hln : 83 / 2 ≤ toRat (ln x) * 2 ^ 24) : toRat (Single.powerLimit x) ≤ 2 ^ 24 := by
  have hpos : 0 < toRat (ln x) := by linarith
  have hshort : IsShort (2 ^ 24) := by with_unfolding_all decide
  obtain ⟨-, hfloor⟩ := Single.toRat_floor h.quotient.finite
  rw [Single.powerLimit, hfloor]
  refine (Int.floor_le _).trans (h.quotient.rounds.below _ hshort.onGrid_format ?_)
  rw [div_le_iff₀ hpos]
  linarith [ln_greatestZoom.ge]

/-- More than 24 bits take a factor within 20 steps of one. -/
theorem IsZoomFactor.near_one (h : IsZoomFactor x) (hlimit : 2 ^ 24 < toRat (Single.powerLimit x)) :
    ∃ f : ℕ, 0 < f ∧ f ≤ 20 ∧ x.toBits.toNat = 0x3f800000 + f := by
  obtain ⟨hlow, hhigh⟩ := h.word
  have hln : toRat (ln x) * 2 ^ 24 < 83 / 2 := by
    by_contra hmany
    exact absurd (h.powerLimit_le (not_lt.mp hmany)) (not_le.mpr hlimit)
  rcases Nat.lt_or_ge x.toBits.toNat 0x3f830000 with hnear | hfar
  · obtain ⟨f, hf⟩ := Nat.exists_eq_add_of_le hlow.le
    -- A coarse bound first, so that the part that is neglected is small enough for a fine one.
    have hcoarse := (ln_near_one (k := 5) hf (by omega) le_rfl (by norm_num) (by omega)
      (by omega)).le
    rw [div_le_iff₀ (by positivity)] at hcoarse
    push_cast at hcoarse
    have hfew : (f : ℚ) < 64 := by linarith
    have hfew : f < 64 := by exact_mod_cast hfew
    have hfine := (ln_near_one (k := 17) hf (by omega) (by norm_num) (by norm_num) (by omega)
      (by omega)).le
    rw [div_le_iff₀ (by positivity)] at hfine
    push_cast at hfine
    have hleast : (f : ℚ) < 21 := by linarith
    have hleast : f < 21 := by exact_mod_cast hleast
    exact ⟨f, by omega, by omega, hf⟩
  · have hleast := (ln_above hfar hhigh).le
    linarith

/-- Within 20 steps of one the greatest power does have more than 24 bits. -/
theorem IsZoomFactor.lt_powerLimit (h : IsZoomFactor x) {f : ℕ} (hf : f ≤ 20)
    (hx : x.toBits.toNat = 0x3f800000 + f) : 2 ^ 24 < toRat (Single.powerLimit x) := by
  obtain ⟨hlow, -⟩ := h.word
  have hln := (ln_near_one (k := 5) hx (by omega) le_rfl (by norm_num) (by omega) (by omega)).ge
  have hpos : 0 < toRat (ln x) := lt_of_lt_of_le (by norm_num) h.ln_within.le
  have hf₂ : (f : ℚ) ≤ 20 := by exact_mod_cast hf
  have hgrid : OnGrid .binary32 ((2 ^ 24 + 2 : ℤ) : ℚ) :=
    ⟨2 ^ 23 + 1, 1, by decide, by decide, by norm_num⟩
  obtain ⟨-, hfloor⟩ := Single.toRat_floor h.quotient.finite
  have hquotient : ((2 ^ 24 + 2 : ℤ) : ℚ) ≤ toRat (ln Single.greatestZoom / ln x) := by
    refine h.quotient.rounds.above _ hgrid ?_
    rw [le_div_iff₀ hpos]
    push_cast
    linarith [ln_greatestZoom.le]
  rw [Single.powerLimit, hfloor]
  have hwhole := Int.le_floor.mpr hquotient
  have hcast : ((2 ^ 24 + 2 : ℤ) : ℚ) ≤ ⌊toRat (ln Single.greatestZoom / ln x)⌋ := by
    exact_mod_cast hwhole
  push_cast at hcast
  linarith

namespace Settings

variable (s : Settings Float32)

theorem maxPower_eq : s.maxPower = Single.powerLimit s.zoomFactor := by
  unfold maxPower
  rfl

theorem exists_maxPower : ∃ n : ℕ, n < 2 ^ 32 ∧ Within s.maxPower n n := by
  rw [maxPower_eq]
  exact s.isZoomFactor.exists_powerLimit

/-- Up to 24 bits count the greatest power, unless the factor is one of the 20 next to one. -/
theorem maxPower_le_iff : toRat s.maxPower ≤ 2 ^ 24 ↔ 0x3f800014 < s.zoomFactor.toBits.toNat := by
  rw [maxPower_eq]
  constructor
  · intro hfew
    by_contra hword
    obtain ⟨f, hf⟩ := Nat.exists_eq_add_of_le s.isZoomFactor.word.1.le
    exact absurd hfew (not_le.mpr (s.isZoomFactor.lt_powerLimit (by omega) hf))
  · intro hword
    by_contra hmany
    obtain ⟨f, -, hf, hx⟩ := s.isZoomFactor.near_one (not_le.mp hmany)
    omega

end Settings

end PanZoom
