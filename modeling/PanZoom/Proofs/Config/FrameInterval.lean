import PanZoom.Proofs.Format.Config
import PanZoom.Proofs.Precision.Decode

/-!
# The time of one frame

The repair looks at the frame cap and lets every positive number pass; the time of one frame is its
reciprocal, and reciprocals of very small numbers are too long for a duration. The two limits meet
at `2 ^ -64`:

* `Duration.isSome_ofSeconds?_iff`: the numbers of seconds that make up a duration;
* `Config.reciprocal_iff`: the positive numbers whose rounded reciprocal is one of them;
* `Config.frameInterval_defined_iff`: of the configurations that are read, those with a time of one
  frame.
-/

namespace PanZoom

open Precision

namespace Precision

/-- Only finite numbers are decoded as finite. -/
theorem decoded_ne_finite {x : Float} (h : ¬IsFinite x) (negative : Bool)
    (m : Binary.Magnitude) : decoded x ≠ .finite negative m := by
  have hrest : ¬(Machine.word x).toNat % (layout (Machine.format Float)).signBit <
      (layout (Machine.format Float)).infinity := fun hlt => h (isFinite_iff.mpr hlt)
  rw [decoded, Binary.Format.value, if_neg hrest]
  split <;> simp

/-- A magnitude as a quotient of natural numbers. -/
theorem size_eq_div (m : Binary.Magnitude) :
    size m = (m.significand <<< m.exponent.toNat : ℕ) / (1 <<< (-m.exponent).toNat : ℕ) := by
  have hquotient := shifted_quotient m.significand 1 (-m.exponent)
  rw [neg_neg, Nat.cast_one, div_one, zpow_neg, div_inv_eq_mul] at hquotient
  exact hquotient.symm

end Precision

namespace Duration

/-- Which decoded numbers are durations: those that are not negative and do not reach `2 ^ 64`. -/
theorem isSome_ofSeconds?_of_finite {x : Float} {negative : Bool} {m : Binary.Magnitude}
    (h : decoded x = .finite negative m) :
    (ofSeconds? x).isSome ↔
      0 ≤ negatedIf negative (size m) ∧ negatedIf negative (size m) < 2 ^ 64 := by
  have hvalue : Double.value x = .finite negative m := h
  have hsize := size_eq_div m
  have hden : (0 : ℚ) < (1 <<< (-m.exponent).toNat : ℕ) := by
    rw [Nat.one_shiftLeft]
    exact_mod_cast Nat.two_pow_pos _
  unfold ofSeconds?
  rw [hvalue]
  dsimp only
  generalize m.significand <<< m.exponent.toNat = num at hsize ⊢
  generalize 1 <<< (-m.exponent).toNat = den at hden hsize ⊢
  have hlong : UInt64.size * den ≤ num ↔ 2 ^ 64 ≤ size m := by
    rw [hsize, le_div_iff₀ hden, UInt64.size]
    exact_mod_cast Iff.rfl
  have hsome : 0 < num ↔ 0 < size m := by
    rw [hsize, lt_div_iff₀ hden, zero_mul]
    exact_mod_cast Iff.rfl
  have hnonneg : 0 ≤ size m := hsize ▸ by positivity
  simp only [hlong, hsome]
  cases negative with
  | true =>
    by_cases hpos : 0 < size m
    · simp [negatedIf, hpos]
    · have hzero : size m = 0 := le_antisymm (not_lt.mp hpos) hnonneg
      simp [negatedIf, hzero]
  | false => simp [negatedIf, hnonneg]

theorem ofSeconds?_of_not_isFinite {x : Float} (h : ¬IsFinite x) : ofSeconds? x = none := by
  unfold ofSeconds?
  split
  · rename_i negative m hdecoded
    exact absurd hdecoded (decoded_ne_finite h negative m)
  · rfl

/-- Durations are the finite numbers of seconds that are not negative and do not reach `2 ^ 64`. -/
theorem isSome_ofSeconds?_iff (x : Float) :
    (ofSeconds? x).isSome ↔ IsFinite x ∧ 0 ≤ toRat x ∧ toRat x < 2 ^ 64 := by
  by_cases hfinite : IsFinite x
  · obtain ⟨hdecoded, hrat⟩ := decoded_of_isFinite hfinite
    rw [isSome_ofSeconds?_of_finite hdecoded, ← hrat]
    exact (and_iff_right hfinite).symm
  · rw [ofSeconds?_of_not_isFinite hfinite]
    exact iff_of_false Bool.false_ne_true fun h => hfinite h.1

end Duration

namespace Config

/-- The greatest frame cap that is too low: `2 ^ -64`. -/
def stillness : Float :=
  .ofBits 0x3bf0000000000000

theorem stillness_within : Within stillness (1 / 2 ^ 64) (1 / 2 ^ 64) := by
  with_unfolding_all decide

/-- Above that cap a number is at least the next one of the grid. -/
theorem next_of_stillness {q : ℚ} (hgrid : OnGrid .binary64 q) (h : 1 / 2 ^ 64 < q) :
    (2 ^ 52 + 1) / 2 ^ 116 ≤ q := by
  have hpos : 0 < q := lt_trans (by positivity) h
  rcases hgrid.multiple_or_le hpos (-116) with ⟨n, rfl⟩ | ⟨-, hle⟩
  · have hunit : (2 : ℚ) ^ (-116 : ℤ) = 1 / 2 ^ 116 := by norm_num
    rw [hunit] at h ⊢
    have hmany : (2 ^ 52 : ℚ) < n := by
      have hscaled := mul_lt_mul_of_pos_right h (by positivity : (0 : ℚ) < 2 ^ 116)
      rw [mul_assoc, one_div_mul_cancel (by positivity), mul_one] at hscaled
      exact lt_of_eq_of_lt (by norm_num) hscaled
    have hnext : (2 ^ 52 + 1 : ℤ) ≤ n := by exact_mod_cast hmany
    have hnext' : (2 ^ 52 + 1 : ℚ) ≤ n := by exact_mod_cast hnext
    rw [mul_one_div]
    gcongr
  · have hbound : (2 : ℚ) ^ (52 : ℤ) * 2 ^ (-116 : ℤ) = 1 / 2 ^ 64 := by norm_num
    exact absurd (hle.trans_eq hbound) (not_le.mpr h)

/-- The greatest number below `2 ^ 64`. -/
theorem onGrid_below_word : OnGrid .binary64 (2 ^ 64 - 2 ^ 11) :=
  ⟨2 ^ 53 - 1, 11, by decide, by decide, by norm_num⟩

/-- The reciprocal of a cap is a number of seconds that a duration can have, exactly if the cap is
not too low. -/
theorem reciprocal_iff {rate : Float} (hfinite : IsFinite rate) (hpos : 0 < toRat rate) :
    (IsFinite (1 / rate) ∧ 0 ≤ toRat (1 / rate) ∧ toRat (1 / rate) < 2 ^ 64) ↔
      1 / 2 ^ 64 < toRat rate := by
  have hone : Within (1 : Float) 1 1 := by with_unfolding_all decide
  constructor
  · rintro ⟨hquotient, -, hshort⟩
    by_contra hlow
    rcases div_defined hone.finite hfinite hpos.ne' with hround | ⟨sign, hinfinite⟩
    · rw [hone.eq] at hround
      have hlong : 2 ^ 64 ≤ 1 / toRat rate := by
        rw [le_div_iff₀ hpos]
        linarith
      have hgrid : OnGrid .binary64 (2 ^ 64) := by
        exact_mod_cast OnGrid.two_zpow (k := 64) (by decide)
      exact absurd (hround.rounds.above _ hgrid hlong) (not_le.mpr hshort)
    · rw [IsFinite, hinfinite] at hquotient
      cases hquotient
  · intro hrate
    have hnext := next_of_stillness (onGrid_toRat rate) hrate
    have hshort : 1 / toRat rate ≤ 2 ^ 64 - 2 ^ 11 := by
      rw [div_le_iff₀ hpos]
      linarith
    have hnonneg : 0 ≤ 1 / toRat rate := by positivity
    have hround := div_roundsTo hone.finite hfinite hpos.ne' (by
      rw [hone.eq]
      exact abs_le_roomy_double (k := 64) (abs_le.mpr ⟨by linarith, by linarith⟩) (by norm_num))
    rw [hone.eq] at hround
    refine ⟨hround.finite, hround.rounds.nonneg hnonneg, ?_⟩
    exact lt_of_le_of_lt (hround.rounds.below _ onGrid_below_word hshort) (by norm_num)

/-- **When a frame has a length.** Every frame cap that is read is finite and above zero. The time
of one frame is defined exactly if it is above `2 ^ -64` as well; its reciprocal then is a number of
seconds from zero to below `2 ^ 64`, and otherwise it is not. -/
theorem frameInterval_defined_iff {text : String} {c : Config} (h : read text = .ok c) :
    (c.maxFramerate.isFinite ∧ 0 < c.maxFramerate) ∧
    (c.frameInterval?.isSome ↔ stillness < c.maxFramerate) ∧
    ((IsFinite (1 / c.maxFramerate) ∧ 0 ≤ toRat (1 / c.maxFramerate) ∧
      toRat (1 / c.maxFramerate) < 2 ^ 64) ↔ stillness < c.maxFramerate) := by
  obtain ⟨-, -, hsame⟩ := sound_of_read h
  obtain ⟨hfinite, hpositive⟩ := (hsame ▸ hasFitNumbers_sanitized c).maxFramerate
  have hzero : Within (0 : Float) 0 0 := by with_unfolding_all decide
  have hrate : IsFinite c.maxFramerate := hfinite
  have hpos : 0 < toRat c.maxFramerate := by
    rwa [lt_iff_toRat hzero.finite hrate, hzero.eq] at hpositive
  have hreciprocal := reciprocal_iff hrate hpos
  rw [← stillness_within.eq, ← lt_iff_toRat stillness_within.finite hrate] at hreciprocal
  refine ⟨⟨hfinite, hpositive⟩, ?_, hreciprocal⟩
  rw [frameInterval?, Duration.isSome_ofSeconds?_iff]
  exact hreciprocal

def capText (cap : String) : String :=
  "\x7b\"version\": 1, \"rendering\": \x7b\"max_framerate\": " ++ cap ++ "\x7d\x7d"

theorem frameInterval_defined_of_quarter :
    read (capText "0.25") = .ok { default with maxFramerate := 0.25 } ∧
    stillness < (0.25 : Float) ∧
    ({ default with maxFramerate := 0.25 } : Config).frameInterval? = some ⟨4, 0⟩ ∧
    ({ default with maxFramerate := 0.25 } : Config).frameInterval?.isSome := by
  have hrun : read (capText "0.25") = .ok { default with maxFramerate := 0.25 } ∧
      stillness < (0.25 : Float) ∧
      ({ default with maxFramerate := 0.25 } : Config).frameInterval? = some ⟨4, 0⟩ := by
    decide +kernel
  obtain ⟨hread, habove, hframe⟩ := hrun
  exact ⟨hread, habove, hframe, (frameInterval_defined_iff hread).2.1.mpr habove⟩

/-- A cap that passes the repair and whose reciprocal is too long for a duration. -/
theorem frameInterval_undefined_below_stillness :
    read (capText "1e-20") = .ok { default with maxFramerate := 1e-20 } ∧
    ({ default with maxFramerate := 1e-20 } : Config).frameInterval? = none := by
  decide +kernel

end Config

end PanZoom
