import PanZoom.Elementary.Power
import PanZoom.Proofs.Elementary.Logarithm

namespace PanZoom.Elementary

open Precision

variable {join : MultiplyAdd}

/-- The later pairs of the polynomial are small. -/
theorem log2Pairs_within (hjoin : IsJoin join) {r : Float} (hr : Within r (-1 / 32) (1 / 32)) :
    Within (join (.ofBits 0x3fdec70a6ca7badd) r (.ofBits 0xbfe7154748bef6c8)) (-1) 0 ∧
      Within (join (.ofBits 0x3fd27616c9496e0b) r (.ofBits 0xbfd71969a075c67a)) (-1) 0 := by
  obtain ⟨hfinite, hlow, hhigh⟩ := hr
  constructor
  · obtain ⟨hscale, hscaleLow, hscaleHigh⟩ :
        Within (Float.ofBits 0x3fdec70a6ca7badd) 0 1 := by with_unfolding_all decide
    have hterm : Within (Float.ofBits 0xbfe7154748bef6c8) (-3 / 4) (-1 / 2) := by
      with_unfolding_all decide
    exact hjoin.within (p := -1 / 32) (q := 1 / 32) hscale hfinite (by nlinarith) (by nlinarith)
      hterm (by norm_num) (by norm_num) (by with_unfolding_all decide)
  · obtain ⟨hscale, hscaleLow, hscaleHigh⟩ :
        Within (Float.ofBits 0x3fd27616c9496e0b) 0 1 := by with_unfolding_all decide
    have hterm : Within (Float.ofBits 0xbfd71969a075c67a) (-1 / 2) (-1 / 4) := by
      with_unfolding_all decide
    exact hjoin.within (p := -1 / 32) (q := 1 / 32) hscale hfinite (by nlinarith) (by nlinarith)
      hterm (by norm_num) (by norm_num) (by with_unfolding_all decide)

theorem log2Scale_within : Within (Float.ofBits 0x3ff71547652ab82b) 1 (3 / 2) := by
  with_unfolding_all decide

/-- The later pairs change the first pair by little. -/
theorem log2Sum_within (hjoin : IsJoin join) {r first : Float} {e p q : ℚ}
    (hr : Within r (-1 / 32) (1 / 32)) (he : toRat r * toRat r ≤ e) (hsmall : e ≤ 1)
    (hfirst : Within first p q)
    (hshort : (IsShort p ∧ IsShort q) ∧ IsShort e ∧ IsShort (p - e) ∧ IsShort (p - 2 * e)) :
    Within (join (join (.ofBits 0x3fd27616c9496e0b) r (.ofBits 0xbfd71969a075c67a))
      (r * r * (r * r)) (join (join (.ofBits 0x3fdec70a6ca7badd) r (.ofBits 0xbfe7154748bef6c8))
        (r * r) first)) (p - 2 * e) q := by
  obtain ⟨⟨hsecond, hsecondLow, hsecondHigh⟩, hthird, hthirdLow, hthirdHigh⟩ :=
    log2Pairs_within hjoin hr
  obtain ⟨hends, hsmallest, hlower, hlowest⟩ := hshort
  have hzero : IsShort 0 := by with_unfolding_all decide
  have hsquare : Within (r * r) 0 e :=
    mul_within hr.finite hr.finite (mul_self_nonneg _) he ⟨hzero, hsmallest⟩
  have hsquareLow := hsquare.le
  have hsquareHigh := hsquare.ge
  have hquartic : Within (r * r * (r * r)) 0 e :=
    mul_within hsquare.finite hsquare.finite (mul_self_nonneg _) (by nlinarith) ⟨hzero, hsmallest⟩
  have hquarticLow := hquartic.le
  have hquarticHigh := hquartic.ge
  have hinner := hjoin.within (p := -e) (q := 0) hsecond hsquare.finite (by nlinarith)
    (by nlinarith) hfirst (by linarith) (by linarith)
    ⟨⟨hsmallest.neg, hzero⟩, hends, hlower, hends.2⟩
  exact hjoin.within (p := -e) (q := 0) hthird hquartic.finite (by nlinarith) (by nlinarith) hinner
    (by linarith) (by linarith) ⟨⟨hsmallest.neg, hzero⟩, ⟨hlower, hends.2⟩, hlowest, hends.2⟩

theorem log2Base_within {s : Split} {above : ℕ} (h : Splits s above) (habove : above < 0x404d0000) :
    Within (s.cell.log2 + s.octave) (-1) 129 := by
  obtain ⟨i, -, hcell, -⟩ := h.exists_cell
  obtain ⟨-, -, hlog2⟩ := cell_bounds i
  rw [← hcell] at hlog2
  have hoctave : toRat s.octave ≤ 128 := by
    rw [h.octave_eq]
    exact_mod_cast (by omega : above / 2 ^ 23 ≤ 128)
  have hoctave₀ : 0 ≤ toRat s.octave := by
    rw [h.octave_eq]
    positivity
  exact add_within hlog2.finite h.octave_finite (by linarith [hlog2.le]) (by linarith [hlog2.ge])
    (by with_unfolding_all decide)

theorem Splits.log2_within {x : Float32} {above : ℕ} (h : Splits (split x) above)
    (habove : above < 0x404d0000) (hjoin : IsJoin join) :
    Within (log2 join x) (-2 - 2 * (1 / 1024)) 130 := by
  have hr := h.offset_within hjoin
  have hrLow := hr.le
  have hrHigh := hr.ge
  have hbase := log2Base_within h habove
  obtain ⟨hscale, hscaleLow, hscaleHigh⟩ := log2Scale_within
  have hfirst : Within (join _ _ _) (-2) 130 :=
    hjoin.within (p := -3 / 64) (q := 3 / 64) hscale hr.finite (by nlinarith) (by nlinarith) hbase
      (by norm_num) (by norm_num) (by with_unfolding_all decide)
  exact log2Sum_within hjoin hr (by nlinarith) (by norm_num) hfirst (by with_unfolding_all decide)

/-- Within 20 steps of one the logarithm is small, and above zero. -/
theorem log2_near_one (hjoin : IsJoin join) {x : Float32} {f : ℕ}
    (hx : x.toBits.toNat = 0x3f800000 + f) (hf₀ : 0 < f) (hf : f ≤ 20) :
    Within (log2 join x) (1 / 2 ^ 23 - 2 * (1 / 2 ^ 36)) (30 / 2 ^ 23) := by
  obtain ⟨hoctave, -, hlog2, hoffset⟩ := split_near_one hx (by omega)
  have hr := hoffset join hjoin
  have hf₁ : (1 : ℚ) ≤ f := by exact_mod_cast hf₀
  have hf₂ : (f : ℚ) ≤ 20 := by exact_mod_cast hf
  have hbase : Within ((split x).cell.log2 + (split x).octave) 0 0 := by
    refine add_within hlog2.finite hoctave.finite ?_ ?_ (by with_unfolding_all decide)
    · rw [hlog2.eq, hoctave.eq, zero_add]
    · rw [hlog2.eq, hoctave.eq, zero_add]
  obtain ⟨hscale, hscaleLow, hscaleHigh⟩ := log2Scale_within
  have hfirst : Within (join _ _ _) (1 / 2 ^ 23) (30 / 2 ^ 23) :=
    hjoin.within (p := 1 / 2 ^ 23) (q := 30 / 2 ^ 23) hscale hr.finite ?_ ?_ hbase (by norm_num)
      (by norm_num) (by with_unfolding_all decide)
  · have hwide : Within ((split x).offset join) (-1 / 32) (1 / 32) := by
      refine ⟨hr.finite, ?_, ?_⟩
      · rw [hr.eq]
        linarith
      · rw [hr.eq]
        linarith
    refine log2Sum_within hjoin hwide ?_ (by norm_num) hfirst (by with_unfolding_all decide)
    rw [hr.eq]
    nlinarith
  · rw [hr.eq]
    nlinarith
  · rw [hr.eq]
    nlinarith

/-! ## Powers of two -/

theorem rootsOfTwo_bounds : ∀ i : Fin 32,
    0x3ff0000000000000 ≤ (rootsOfTwo.getD i 0).toNat ∧
      (rootsOfTwo.getD i 0).toNat < 0x4000000000000000 ∧
      (i.val = 0 → (rootsOfTwo.getD i 0).toNat = 0x3ff0000000000000) := by
  with_unfolding_all decide

/-- Counting down from the base takes one off the exponent field for every 32 steps. -/
theorem rootPower_within {count : UInt64} {j : ℕ} (hcount : count.toNat + j = 0x42e8000000000000)
    (hj : j ≤ 2048) : Within (rootPower count) (1 / 2 ^ 64) 1 := by
  obtain ⟨hleast, hgreatest, hwhole⟩ :=
    rootsOfTwo_bounds ⟨count.toNat % 32, Nat.mod_lt _ (by norm_num)⟩
  have hindex : (count % 32).toNat = count.toNat % 32 := UInt64.toNat_mod _ _
  have hfield : ((count >>> 5) <<< 52).toNat = count.toNat / 32 * 2 ^ 52 % 2 ^ 64 := by
    rw [UInt64.toNat_shiftLeft, UInt64.toNat_shiftRight, Nat.shiftLeft_eq,
      Nat.shiftRight_eq_div_pow]
    rfl
  rw [rootPower, hindex]
  dsimp only at hleast hgreatest hwhole
  generalize rootsOfTwo.getD (count.toNat % 32) 0 = root at hleast hgreatest hwhole ⊢
  have hword := UInt64.toNat_add root ((count >>> 5) <<< 52)
  rw [hfield] at hword
  have hlow : 0x3bf0000000000000 ≤ (root + ((count >>> 5) <<< 52)).toNat := by omega
  have hhigh : (root + ((count >>> 5) <<< 52)).toNat ≤ 0x3ff0000000000000 := by omega
  obtain ⟨hfinite, hrat⟩ := Double.toRat_ofBits (w := root + ((count >>> 5) <<< 52)) (by omega)
  have hmono : StrictMono fun w => size (Binary.double.magnitude w) := size_strictMono .binary64
  refine ⟨hfinite, ?_, ?_⟩
  · rw [hrat]
    refine le_trans ?_ (hmono.monotone hlow)
    with_unfolding_all decide
  · rw [hrat]
    refine (hmono.monotone hhigh).trans ?_
    with_unfolding_all decide

theorem smallExp2_within (hjoin : IsJoin join) {r : Float} (hr : Within r (-1 / 32) (1 / 32)) :
    Within (smallExp2 join r) (1 / 2) 2 := by
  obtain ⟨hsquare, hsquareLow, hsquareHigh⟩ := square_within hr
  obtain ⟨hfinite, hlow, hhigh⟩ := hr
  obtain ⟨hcube, hcubeLow, hcubeHigh⟩ : Within (Float.ofBits 0x3fac6af84b912394) 0 1 := by
    with_unfolding_all decide
  obtain ⟨hline, hlineLow, hlineHigh⟩ : Within (Float.ofBits 0x3fe62e42ff0c52d6) 0 1 := by
    with_unfolding_all decide
  have hterm : Within (Float.ofBits 0x3fcebfce50fac4f3) 0 (1 / 2) := by with_unfolding_all decide
  have hone : Within (1 : Float) 1 1 := by with_unfolding_all decide
  obtain ⟨hhead, hheadLow, hheadHigh⟩ : Within (join _ r _) (-1 / 32) 1 :=
    hjoin.within (p := -1 / 32) (q := 1 / 32) hcube hfinite (by nlinarith) (by nlinarith) hterm
      (by norm_num) (by norm_num) (by with_unfolding_all decide)
  have htail : Within (join _ r _) (31 / 32) (33 / 32) :=
    hjoin.within (p := -1 / 32) (q := 1 / 32) hline hfinite (by nlinarith) (by nlinarith) hone
      (by norm_num) (by norm_num) (by with_unfolding_all decide)
  exact hjoin.within (p := -1 / 1024) (q := 1 / 1024) hhead hsquare (by nlinarith) (by nlinarith)
    htail (by norm_num) (by norm_num) (by with_unfolding_all decide)

theorem countingBase_within : Within countingBase (3 * 2 ^ 46) (3 * 2 ^ 46) := by
  with_unfolding_all decide

theorem onGrid_thirtySeconds {m : ℤ} (hm : |m| ≤ 2 ^ 12) :
    OnGrid .binary64 (3 * 2 ^ 46 + m / 32) := by
  have hbits : (2 : ℤ) ^ Float.Model.Format.binary64.mantissaBits = 2 ^ 53 := rfl
  obtain ⟨hlow, hhigh⟩ := abs_le.mp hm
  refine ⟨3 * 2 ^ 51 + m, -5, ?_, by decide, by push_cast; ring⟩
  rw [hbits]
  exact abs_le.mpr ⟨by omega, by omega⟩

/-- Adding the base rounds to one of the two multiples of one thirty-second next to a number. -/
theorem add_countingBase {x : Float} (hx : Within x (-64) 0) :
    ∃ m : ℤ, -2048 ≤ m ∧ m ≤ 0 ∧ Within x (m / 32) ((m + 1) / 32) ∧
      Within (x + countingBase) (3 * 2 ^ 46 + m / 32) (3 * 2 ^ 46 + (m + 1) / 32) ∧
      toRat (x + countingBase) ≤ 3 * 2 ^ 46 := by
  obtain ⟨hfinite, hlow, hhigh⟩ := hx
  have hbase := countingBase_within.eq
  obtain ⟨m, hm⟩ : ∃ m : ℤ, m = ⌊toRat x * 32⌋ := ⟨_, rfl⟩
  have hmLow : (m : ℚ) ≤ toRat x * 32 := hm ▸ Int.floor_le _
  have hmHigh : toRat x * 32 < m + 1 := hm ▸ Int.lt_floor_add_one _
  have hm₀ : -2048 ≤ m := hm ▸ Int.le_floor.mpr (by push_cast; linarith)
  have hm₁ : m ≤ 0 := by
    have hcast : (m : ℚ) ≤ 0 := by linarith
    exact_mod_cast hcast
  have hsum := add_roundsTo hfinite countingBase_within.finite
    (abs_le_roomy_double (k := 48) (by rw [hbase]; exact abs_le.mpr ⟨by linarith, by linarith⟩)
      (by norm_num))
  rw [hbase] at hsum
  have hbelow := onGrid_thirtySeconds (m := m) (abs_le.mpr ⟨by omega, by omega⟩)
  have habove := onGrid_thirtySeconds (m := m + 1) (abs_le.mpr ⟨by omega, by omega⟩)
  have htop := onGrid_thirtySeconds (m := 0) (by decide)
  push_cast at habove
  rw [Int.cast_zero, zero_div, add_zero] at htop
  refine ⟨m, hm₀, hm₁, ⟨hfinite, by linarith, by linarith⟩, ?_, ?_⟩
  · exact hsum.within hbelow habove (by linarith) (by linarith)
  · exact hsum.rounds.below _ htop (by linarith)

/-- The word of the sum counts the thirty-seconds. -/
theorem toNat_countingWord {x : Float} (hx : Within x (-64) 0) :
    ∃ j ≤ 2048, (x + countingBase).toBits.toNat + j = 0x42e8000000000000 := by
  obtain ⟨m, hm, -, -, hsum, hsumTop⟩ := add_countingBase hx
  have hm₀ : (-2048 : ℚ) ≤ m := by exact_mod_cast hm
  have hsumLow := hsum.le
  obtain ⟨-, hsize⟩ := Double.size_toBits hsum.finite (by linarith)
  have hmono : StrictMono fun w => size (Binary.double.magnitude w) := size_strictMono .binary64
  have htop : size (Binary.double.magnitude 0x42e8000000000000) = 3 * 2 ^ 46 := by
    with_unfolding_all decide
  have hbottom : size (Binary.double.magnitude 0x42e7fffffffff800) = 3 * 2 ^ 46 - 64 := by
    with_unfolding_all decide
  have hle : (x + countingBase).toBits.toNat ≤ 0x42e8000000000000 := by
    rw [← hmono.le_iff_le, hsize, htop]
    exact hsumTop
  have hge : 0x42e7fffffffff800 ≤ (x + countingBase).toBits.toNat := by
    rw [← hmono.le_iff_le, hsize, hbottom]
    linarith
  obtain ⟨j, hj⟩ := Nat.exists_eq_add_of_le hle
  exact ⟨j, by omega, hj.symm⟩

/-- What the count leaves over. -/
theorem countingRest_within {x : Float} (hx : Within x (-64) 0) :
    Within (x - (x + countingBase - countingBase)) (-1 / 32) (1 / 32) := by
  obtain ⟨m, hm₀, hm₁, ⟨hfinite, hlow, hhigh⟩, ⟨hsum, hsumLow, hsumHigh⟩, -⟩ := add_countingBase hx
  have hbase := countingBase_within.eq
  have hfirst : IsShort (m / 2 ^ 5) := .of_intDiv (abs_le.mpr ⟨by omega, by omega⟩) (by norm_num)
  have hlast : IsShort ((m + 1 : ℤ) / 2 ^ 5) :=
    .of_intDiv (abs_le.mpr ⟨by omega, by omega⟩) (by norm_num)
  push_cast at hlast
  obtain ⟨hcount, hcountLow, hcountHigh⟩ :=
    sub_within hsum countingBase_within.finite (by rw [hbase]; linarith) (by rw [hbase]; linarith)
      ⟨hfirst, hlast⟩
  exact sub_within hfinite hcount (by linarith) (by linarith) (by with_unfolding_all decide)

theorem exp2_within (hjoin : IsJoin join) {x : Float} (hx : Within x (-64) 0) :
    Within (exp2 join x) (1 / 2 ^ 65) 2 := by
  obtain ⟨j, hj, hcount⟩ := toNat_countingWord hx
  obtain ⟨hroot, hrootLow, hrootHigh⟩ := rootPower_within hcount hj
  obtain ⟨hsmall, hsmallLow, hsmallHigh⟩ := smallExp2_within hjoin (countingRest_within hx)
  refine mul_within hsmall hroot ?_ ?_ (by with_unfolding_all decide)
  · calc (1 / 2 ^ 65 : ℚ) = 1 / 2 * (1 / 2 ^ 64) := by norm_num
      _ ≤ toRat _ * toRat _ := mul_le_mul hsmallLow hrootLow (by positivity) (by linarith)
  · nlinarith

/-- Exponents of two in this range are neither too great nor too small for single precision. -/
theorem evaluate_eq_exp2 {base exponent : Float32}
    (h : Within (Single.toDouble exponent * log2 join base) (-64) 0) :
    evaluate join base exponent = exp2 join (Single.toDouble exponent * log2 join base) := by
  have hgreatest : Within greatestExponent 0 128 := by with_unfolding_all decide
  have hvanishing : Within vanishingExponent (-150) (-150) := by with_unfolding_all decide
  have hlow : ¬greatestExponent < Single.toDouble exponent * log2 join base := by
    rw [lt_iff_toRat hgreatest.finite h.finite, not_lt]
    exact h.ge.trans hgreatest.le
  have hhigh : ¬Single.toDouble exponent * log2 join base ≤ vanishingExponent := by
    rw [le_iff_toRat h.finite hvanishing.finite, not_le]
    linarith [h.le, hvanishing.ge]
  simp only [evaluate, if_neg hlow, if_neg hhigh]

theorem evaluate_within (hjoin : IsJoin join) {base exponent : Float32}
    (h : Within (Single.toDouble exponent * log2 join base) (-64) 0) :
    Within (evaluate join base exponent) (1 / 2 ^ 65) 2 := by
  rw [evaluate_eq_exp2 h]
  exact exp2_within hjoin h

/-- The power stays above zero if the exponent of two is at most 64 below it. -/
theorem power_within {base exponent : Float32} (hdefined : exponent.isNaN = false)
    (h : ∀ join, IsJoin join → Within (Single.toDouble exponent * log2 join base) (-64) 0) :
    Within (power base exponent) (1 / 2 ^ 65) 2 := by
  have hquick := evaluate_within .apart (h _ .apart)
  have hcareful := evaluate_within .together (h _ .together)
  have hchosen : Within (if isClear (evaluate separately base exponent) then
      evaluate separately base exponent else evaluate Double.multiplyAdd base exponent)
      (1 / 2 ^ 65) 2 := by
    split
    · exact hquick
    · exact hcareful
  have hround := Single.ofDouble_roundsTo hchosen.finite (le_trans (by norm_num) hchosen.le)
    (hchosen.ge.trans (by norm_num))
  simp only [power, hdefined, Bool.false_eq_true, if_false]
  exact hround.within_short hchosen.le hchosen.ge (by with_unfolding_all decide)

/-- Two to the power of either zero is one. -/
theorem exp2_of_zero {x : Float} (h : IsFinite x) (hzero : toRat x = 0) :
    exp2 separately x = 1 := by
  obtain ⟨sign, hread⟩ := read_eq_zero h hzero
  rw [← settle_read x, hread]
  cases sign with
  | negative => with_unfolding_all decide
  | positive => with_unfolding_all decide

/-- A base with a finite logarithm to the power of either zero is one. -/
theorem power_of_zero {base exponent : Float32} (hlog : IsFinite (log2 separately base))
    (h : IsFinite exponent) (hzero : toRat exponent = 0) : power base exponent = 1 := by
  obtain ⟨hfinite, hrat⟩ := Single.toRat_toDouble h
  have hproduct : toRat (Single.toDouble exponent) * toRat (log2 separately base) = 0 := by
    rw [hrat, hzero, zero_mul]
  have hscaled : Within (Single.toDouble exponent * log2 separately base) 0 0 :=
    mul_within hfinite hlog hproduct.ge hproduct.le (by with_unfolding_all decide)
  have hone : evaluate separately base exponent = 1 := by
    rw [evaluate_eq_exp2 ⟨hscaled.finite, by linarith [hscaled.le], hscaled.ge⟩]
    exact exp2_of_zero hscaled.finite hscaled.eq
  have hclear : isClear 1 = true := by with_unfolding_all decide
  simp only [power, Single.isNaN_of_isFinite h, Bool.false_eq_true, if_false, hone, hclear, if_true]
  with_unfolding_all decide

end PanZoom.Elementary
