import PanZoom.Elementary.Logarithm
import PanZoom.Proofs.Precision.Width

/-!
# Bounds of the logarithm

How exact the logarithm is does not matter for the camera, but it must be finite and above zero for
every base that settings allow, also for the ones next to one:

* `IsJoin.within`: a product and a sum, with one rounding or with two;
* `cell_bounds`: the sixteen cells, by their words;
* `split_spec`, `split_near_one`: what splitting a number makes of its word;
* `ln_above`: away from one the logarithm is at least `1 / 128`;
* `ln_near_one`: next to one it is what the number has beyond one, but for a small part of it.
-/

namespace PanZoom.Elementary

open Precision

/-- The two ways to multiply and add that the elementary functions use. -/
inductive IsJoin : MultiplyAdd → Prop where
  | apart : IsJoin separately
  | together : IsJoin Double.multiplyAdd

/-- Whichever way it is joined, a sum lies between the sums of the bounds. -/
theorem IsJoin.within {join : MultiplyAdd} (h : IsJoin join) {a b c : Float}
    {p q least greatest low high : ℚ} (ha : IsFinite a) (hb : IsFinite b)
    (hp : p ≤ toRat a * toRat b) (hq : toRat a * toRat b ≤ q) (hc : Within c least greatest)
    (hle : low ≤ p + least) (hge : q + greatest ≤ high)
    (hshort : (IsShort p ∧ IsShort q) ∧ (IsShort least ∧ IsShort greatest) ∧
      IsShort low ∧ IsShort high) : Within (join a b c) low high := by
  have hcLow := hc.le
  have hcHigh := hc.ge
  cases h with
  | apart =>
    obtain ⟨hfinite, hlow, hhigh⟩ := mul_within ha hb hp hq hshort.1
    exact add_within hfinite hc.finite (by linarith) (by linarith) hshort.2.2
  | together =>
    exact Double.multiplyAdd_within ha hb hc (by linarith) (by linarith) hshort.2

/-- The number of the lowest rest of a cell; the cell above begins where it ends. -/
def cellStart (i : ℕ) : ℚ :=
  size (Binary.single.magnitude (0x3f330000 + i * 2 ^ 19))

/-- In a cell the offset is at most `1 / 32`, and the points after the tenth, which is one, are well
above it. -/
theorem cell_bounds : ∀ i : Fin 16,
    let c := cells.getD i unitCell
    (IsFinite c.reciprocal ∧ 0 < toRat c.reciprocal ∧
      -1 / 32 ≤ cellStart i * toRat c.reciprocal - 1 ∧
      cellStart (i + 1) * toRat c.reciprocal - 1 ≤ 1 / 32) ∧
    (Within c.ln (-22 / 64) (21 / 64) ∧ (9 < i.val → 3 / 64 ≤ toRat c.ln)) ∧
    Within c.log2 (-1) 1 := by
  with_unfolding_all decide

theorem lnTwo_bounds : Within lnTwo (44 / 64) (45 / 64) := by
  with_unfolding_all decide

/-! ## Splitting -/

/-- What splitting a number makes of its word, counted from the lowest rest. -/
structure Splits (s : Split) (above : ℕ) : Prop where
  octave_finite : IsFinite s.octave
  octave_eq : toRat s.octave = (above / 2 ^ 23 : ℕ)
  cell_eq : s.cell = cells.getD (above % 2 ^ 23 / 2 ^ 19) unitCell
  rest_finite : IsFinite s.rest
  rest_eq : toRat s.rest = size (Binary.single.magnitude (0x3f330000 + above % 2 ^ 23))

theorem split_spec {x : Float32} {above : ℕ} (hx : x.toBits.toNat = 0x3f330000 + above)
    (hlt : above < 0x404d0000) : Splits (split x) above := by
  have habove : (x.toBits - lowestRest).toNat = above := by
    have hle : lowestRest ≤ x.toBits := by
      rw [UInt32.le_iff_toNat_le, hx]
      exact Nat.le_add_right _ _
    rw [UInt32.toNat_sub_of_le _ _ hle, hx]
    exact Nat.add_sub_cancel_left _ _
  have hoctave : ((x.toBits - lowestRest) >>> 23).toNat = above / 2 ^ 23 := by
    rw [UInt32.toNat_shiftRight, habove, Nat.shiftRight_eq_div_pow]
    rfl
  have hshifted : (((x.toBits - lowestRest) >>> 23) <<< 23).toNat = above / 2 ^ 23 * 2 ^ 23 := by
    rw [UInt32.toNat_shiftLeft, hoctave]
    simp only [UInt32.reduceToNat, Nat.reduceMod, Nat.shiftLeft_eq]
    omega
  -- Taking the octave off the exponent's field leaves the word of the rest.
  have hrest : (x.toBits - (((x.toBits - lowestRest) >>> 23) <<< 23)).toNat =
      0x3f330000 + above % 2 ^ 23 := by
    have hle : ((x.toBits - lowestRest) >>> 23) <<< 23 ≤ x.toBits := by
      rw [UInt32.le_iff_toNat_le, hshifted, hx]
      omega
    rw [UInt32.toNat_sub_of_le _ _ hle, hshifted, hx]
    omega
  have hcount : ((x.toBits - lowestRest) >>> 23).toUInt64.toNat = above / 2 ^ 23 := hoctave
  obtain ⟨hfinite, hrat⟩ := Double.toRat_toFloat
    (n := ((x.toBits - lowestRest) >>> 23).toUInt64) (by omega)
  obtain ⟨hbits, hbitsRat⟩ := Single.toRat_ofBits
    (w := x.toBits - (((x.toBits - lowestRest) >>> 23) <<< 23)) (by omega)
  obtain ⟨hwide, hwideRat⟩ := Single.toRat_toDouble hbits
  refine ⟨hfinite, ?_, ?_, hwide, ?_⟩
  · exact hrat.trans (by rw [hcount])
  · have hcell : (((x.toBits - lowestRest) >>> 19) % 16).toNat = above % 2 ^ 23 / 2 ^ 19 := by
      rw [UInt32.toNat_mod, UInt32.toNat_shiftRight, habove, Nat.shiftRight_eq_div_pow]
      simp only [UInt32.reduceToNat, Nat.reduceMod]
      omega
    rw [← hcell]
    rfl
  · exact hwideRat.trans (by rw [hbitsRat, hrest])

/-- The cell that a rest lies in. -/
theorem Splits.exists_cell {s : Split} {above : ℕ} (h : Splits s above) :
    ∃ i : Fin 16, i.val = above % 2 ^ 23 / 2 ^ 19 ∧ s.cell = cells.getD i unitCell ∧
      cellStart i ≤ toRat s.rest ∧ toRat s.rest ≤ cellStart (i + 1) := by
  have hmono : StrictMono fun w => size (Binary.single.magnitude w) := size_strictMono .binary32
  refine ⟨⟨above % 2 ^ 23 / 2 ^ 19, by omega⟩, rfl, h.cell_eq, ?_, ?_⟩
  · rw [h.rest_eq]
    exact hmono.monotone (by dsimp only; omega)
  · rw [h.rest_eq]
    exact hmono.monotone (by dsimp only; omega)

theorem negativeOne_within : Within (-1 : Float) (-1) (-1) := by
  with_unfolding_all decide

/-- A rest over its cell's point, without rounding. -/
theorem Splits.quotient {s : Split} {above : ℕ} (h : Splits s above) :
    IsFinite s.cell.reciprocal ∧ 31 / 32 ≤ toRat s.rest * toRat s.cell.reciprocal ∧
      toRat s.rest * toRat s.cell.reciprocal ≤ 33 / 32 := by
  obtain ⟨i, -, hcell, hlow, hhigh⟩ := h.exists_cell
  obtain ⟨⟨hfinite, hpos, hleast, hgreatest⟩, -⟩ := cell_bounds i
  rw [← hcell] at hfinite hpos hleast hgreatest
  exact ⟨hfinite, by nlinarith, by nlinarith⟩

theorem Splits.offset_within {s : Split} {above : ℕ} (h : Splits s above) {join : MultiplyAdd}
    (hjoin : IsJoin join) : Within (s.offset join) (-1 / 32) (1 / 32) := by
  obtain ⟨hfinite, hlow, hhigh⟩ := h.quotient
  exact hjoin.within h.rest_finite hfinite hlow hhigh negativeOne_within (by norm_num)
    (by norm_num) (by with_unfolding_all decide)

/-- The numbers from one to two are told apart by their fractions. -/
theorem size_above_one {f : ℕ} (h : f < 2 ^ 23) :
    size (Binary.single.magnitude (0x3f800000 + f)) = 1 + f / 2 ^ 23 := by
  have hmagnitude := magnitude_eq .binary32 (0x3f800000 + f)
  have hfield : (0x3f800000 + f) / 2 ^ 23 = 127 := by omega
  have hfraction : (0x3f800000 + f) % 2 ^ 23 = f := by omega
  rw [hfield, hfraction, if_neg (by decide)] at hmagnitude
  change Binary.single.magnitude _ = _ at hmagnitude
  have hexponent : Float.Model.Format.binary32.minExponent + ((127 - 1 : ℕ) : ℤ) = -23 := rfl
  rw [hmagnitude, size, hexponent, zpow_neg]
  push_cast
  norm_num
  ring

/-- What splitting a number next to one gives: the unit cell, and an offset without rounding. -/
structure SplitsNearOne (s : Split) (f : ℕ) : Prop where
  octave_within : Within s.octave 0 0
  ln_within : Within s.cell.ln 0 0
  log2_within : Within s.cell.log2 0 0
  offset_within : ∀ join, IsJoin join → Within (s.offset join) (f / 2 ^ 23) (f / 2 ^ 23)

theorem split_near_one {x : Float32} {f : ℕ} (hx : x.toBits.toNat = 0x3f800000 + f)
    (hf : f < 0x30000) : SplitsNearOne (split x) f := by
  have hsplit := split_spec (hx.trans (by omega : _ = 0x3f330000 + (0x4d0000 + f))) (by omega)
  have hcell : (split x).cell = cells.getD 9 unitCell := by
    rw [hsplit.cell_eq]
    congr 1
    omega
  have hunit : Within (cells.getD 9 unitCell).reciprocal 1 1 ∧
      Within (cells.getD 9 unitCell).ln 0 0 ∧ Within (cells.getD 9 unitCell).log2 0 0 := by
    with_unfolding_all decide
  rw [← hcell] at hunit
  obtain ⟨hreciprocal, hln, hlog2⟩ := hunit
  have hoctave : toRat (split x).octave = 0 := by
    rw [hsplit.octave_eq, Nat.div_eq_of_lt (by omega), Nat.cast_zero]
  have hrest : toRat (split x).rest = 1 + f / 2 ^ 23 := by
    rw [hsplit.rest_eq, ← size_above_one (by omega)]
    congr 2
    omega
  refine ⟨⟨hsplit.octave_finite, hoctave.ge, hoctave.le⟩, hln, hlog2, fun join hjoin => ?_⟩
  have hends : IsShort (f / 2 ^ 23) ∧ IsShort (f / 2 ^ 23) :=
    ⟨.of_div (by omega) (by norm_num), .of_div (by omega) (by norm_num)⟩
  have hquotient : toRat (split x).rest * toRat (split x).cell.reciprocal =
      (2 ^ 23 + f : ℕ) / 2 ^ 23 := by
    rw [hrest, hreciprocal.eq, mul_one]
    push_cast
    ring
  have hshort : IsShort ((2 ^ 23 + f : ℕ) / 2 ^ 23) := .of_div (by omega) (by norm_num)
  have hsum : ((2 ^ 23 + f : ℕ) / 2 ^ 23 + -1 : ℚ) = f / 2 ^ 23 := by
    push_cast
    ring
  exact hjoin.within hsplit.rest_finite hreciprocal.finite hquotient.ge hquotient.le
    negativeOne_within hsum.ge hsum.le ⟨⟨hshort, hshort⟩, by with_unfolding_all decide, hends⟩

theorem square_within {r : Float} (h : Within r (-1 / 32) (1 / 32)) :
    Within (r * r) 0 (1 / 1024) := by
  obtain ⟨hfinite, hlow, hhigh⟩ := h
  exact mul_within hfinite hfinite (mul_self_nonneg _) (by nlinarith) (by with_unfolding_all decide)

theorem lnTail_within {r : Float} (h : Within r (-1 / 32) (1 / 32)) :
    Within (lnTail r) (-1) 0 := by
  obtain ⟨hsquare, hsquareLow, hsquareHigh⟩ := square_within h
  obtain ⟨hfinite, hlow, hhigh⟩ := h
  obtain ⟨hfirst, hfirstLow, hfirstHigh⟩ : Within (Float.ofBits 0xbfd00ea348b88334) (-1 / 2) 0 := by
    with_unfolding_all decide
  obtain ⟨hsecond, hsecondLow, hsecondHigh⟩ : Within (Float.ofBits 0x3fd5575b0be00b6a) 0 1 := by
    with_unfolding_all decide
  have hthird : Within (Float.ofBits 0xbfdffffef20a4123) (-1 / 2) (-1 / 4) := by
    with_unfolding_all decide
  have hinner : Within (Double.multiplyAdd (.ofBits 0x3fd5575b0be00b6a) r
      (.ofBits 0xbfdffffef20a4123)) (-3 / 4) (-1 / 8) := by
    have hthirdLow := hthird.le
    have hthirdHigh := hthird.ge
    exact Double.multiplyAdd_within hsecond hfinite hthird (by nlinarith) (by nlinarith)
      (by with_unfolding_all decide)
  have hinnerLow := hinner.le
  have hinnerHigh := hinner.ge
  exact Double.multiplyAdd_within hfirst hsquare hinner (by nlinarith) (by nlinarith)
    (by with_unfolding_all decide)

/-! ## The logarithm -/

/-- The logarithm before it is narrowed, from the offset and what it is added to. -/
theorem lnSum_within {r base : Float} (hr : Within r (-1 / 32) (1 / 32))
    (hbase : Within base (3 / 64) 91) :
    Within (Double.multiplyAdd (lnTail r) (r * r) (base + r)) (1 / 128) 92 := by
  obtain ⟨hsquare, hsquareLow, hsquareHigh⟩ := square_within hr
  obtain ⟨htail, htailLow, htailHigh⟩ := lnTail_within hr
  obtain ⟨hfinite, hlow, hhigh⟩ := hr
  obtain ⟨hbaseFinite, hbaseLow, hbaseHigh⟩ := hbase
  have hsum : Within (base + r) (1 / 64) (183 / 2) :=
    add_within hbaseFinite hfinite (by linarith) (by linarith) (by with_unfolding_all decide)
  have hsumLow := hsum.le
  have hsumHigh := hsum.ge
  exact Double.multiplyAdd_within htail hsquare hsum (by nlinarith) (by nlinarith)
    (by with_unfolding_all decide)

/-- Above the unit cell, what the offset is added to is well above zero. -/
theorem base_within {s : Split} {above : ℕ} (h : Splits s above) (hlow : 0x500000 ≤ above)
    (hhigh : above < 0x404d0000) :
    Within (Double.multiplyAdd s.octave lnTwo s.cell.ln) (3 / 64) 91 := by
  obtain ⟨i, hi, hcell, -⟩ := h.exists_cell
  obtain ⟨-, ⟨hln, hafter⟩, -⟩ := cell_bounds i
  rw [← hcell] at hln hafter
  have hlnLow := hln.le
  have hlnHigh := hln.ge
  obtain ⟨htwo, htwoLow, htwoHigh⟩ := lnTwo_bounds
  have hoctave : toRat s.octave ≤ 128 := by
    rw [h.octave_eq]
    exact_mod_cast (by omega : above / 2 ^ 23 ≤ 128)
  refine Double.multiplyAdd_within h.octave_finite htwo hln ?_ (by nlinarith)
    (by with_unfolding_all decide)
  rcases Nat.lt_or_ge above (2 ^ 23) with hfirst | hlater
  · have hzero : toRat s.octave = 0 := by
      rw [h.octave_eq, Nat.div_eq_of_lt hfirst, Nat.cast_zero]
    rw [hzero, zero_mul, zero_add]
    exact hafter (by omega)
  · have hone : 1 ≤ toRat s.octave := by
      rw [h.octave_eq]
      exact_mod_cast (by omega : 1 ≤ above / 2 ^ 23)
    nlinarith

theorem ln_above {x : Float32} (hlow : 0x3f830000 ≤ x.toBits.toNat)
    (hhigh : x.toBits.toNat < 0x7f800000) : Within (ln x) (1 / 128) 92 := by
  have hword : x.toBits.toNat = 0x3f330000 + (x.toBits.toNat - 0x3f330000) := by omega
  have hsplit := split_spec hword (by omega)
  have hbase := base_within hsplit (by omega) (by omega)
  have hsum := lnSum_within (hsplit.offset_within .together) hbase
  have hround := Single.ofDouble_roundsTo hsum.finite
    (le_trans (by norm_num [zpow_neg]) hsum.le) (hsum.ge.trans (by norm_num))
  exact hround.within_short hsum.le hsum.ge (by with_unfolding_all decide)

/-- The logarithm before it is narrowed, next to one. -/
theorem lnSum_near_one {r base : Float} {f k : ℕ} (hk₀ : 5 ≤ k) (hk : k ≤ 100)
    (hf : f * 2 ^ k ≤ 2 ^ 23) (hr : Within r (f / 2 ^ 23) (f / 2 ^ 23)) (hbase : Within base 0 0) :
    Within (Double.multiplyAdd (lnTail r) (r * r) (base + r))
      ((f * (2 ^ k - 1) : ℕ) / 2 ^ (23 + k)) (f / 2 ^ 23) := by
  have hone : 1 ≤ 2 ^ k := Nat.one_le_two_pow
  have hfew : f ≤ 2 ^ 23 := (Nat.le_mul_of_pos_right f (by positivity)).trans hf
  have hshort (i : ℕ) (hi : i ≤ 149) : IsShort (f / 2 ^ i) := .of_div (by omega) hi
  have hlow : IsShort ((f * (2 ^ k - 1) : ℕ) / 2 ^ (23 + k)) :=
    .of_div ((Nat.mul_le_mul_left f (Nat.sub_le _ 1)).trans (hf.trans (by norm_num))) (by omega)
  have hpos : (0 : ℚ) ≤ f / 2 ^ 23 := by positivity
  have hsmall : (f / 2 ^ 23 : ℚ) ≤ 1 / 2 ^ k := by
    have hcast : (f : ℚ) * 2 ^ k ≤ 2 ^ 23 := by exact_mod_cast hf
    rw [div_le_div_iff₀ (by positivity) (by positivity), one_mul]
    exact hcast
  have hlast : (1 / 2 ^ k : ℚ) ≤ 1 / 32 := by
    have hpow : (2 : ℚ) ^ 5 ≤ 2 ^ k := pow_le_pow_right₀ one_le_two hk₀
    exact one_div_le_one_div_of_le (by norm_num) (by linarith)
  have hpart : (f / 2 ^ (23 + k) : ℚ) = f / 2 ^ 23 * (1 / 2 ^ k) := by
    rw [pow_add]
    field_simp
  have hrest : ((f * (2 ^ k - 1) : ℕ) / 2 ^ (23 + k) : ℚ) = f / 2 ^ 23 - f / 2 ^ (23 + k) := by
    rw [Nat.cast_mul, Nat.cast_sub hone, pow_add]
    field_simp
    push_cast
    ring
  obtain ⟨htail, htailLow, htailHigh⟩ :=
    lnTail_within ⟨hr.finite, by linarith [hr.le], by linarith [hr.ge]⟩
  -- The square of `r` is at most `r / 2 ^ k`, so the tail takes off no more than that.
  have hsquare : Within (r * r) 0 (f / 2 ^ (23 + k)) := by
    refine mul_within hr.finite hr.finite ?_ ?_ ⟨by with_unfolding_all decide, hshort _ (by omega)⟩
    · exact mul_self_nonneg _
    · rw [hr.eq, hpart]
      exact mul_le_mul_of_nonneg_left hsmall hpos
  have hsum : Within (base + r) (f / 2 ^ 23) (f / 2 ^ 23) := by
    refine add_within hbase.finite hr.finite ?_ ?_ ⟨hshort _ (by norm_num), hshort _ (by norm_num)⟩
    · rw [hbase.eq, hr.eq, zero_add]
    · rw [hbase.eq, hr.eq, zero_add]
  have hsquareLow := hsquare.le
  have hsquareHigh := hsquare.ge
  refine Double.multiplyAdd_within htail hsquare.finite hsum ?_ ?_
    ⟨⟨hshort _ (by norm_num), hshort _ (by norm_num)⟩, hlow, hshort _ (by norm_num)⟩
  · rw [hsum.eq, hrest]
    nlinarith
  · rw [hsum.eq]
    nlinarith

/-- Next to one the logarithm is what the number has beyond one, but for a small part of it. -/
theorem ln_near_one {x : Float32} {f k : ℕ} (hx : x.toBits.toNat = 0x3f800000 + f) (hf₀ : 0 < f)
    (hk₀ : 5 ≤ k) (hk : k ≤ 100) (hnear : f < 0x30000) (hf : f * 2 ^ k ≤ 2 ^ 23) :
    Within (ln x) ((f * (2 ^ k - 1) : ℕ) / 2 ^ (23 + k)) (f / 2 ^ 23) := by
  obtain ⟨hoctave, hln, -, hoffset⟩ := split_near_one hx hnear
  have hbase : Within (Double.multiplyAdd (split x).octave lnTwo (split x).cell.ln) 0 0 := by
    refine Double.multiplyAdd_within hoctave.finite lnTwo_bounds.finite hln ?_ ?_
      (by with_unfolding_all decide)
    · rw [hoctave.eq, hln.eq, zero_mul, zero_add]
    · rw [hoctave.eq, hln.eq, zero_mul, zero_add]
  have hsum := lnSum_near_one hk₀ hk hf (hoffset _ .together) hbase
  have hshort : IsShort ((f * (2 ^ k - 1) : ℕ) / 2 ^ (23 + k)) :=
    .of_div ((Nat.mul_le_mul_left f (Nat.sub_le _ 1)).trans (hf.trans (by norm_num))) (by omega)
  have hleast : (2 : ℚ) ^ (-126 : ℤ) ≤ (f * (2 ^ k - 1) : ℕ) / 2 ^ (23 + k) := by
    have hpow : 2 ≤ 2 ^ k := (Nat.pow_le_pow_right two_pos (by omega : 1 ≤ k)).trans' (by norm_num)
    have hcast : (1 : ℚ) ≤ (f * (2 ^ k - 1) : ℕ) := by
      exact_mod_cast Nat.mul_pos hf₀ (by omega : 0 < 2 ^ k - 1)
    calc (2 : ℚ) ^ (-126 : ℤ) ≤ 1 / 2 ^ (23 + 100) := by norm_num
      _ ≤ 1 / 2 ^ (23 + k) := by gcongr; norm_num
      _ ≤ (f * (2 ^ k - 1) : ℕ) / 2 ^ (23 + k) := by gcongr
  have hgreatest : (f / 2 ^ 23 : ℚ) ≤ 2 ^ (127 : ℤ) := by
    have hcast : (f : ℚ) ≤ 2 ^ 24 := by exact_mod_cast (by omega : f ≤ 2 ^ 24)
    calc (f / 2 ^ 23 : ℚ) ≤ 2 ^ 24 / 2 ^ 23 := by gcongr
      _ ≤ 2 ^ (127 : ℤ) := by norm_num
  have hround := Single.ofDouble_roundsTo hsum.finite (hleast.trans hsum.le)
    (hsum.ge.trans hgreatest)
  exact hround.within_short hsum.le hsum.ge ⟨hshort, .of_div (by omega) (by norm_num)⟩

end PanZoom.Elementary
