import PanZoom.Proofs.Camera.Limit
import PanZoom.Proofs.Camera.Loop
import PanZoom.Proofs.Elementary.Power

/-!
# When the fit search ends

The search for a fit counts whole powers up or down, in single precision. A bound within `2 ^ 24`
stops it. Beyond that bound, which takes a zoom factor next to one, the count stops moving before it
gets there, and then the search ends only if some power on the way fits:

* `Fitting.SearchEnds`, `Fitting.SearchStalls`: what can become of a search;
* `Fitting.power?_eq_none_iff`: the fitted power is missing where the search stalls;
* `Fitting.searchEnds`: the searches that the bound stops;
* `Fitting.overflows_ofWideBuffer`: a buffer that no power on the way is small enough for;
* `Settings.searches_end_iff`: the settings under which every search ends.
-/

namespace PanZoom

open Precision Single

namespace Fitting

section

variable {α : Type} [Scalar α]

def ClimbEnds (f : Fitting α) : Prop :=
  LoopEnds (f.goesUp f.limit) (· + 1) 0

def DescentEnds (f : Fitting α) : Prop :=
  LoopEnds (f.goesDown f.limit) (· - 1) (-1)

/-- The loop upward reaches a power from which it would go on, but the next step is that power. -/
def ClimbStalls (f : Fitting α) : Prop :=
  LoopStalls (f.goesUp f.limit) (· + 1) 0

def DescentStalls (f : Fitting α) : Prop :=
  LoopStalls (f.goesDown f.limit) (· - 1) (-1)

/-- The search has nothing to do, or the loop that it enters ends. -/
def SearchEnds (f : Fitting α) : Prop :=
  f.isDegenerate = false →
    (f.fits 0 = true → f.ClimbEnds) ∧ (f.fits 0 = false → f.overflows 0 = true → f.DescentEnds)

/-- The loop that the search enters stalls. -/
def SearchStalls (f : Fitting α) : Prop :=
  f.isDegenerate = false ∧
    (f.fits 0 = true ∧ f.ClimbStalls ∨
      f.fits 0 = false ∧ f.overflows 0 = true ∧ f.DescentStalls)

end

variable (f : Fitting Float32)

theorem exists_limit : ∃ n : ℕ, n < 2 ^ 32 ∧ Within f.limit n n :=
  f.settings.exists_maxPower

variable {f} {n : ℕ}

theorem stepsPast_limit (h : Within f.limit n n) (hn : n < 2 ^ 32) :
    Scalar.stepsPast f.limit = min n (2 ^ 24) + 1 := by
  have hword : f.limit.toUInt32.toNat = n := toNat_toUInt32 h.finite h.eq hn
  change min f.limit.toUInt32.toNat (2 ^ 24) + 1 = _
  rw [hword]

/-- At the bound the search upward does not go on. -/
theorem goesUp_limit (h : Within f.limit n n) (hn : n ≤ 2 ^ 24) :
    f.goesUp f.limit (countUp n) = false := by
  have hcount := countUp_within hn
  have hstop : ¬countUp n < f.limit := by
    rw [lt_iff_toRat hcount.finite h.finite, hcount.eq, h.eq]
    exact lt_irrefl _
  rw [goesUp, Bool.and_eq_false_iff]
  exact .inl (decide_eq_false hstop)

/-- At the bound, and below a bound of zero, the search downward does not go on. -/
theorem goesDown_limit (h : Within f.limit n n) (hn : n ≤ 2 ^ 24) :
    f.goesDown f.limit (countDown (n - 1)) = false := by
  have hcount := countDown_within (by omega : n - 1 < 2 ^ 24)
  have hstop : ¬-f.limit < countDown (n - 1) := by
    rw [lt_iff_toRat h.finite.neg hcount.finite, hcount.eq, toRat_neg h.finite, h.eq, not_lt,
      neg_le_neg_iff]
    exact_mod_cast (by omega : n ≤ n - 1 + 1)
  rw [goesDown, Bool.and_eq_false_iff]
  exact .inl (decide_eq_false hstop)

theorem climb_eq_none_iff : f.climb = none ↔ ¬f.ClimbEnds := by
  obtain ⟨n, hn, hlimit⟩ := f.exists_limit
  have htries := stepsPast_limit hlimit hn
  refine firstStop_none_iff_endless countUp_stuck ?_
  rw [htries]
  rcases Nat.lt_or_ge n (2 ^ 24) with hlt | hge
  · exact .inr ⟨n, by omega, goesUp_limit hlimit hlt.le⟩
  · exact .inl (by omega)

theorem descend_eq_none_iff : f.descend = none ↔ ¬f.DescentEnds := by
  obtain ⟨n, hn, hlimit⟩ := f.exists_limit
  have htries := stepsPast_limit hlimit hn
  refine firstStop_none_iff_endless countDown_stuck ?_
  rw [htries]
  rcases Nat.lt_or_ge n (2 ^ 24) with hlt | hge
  · exact .inr ⟨n - 1, by omega, goesDown_limit hlimit hlt.le⟩
  · exact .inl (by omega)

/-- A fitted power is missing where the search does not end, and nowhere else. -/
theorem power?_eq_none_iff : f.power? = none ↔ ¬f.SearchEnds := by
  rw [power?, SearchEnds]
  generalize f.fits _ = fits
  generalize f.overflows _ = overflows
  cases f.isDegenerate with
  | true => simp
  | false =>
    cases fits with
    | true => simp [climb_eq_none_iff]
    | false =>
      cases overflows with
      | true => simp [descend_eq_none_iff]
      | false => simp

/-- A search that does not end stalls. -/
theorem searchStalls_iff : f.SearchStalls ↔ ¬f.SearchEnds := by
  have hclimb : f.ClimbStalls ↔ ¬f.ClimbEnds := loopStalls_iff countUp_stuck
  have hdescent : f.DescentStalls ↔ ¬f.DescentEnds := loopStalls_iff countDown_stuck
  rw [SearchStalls, SearchEnds, hclimb, hdescent]
  generalize f.fits _ = fits
  generalize f.overflows _ = overflows
  cases f.isDegenerate with
  | true => simp
  | false =>
    cases fits with
    | true => simp
    | false =>
      cases overflows with
      | true => simp
      | false => simp

/-- A bound of at most 24 bits ends every search. -/
theorem searchEnds (h : Within f.limit n n) (hn : n ≤ 2 ^ 24) : f.SearchEnds :=
  fun _ => ⟨fun _ => ⟨n, goesUp_limit h hn⟩, fun _ _ => ⟨n - 1, goesDown_limit h hn⟩⟩

/-! ## A buffer that never fits -/

/-- A base next to one, raised to a power that the search can count down to. -/
theorem zoom_within {p : Float32} {m : ℕ} (hlimit : 2 ^ 24 < toRat f.limit)
    (hp : Within p (-m) (-m)) (hm : m ≤ 2 ^ 24) : Within (f.zoom p) (1 / 2 ^ 65) 2 := by
  rw [limit, Settings.maxPower_eq] at hlimit
  obtain ⟨k, hk₀, hk, hword⟩ := f.settings.isZoomFactor.near_one hlimit
  refine Elementary.power_within (isNaN_of_isFinite hp.finite) fun join hjoin => ?_
  obtain ⟨hlog, hlogLow, hlogHigh⟩ := Elementary.log2_near_one hjoin hword hk₀ hk
  obtain ⟨hfinite, hrat⟩ := toRat_toDouble hp.finite
  have hm₀ : (m : ℚ) ≤ 2 ^ 24 := by exact_mod_cast hm
  have hm₁ : (0 : ℚ) ≤ m := by positivity
  rw [hp.eq] at hrat
  refine mul_within hfinite hlog ?_ ?_ (by with_unfolding_all decide)
  · rw [hrat]
    nlinarith
  · rw [hrat]
    nlinarith

/-- At either zero the zoom is one, whatever the base. -/
theorem zoom_of_zero (f : Fitting Float32) {p : Float32} (h : IsFinite p) (hzero : toRat p = 0) :
    f.zoom p = 1 := by
  obtain ⟨hlow, hhigh⟩ := f.settings.isZoomFactor.word
  obtain ⟨above, habove⟩ := Nat.exists_eq_add_of_le (Nat.le_of_lt (lt_trans (by norm_num) hlow) :
    0x3f330000 ≤ f.settings.zoomFactor.toBits.toNat)
  have hsplit := Elementary.split_spec habove (by omega)
  exact Elementary.power_of_zero (hsplit.log2_within (by omega) .apart).finite h hzero

theorem zoom_zero_within (f : Fitting Float32) : Within (f.zoom 0) (1 / 2 ^ 65) 2 := by
  rw [f.zoom_of_zero zero_within.finite zero_within.eq]
  with_unfolding_all decide

/-- In a viewport of one pixel a very wide buffer overflows at every zoom that is not tiny. -/
theorem overflows_of_wide {p : Float32} (hview : f.viewport = ⟨1, 1⟩)
    (hwide : Within f.extent.x (2 ^ 100) (2 ^ 100)) (hzoom : Within (f.zoom p) (1 / 2 ^ 65) 2) :
    f.overflows p = true ∧ f.fits p = false := by
  have hpixel : Within (Scalar.ofCount 1 : Float32) 1 1 := by with_unfolding_all decide
  obtain ⟨hfinite, hlow, hhigh⟩ := hzoom
  have hproduct : 2 ≤ toRat (f.zoom p) * 2 ^ 100 ∧ toRat (f.zoom p) * 2 ^ 100 ≤ 2 ^ 101 :=
    ⟨by linarith, by linarith⟩
  have hround := mul_roundsTo hfinite hwide.finite (by
    rw [hwide.eq]
    exact abs_le_roomy_single (k := 101) (abs_le.mpr ⟨by linarith, hproduct.2⟩) (by norm_num))
  rw [hwide.eq] at hround
  have htwo : IsShort 2 := by with_unfolding_all decide
  have hlarge : 2 ≤ toRat (f.zoom p * f.extent.x) :=
    hround.rounds.above _ htwo.onGrid_format hproduct.1
  have hover : (Scalar.ofCount 1 : Float32) < f.zoom p * f.extent.x := by
    rw [lt_iff_toRat hpixel.finite hround.finite, hpixel.eq]
    linarith
  have hunder : ¬f.zoom p * f.extent.x < Scalar.ofCount 1 := by
    rw [lt_iff_toRat hround.finite hpixel.finite, hpixel.eq]
    linarith
  rw [overflows, fits, hview]
  exact ⟨by rw [decide_eq_true hover, Bool.true_or], by rw [decide_eq_false hunder, Bool.false_and]⟩

/-- The side of a square buffer, `2 ^ 100`. -/
def wideSide : Float32 :=
  .ofBits 0x71800000

/-- What a fit of that buffer to one pixel compares. -/
def ofWideBuffer (settings : Settings Float32) : Fitting Float32 :=
  ⟨⟨wideSide, wideSide, 0, 0⟩, ⟨1, 1⟩, settings⟩

theorem fitting_wideBuffer {c : Camera Float32} (hview : c.viewport = ⟨1, 1⟩) :
    c.fitting .identity ⟨wideSide, wideSide⟩ = ofWideBuffer c.settings := by
  have hextent : ((Transform.identity : Transform Float32) *
      Homogeneous.direction wideSide wideSide).abs = ⟨wideSide, wideSide, 0, 0⟩ := by
    with_unfolding_all decide
  rw [Camera.fitting, hextent, hview, ofWideBuffer]

theorem isDegenerate_ofWideBuffer (s : Settings Float32) :
    (ofWideBuffer s).isDegenerate = false := by
  have hany : (ofWideBuffer s).isDegenerate = (ofWideBuffer .default).isDegenerate := rfl
  rw [hany]
  with_unfolding_all decide

theorem wideSide_within : Within wideSide (2 ^ 100) (2 ^ 100) := by
  with_unfolding_all decide

theorem overflows_ofWideBuffer {s : Settings Float32} {p : Float32} {m : ℕ}
    (h : 2 ^ 24 < toRat s.maxPower) (hp : Within p (-m) (-m)) (hm : m ≤ 2 ^ 24) :
    (ofWideBuffer s).overflows p = true ∧ (ofWideBuffer s).fits p = false :=
  overflows_of_wide rfl wideSide_within (zoom_within h hp hm)

/-- Wherever the count down gets to, the search for a fit of the wide buffer goes on. -/
theorem goesDown_ofWideBuffer {s : Settings Float32} (h : 2 ^ 24 < toRat s.maxPower) (n : ℕ) :
    (ofWideBuffer s).goesDown s.maxPower (countDown n) = true := by
  obtain ⟨k, -, hlimit⟩ := s.exists_maxPower
  have hcount := countDown_min n
  have hlast : min (n + 1) (2 ^ 24) ≤ 2 ^ 24 := min_le_right _ _
  have habove : -s.maxPower < countDown n := by
    rw [lt_iff_toRat hlimit.finite.neg hcount.finite, hcount.eq, toRat_neg hlimit.finite,
      neg_lt_neg_iff]
    exact lt_of_le_of_lt (by exact_mod_cast hlast) h
  rw [goesDown, decide_eq_true habove, (overflows_ofWideBuffer h hcount hlast).1, Bool.true_and]

/-- The search for a fit of the wide buffer never ends if its bound has more than 24 bits. -/
theorem not_searchEnds_ofWideBuffer {s : Settings Float32} (h : 2 ^ 24 < toRat s.maxPower) :
    ¬(ofWideBuffer s).SearchEnds := by
  intro hends
  have hzero : Within (0 : Float32) (-(0 : ℕ)) (-(0 : ℕ)) := by simpa using zero_within
  obtain ⟨hover, hfits⟩ := overflows_ofWideBuffer h hzero (by norm_num)
  obtain ⟨n, hn⟩ := (hends (isDegenerate_ofWideBuffer s)).2 hfits hover
  have hgoes := goesDown_ofWideBuffer h n
  rw [countDown] at hgoes
  exact absurd hn (by rw [Bool.not_eq_false]; exact hgoes)

end Fitting

/-- The last power that a step of one can reach. -/
def lastPower : Float32 :=
  16777216

theorem Settings.maxPower_le_lastPower (s : Settings Float32) :
    s.maxPower ≤ lastPower ↔ toRat s.maxPower ≤ 2 ^ 24 := by
  obtain ⟨n, -, hlimit⟩ := s.exists_maxPower
  have hlast : Within lastPower (2 ^ 24) (2 ^ 24) := by with_unfolding_all decide
  rw [le_iff_toRat hlimit.finite hlast.finite, hlast.eq]

/-- Every search for a fit ends, stalls nowhere and finds a power, exactly if the greatest power has
at most 24 bits. -/
theorem Settings.searches_end_iff (s : Settings Float32) :
    (∀ (c : Camera Float32) (pose : Transform Float32) (buffer : ImageBuffer Float32),
        c.settings = s →
          (c.fitting pose buffer).SearchEnds ∧ ¬(c.fitting pose buffer).SearchStalls ∧
            ∃ power, (c.fitting pose buffer).power? = some power) ↔
      s.maxPower ≤ lastPower := by
  rw [s.maxPower_le_lastPower]
  constructor
  · intro hall
    by_contra hmany
    let c : Camera Float32 := (Camera.ofNodes ⟨0, 0⟩ ⟨1, 0⟩ s).resize ⟨1, 1⟩
    have hends := (hall c .identity ⟨Fitting.wideSide, Fitting.wideSide⟩ rfl).1
    rw [Fitting.fitting_wideBuffer (c := c) rfl] at hends
    exact Fitting.not_searchEnds_ofWideBuffer (not_le.mp hmany) hends
  · rintro hfew c pose buffer rfl
    obtain ⟨n, -, hlimit⟩ := c.settings.exists_maxPower
    rw [hlimit.eq] at hfew
    have hends := Fitting.searchEnds (f := c.fitting pose buffer) hlimit (by exact_mod_cast hfew)
    refine ⟨hends, fun hstalls => Fitting.searchStalls_iff.mp hstalls hends, ?_⟩
    rw [← Option.ne_none_iff_exists', ne_eq, Fitting.power?_eq_none_iff, not_not]
    exact hends

/-- A camera with the factor next to one and a viewport of one pixel. -/
def stalledCamera : Camera Float32 :=
  (Camera.ofNodes ⟨1, 0⟩ ⟨0, 0⟩ (.ofRequest .default (.ofBits 0x3f800001) 1 .default)).resize ⟨1, 1⟩

theorem stalledCamera_stalls :
    (stalledCamera.fitting .identity ⟨Fitting.wideSide, Fitting.wideSide⟩).SearchStalls := by
  have hmany : 2 ^ 24 < toRat stalledCamera.settings.maxPower := by
    rw [← not_le, Settings.maxPower_le_iff]
    with_unfolding_all decide
  rw [Fitting.searchStalls_iff, Fitting.fitting_wideBuffer rfl]
  exact Fitting.not_searchEnds_ofWideBuffer hmany

end PanZoom
