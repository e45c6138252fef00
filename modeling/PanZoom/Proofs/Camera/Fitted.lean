import PanZoom.Proofs.Camera.Failure

/-!
# What a fit finds

The search counts whole powers up from unit zoom while the next one still fits, or down while
something overflows. Where it comes to an end is a boundary between the two:

* `Fitting.IsProper`: there is something to fit, and something to fit it to;
* `Fitting.IsTop`, `Fitting.IsBottom`: the ends of the two searches;
* `Fitting.power?_isFitted`: the power that is found is the end of the search that was made;
* `Camera.fit_finds`: a fit takes over that power, whatever the power was, and publishes it.
-/

namespace PanZoom

open Precision Single

/-- The number is finite and has no fraction. -/
def IsWhole (x : Float32) : Prop :=
  IsFinite x ∧ ∃ k : ℤ, toRat x = k

theorem Precision.Within.isWhole {x : Float32} {k : ℤ} (h : Within x k k) : IsWhole x :=
  ⟨h.finite, k, h.eq⟩

namespace Fitting

/-- The posed buffer has a finite extent that is not too small, and the viewport is not empty. -/
structure IsProper (f : Fitting Float32) : Prop where
  finite : IsFinite f.extent.x ∧ IsFinite f.extent.y
  large : Scalar.leastExtent ≤ f.extent.x ∧ Scalar.leastExtent ≤ f.extent.y
  viewport : f.viewport.width ≠ 0 ∧ f.viewport.height ≠ 0

/-- Every whole power from zero to this one fits, and it is the greatest that the settings allow, or
the next one does not fit. -/
structure IsTop (f : Fitting Float32) (p : Float32) : Prop where
  whole : IsWhole p
  nonneg : 0 ≤ p
  fits : ∀ x, IsWhole x → 0 ≤ x → x ≤ p → f.fits x = true
  last : f.limit ≤ p ∨ f.fits (p + 1) = false

/-- Every whole power from zero down to this one overflows, this one left out. It does not overflow,
or it is the lowest that the settings allow. -/
structure IsBottom (f : Fitting Float32) (p : Float32) : Prop where
  whole : IsWhole p
  below : p ≤ -1
  overflows : ∀ x, IsWhole x → p < x → x ≤ 0 → f.overflows x = true
  last : f.overflows p = false ∨ p ≤ -f.limit

/-- The rule for the power of a fit: as far up as the buffer fits, else as far down as it overflows.
A buffer that does neither at unit zoom stays there, and so does one that is not proper. -/
structure IsFitted (f : Fitting Float32) (p : Float32) : Prop where
  up : f.IsProper → f.fits 0 = true → f.IsTop p
  down : f.IsProper → f.fits 0 = false → f.overflows 0 = true → f.IsBottom p
  touching : f.IsProper → f.fits 0 = false → f.overflows 0 = false → p = 0
  improper : ¬f.IsProper → p = 0

variable {f : Fitting Float32} {p x : Float32}

theorem isDegenerate_eq_false_iff : f.isDegenerate = false ↔ f.IsProper := by
  have hleast : IsFinite (Scalar.leastExtent : Float32) := by with_unfolding_all decide
  have hlarge {x : Float32} (hx : IsFinite x) :
      Scalar.leastExtent ≤ x ↔ ¬x < Scalar.leastExtent := by
    rw [le_iff_toRat hleast hx, lt_iff_toRat hx hleast, not_lt]
  have hparts : f.isDegenerate = false ↔
      (IsFinite f.extent.x ∧ IsFinite f.extent.y) ∧ ¬f.extent.x < Scalar.leastExtent ∧
        ¬f.extent.y < Scalar.leastExtent ∧ f.viewport.isEmpty = false := by
    have hfinite : IsFinite f.extent.x ∧ IsFinite f.extent.y ↔
        (Scalar.isFinite f.extent.x && Scalar.isFinite f.extent.y) = true :=
      (Bool.and_eq_true_iff (x := Scalar.isFinite f.extent.x)).symm
    rw [hfinite, isDegenerate]
    simp only [Bool.or_eq_false_iff, Bool.not_eq_false', decide_eq_false_iff_not]
    tauto
  have hview : f.viewport.isEmpty = false ↔ f.viewport.width ≠ 0 ∧ f.viewport.height ≠ 0 := by
    simp [Size.isEmpty]
  rw [hparts, hview]
  constructor
  · rintro ⟨hfinite, hx, hy, hviewport⟩
    exact ⟨hfinite, ⟨(hlarge hfinite.1).mpr hx, (hlarge hfinite.2).mpr hy⟩, hviewport⟩
  · intro h
    exact ⟨h.finite, (hlarge h.finite.1).mp h.large.1, (hlarge h.finite.2).mp h.large.2,
      h.viewport⟩

/-- Powers with the same zoom fit alike. -/
theorem fits_congr (h : f.zoom p = f.zoom x) : f.fits p = f.fits x := by
  rw [fits, fits, h]

theorem overflows_congr (h : f.zoom p = f.zoom x) : f.overflows p = f.overflows x := by
  rw [overflows, overflows, h]

/-- Both zeros stand for unit zoom. -/
theorem zoom_eq_zoom_zero (h : IsFinite x) (hzero : toRat x = 0) : f.zoom x = f.zoom 0 := by
  rw [f.zoom_of_zero h hzero, f.zoom_of_zero zero_within.finite zero_within.eq]

/-- A whole power up to `2 ^ 24` stands for zero, or the count up gets to it after a first step. -/
theorem IsWhole.eq_countUp (h : IsWhole x) (hlow : 0 ≤ toRat x) (hhigh : toRat x ≤ 2 ^ 24) :
    toRat x = 0 ∨ ∃ i : ℕ, toRat x = (i + 1 : ℕ) ∧ x = countUp (i + 1) := by
  obtain ⟨hfinite, k, hk⟩ := h
  rw [hk] at hlow hhigh
  obtain ⟨n, rfl⟩ := Int.eq_ofNat_of_zero_le (by exact_mod_cast hlow : 0 ≤ k)
  have hn : n ≤ 2 ^ 24 := by exact_mod_cast hhigh
  cases n with
  | zero => exact .inl (by simpa using hk)
  | succ i =>
    refine .inr ⟨i, by exact_mod_cast hk, eq_of_toRat_eq ?_ ?_⟩
    · rw [hk, (countUp_within hn).eq]
      rfl
    · rw [hk]
      exact_mod_cast Nat.succ_ne_zero i

/-- A whole power down to `-2 ^ 24` stands for zero, or the count down gets to it. -/
theorem IsWhole.eq_countDown (h : IsWhole x) (hlow : -2 ^ 24 ≤ toRat x) (hhigh : toRat x ≤ 0) :
    toRat x = 0 ∨ ∃ i : ℕ, toRat x = -(i + 1 : ℕ) ∧ x = countDown i := by
  obtain ⟨hfinite, k, hk⟩ := h
  rw [hk] at hlow hhigh
  obtain ⟨n, hn⟩ := Int.eq_ofNat_of_zero_le (by
    exact_mod_cast neg_nonneg.mpr hhigh : 0 ≤ -k)
  obtain rfl : k = -n := by omega
  have hfew : n ≤ 2 ^ 24 := by
    have hcast : (n : ℚ) ≤ 2 ^ 24 := by
      push_cast at hlow
      linarith
    exact_mod_cast hcast
  cases n with
  | zero => exact .inl (by simpa using hk)
  | succ i =>
    refine .inr ⟨i, by exact_mod_cast hk, eq_of_toRat_eq ?_ ?_⟩
    · rw [hk, (countDown_within hfew).eq]
      push_cast
      rfl
    · rw [hk]
      push_cast
      exact neg_ne_zero.mpr (by positivity)

/-! ## The ends of the searches -/

theorem isTop_of_climb (hzero : f.fits 0 = true) (h : f.climb = some p) : f.IsTop p := by
  obtain ⟨k, -, hlimit⟩ := f.exists_limit
  obtain ⟨n, hp, hstop, hbefore⟩ := firstStop_eq_some h
  change p = countUp n at hp
  -- Past `2 ^ 24` a step changes nothing, so the count up to there is exact.
  have hcount : Within p (min n (2 ^ 24) : ℕ) (min n (2 ^ 24) : ℕ) := hp ▸ countUp_min n
  have hleast := min_le_left n (2 ^ 24)
  have hfew : (min n (2 ^ 24) : ℕ) ≤ 2 ^ 24 := min_le_right n (2 ^ 24)
  generalize min n (2 ^ 24) = m at *
  refine ⟨?_, ?_, ?_, ?_⟩
  · exact Within.isWhole (k := m) (by exact_mod_cast hcount)
  · rw [le_iff_toRat zero_within.finite hcount.finite, zero_within.eq, hcount.eq]
    positivity
  · intro x hx hlow hhigh
    rw [le_iff_toRat zero_within.finite hx.1, zero_within.eq] at hlow
    rw [le_iff_toRat hx.1 hcount.finite, hcount.eq] at hhigh
    have hm : (m : ℚ) ≤ 2 ^ 24 := by exact_mod_cast hfew
    rcases IsWhole.eq_countUp hx hlow (hhigh.trans hm) with hx₀ | ⟨i, hi, rfl⟩
    · rw [fits_congr (zoom_eq_zoom_zero hx.1 hx₀), hzero]
    · rw [hi] at hhigh
      have him : i + 1 ≤ m := by exact_mod_cast hhigh
      have hgoes : f.goesUp f.limit (countUp i) = true := hbefore i (by omega)
      have hnext : countUp (i + 1) = countUp i + 1 := Function.iterate_succ_apply' _ _ _
      rw [hnext]
      exact (Bool.and_eq_true_iff.mp hgoes).2
  · rw [goesUp, Bool.and_eq_false_iff, decide_eq_false_iff_not,
      lt_iff_toRat hcount.finite hlimit.finite, not_lt,
      ← le_iff_toRat hlimit.finite hcount.finite] at hstop
    exact hstop

theorem isBottom_of_descend (hzero : f.overflows 0 = true) (h : f.descend = some p) :
    f.IsBottom p := by
  obtain ⟨k, -, hlimit⟩ := f.exists_limit
  have hone : Within (-1 : Float32) (-1) (-1) := by with_unfolding_all decide
  obtain ⟨n, hp, hstop, hbefore⟩ := firstStop_eq_some h
  change p = countDown n at hp
  have hcount : Within p (-(min (n + 1) (2 ^ 24) : ℕ)) (-(min (n + 1) (2 ^ 24) : ℕ)) :=
    hp ▸ countDown_min n
  have hleast := min_le_left (n + 1) (2 ^ 24)
  have hfew := min_le_right (n + 1) (2 ^ 24)
  have hmany : 1 ≤ min (n + 1) (2 ^ 24) := le_min (by omega) (by norm_num)
  generalize min (n + 1) (2 ^ 24) = m at *
  refine ⟨?_, ?_, ?_, ?_⟩
  · exact Within.isWhole (k := -m) (by exact_mod_cast hcount)
  · rw [le_iff_toRat hcount.finite hone.finite, hone.eq, hcount.eq, neg_le_neg_iff]
    exact_mod_cast hmany
  · intro x hx hlow hhigh
    rw [lt_iff_toRat hcount.finite hx.1, hcount.eq] at hlow
    rw [le_iff_toRat hx.1 zero_within.finite, zero_within.eq] at hhigh
    have hm : (m : ℚ) ≤ 2 ^ 24 := by exact_mod_cast hfew
    rcases IsWhole.eq_countDown hx (by linarith) hhigh with hx₀ | ⟨i, hi, rfl⟩
    · rw [overflows_congr (zoom_eq_zoom_zero hx.1 hx₀), hzero]
    · rw [hi, neg_lt_neg_iff] at hlow
      have him : i + 1 < m := by exact_mod_cast hlow
      have hgoes : f.goesDown f.limit (countDown i) = true := hbefore i (by omega)
      exact (Bool.and_eq_true_iff.mp hgoes).2
  · rw [goesDown, Bool.and_eq_false_iff, decide_eq_false_iff_not,
      lt_iff_toRat hlimit.finite.neg hcount.finite, not_lt,
      ← le_iff_toRat hcount.finite hlimit.finite.neg] at hstop
    exact hstop.symm

/-- The power that is found is the one by the rule. -/
theorem power?_isFitted (h : f.power? = some p) : f.IsFitted p := by
  rw [power?] at h
  split at h
  · rename_i hdegenerate
    have himproper : ¬f.IsProper := fun hproper => by
      rw [isDegenerate_eq_false_iff.mpr hproper] at hdegenerate
      cases hdegenerate
    cases h
    exact ⟨fun hproper => absurd hproper himproper, fun hproper => absurd hproper himproper,
      fun _ _ _ => rfl, fun _ => rfl⟩
  · rename_i hproper
    rw [Bool.not_eq_true, isDegenerate_eq_false_iff] at hproper
    have hnot {q : Prop} (h : ¬f.IsProper) : q := absurd hproper h
    split at h
    · rename_i hfits
      exact ⟨fun _ _ => isTop_of_climb hfits h,
        fun _ hnone => (Bool.eq_false_iff.mp hnone hfits).elim,
        fun _ hnone => (Bool.eq_false_iff.mp hnone hfits).elim, hnot⟩
    · rename_i hfits
      split at h
      · rename_i hover
        exact ⟨fun _ hsome => absurd hsome hfits, fun _ _ _ => isBottom_of_descend hover h,
          fun _ _ hnone => (Bool.eq_false_iff.mp hnone hover).elim, hnot⟩
      · rename_i hover
        cases h
        exact ⟨fun _ hsome => absurd hsome hfits, fun _ _ hsome => absurd hsome hover,
          fun _ _ _ => rfl, hnot⟩

end Fitting

namespace Camera

variable {c : Camera Float32} {stage : Stage Float32} {node : Node Float32}
  {image : ImageBuffer Float32} {p : Float32}

theorem bufferGeometry_of_shown (hnode : stage.node? c.buffer = some node)
    (himage : node.buffer = some image) : c.bufferGeometry stage = .ok (node.pose, image) := by
  simp [bufferGeometry, hnode, himage]

theorem power?_of_fittedPower {pose : Transform Float32}
    (hgeometry : c.bufferGeometry stage = .ok (pose, image)) (h : c.fittedPower stage = .ok p) :
    (c.fitting pose image).power? = some p := by
  rw [fittedPower, hgeometry] at h
  dsimp only at h
  split at h
  · rename_i power hpower
    cases h
    exact hpower
  · cases h

/-- **What a fit finds.** The fitted power is the boundary that the rule names. A fit takes it over
whatever the power was and changes nothing else of the camera. It publishes the view if the camera's
own node is on the stage; otherwise it reports that and leaves the stage alone. -/
theorem fit_finds (hnode : stage.node? c.buffer = some node) (himage : node.buffer = some image)
    (hp : c.fittedPower stage = .ok p) :
    (c.fitting node.pose image).IsFitted p ∧
    ∀ power : Float32,
      (stage.Holds c.node → { c with zoomPower := power }.fit stage =
        .done { c with zoomPower := p }
          (stage.update c.node (·.publish { c with zoomPower := p }.viewPose)) ()) ∧
      (¬stage.Holds c.node → { c with zoomPower := power }.fit stage =
        .stopped { c with zoomPower := p } stage (.failed (.cameraNodeGone c.node))) := by
  have hfound := power?_of_fittedPower (bufferGeometry_of_shown hnode himage) hp
  refine ⟨Fitting.power?_isFitted hfound, fun power => ?_⟩
  -- Neither the geometry nor the comparison looks at the power.
  have hfit : { c with zoomPower := power }.fit stage =
      { c with zoomPower := p }.publish stage :=
    fit_of_power?_eq_some (c := { c with zoomPower := power })
      (bufferGeometry_of_shown (c := { c with zoomPower := power }) hnode himage) hfound
  rw [hfit]
  constructor
  · rintro ⟨own, hown⟩
    simp [Camera.publish, hown]
  · exact fun hgone => publish_of_not_holds (c := { c with zoomPower := p }) hgone

/-- A camera that has been moved and zoomed, with a viewport of twenty by twenty pixels. -/
def astray : Camera Float32 :=
  { (ofNodes ⟨1, 0⟩ ⟨0, 0⟩ .default).resize ⟨20, 20⟩ with pan := ⟨5, 7⟩, zoomPower := 3 }

theorem fit_finds_far_down :
    astray.fittedPower (stageOf ⟨100, 10⟩) = .ok (-17) ∧
    (astray.fitting .identity ⟨100, 10⟩).IsProper ∧
    (astray.fitting .identity ⟨100, 10⟩).IsBottom (-17) ∧
    ((stageOf ⟨100, 10⟩).Holds astray.node ∧ astray.fit (stageOf ⟨100, 10⟩) =
      .done { astray with zoomPower := -17 } ((stageOf ⟨100, 10⟩).update astray.node
        (·.publish { astray with zoomPower := -17 }.viewPose)) ()) := by
  have hrun : astray.fittedPower (stageOf ⟨100, 10⟩) = .ok (-17) ∧
      (astray.fitting .identity ⟨100, 10⟩).isDegenerate = false ∧
      (astray.fitting .identity ⟨100, 10⟩).fits 0 = false ∧
      (astray.fitting .identity ⟨100, 10⟩).overflows 0 = true := by
    decide +kernel
  obtain ⟨hpower, hdegenerate, hfits, hoverflows⟩ := hrun
  have hnode : (stageOf ⟨100, 10⟩).node? astray.buffer = some (.ofBuffer ⟨100, 10⟩) := rfl
  obtain ⟨hfitted, hfit⟩ := fit_finds hnode rfl hpower
  have hproper := Fitting.isDegenerate_eq_false_iff.mp hdegenerate
  have hheld : (stageOf ⟨100, 10⟩).Holds astray.node := ⟨_, rfl⟩
  exact ⟨hpower, hproper, hfitted.down hproper hfits hoverflows, hheld,
    (hfit astray.zoomPower).1 hheld⟩

/-- A stage with a buffer, from which the camera's node has been taken away. -/
def cameraless : Stage Float32 :=
  (((stageOf ⟨10, 10⟩).remove ⟨1, 0⟩).map Prod.snd).getD .empty

/-- Without its own node a camera finds and stores a power, but publishes nothing. -/
theorem fit_without_own_node :
    (cameraless.node? astray.buffer).map Node.buffer = some (some ⟨10, 10⟩) ∧
    astray.fittedPower cameraless = .ok 7 ∧ (astray.fit cameraless).camera.zoomPower = 7 ∧
    (astray.fit cameraless).result = .error (.failed (.cameraNodeGone ⟨1, 0⟩)) ∧
    (astray.fit cameraless).stage = cameraless := by
  decide +kernel

end Camera

end PanZoom
