import PanZoom.Proofs.Exact.Turns

/-!
# A recentred viewer shows the whole image

The fit compares one diagonal of the posed image with the viewport. That bounds all four corners,
since a quarter turn keeps the axes or exchanges them:

* `Fitting.StopsShort`: the lowest power ends the search while the image is still too large.
  `Fitting.overflows_eq_false_of_power?` says that otherwise nothing overflows at the end;
* `Transform.quarterTurns_axes`, `Camera.two_abs_turned`: hence each corner is half as far out
  as the extent that was compared;
* `Camera.showsWhole_of_overflows_eq_false`: without a pan, what does not overflow is on the device;
* `Viewer.recentering_shows_whole_image`: for every reachable viewer.
-/

namespace PanZoom

variable {K : Type} [Field K] [LinearOrder K] [IsStrictOrderedRing K] [CountedReading K]

namespace Fitting

variable {f : Fitting K} {p : K}

/-- The search went down as far as the settings allow, and something overflows still. -/
def StopsShort (f : Fitting K) (power : K) : Prop :=
  f.overflows power = true ∧ power ≤ -f.limit

theorem overflows_eq_false_iff : f.overflows p = false ↔
    f.zoom p * f.extent.x ≤ f.viewport.width.toNat ∧
      f.zoom p * f.extent.y ≤ f.viewport.height.toNat := by
  simp only [overflows, Bool.or_eq_false_iff, decide_eq_false_iff_not]
  exact and_congr not_lt not_lt

theorem overflows_eq_false_of_fits (h : f.fits p = true) : f.overflows p = false := by
  simp only [fits, Bool.and_eq_true, decide_eq_true_eq] at h
  exact overflows_eq_false_iff.mpr ⟨le_of_lt h.1, le_of_lt h.2⟩

/-- Every power that a count of steps up gets to fits. -/
theorem fits_of_climb (hzero : f.fits 0 = true) (h : f.climb = some p) : f.fits p = true := by
  obtain ⟨n, rfl, -, hbefore⟩ := firstStop_eq_some h
  cases n with
  | zero => exact hzero
  | succ n =>
    rw [Function.iterate_succ_apply']
    exact (Bool.and_eq_true_iff.mp (hbefore n n.lt_succ_self)).2

/-- Where a search ends, nothing overflows, unless it stops short. -/
theorem overflows_eq_false_of_power? (h : f.power? = some p) (hproper : f.isDegenerate = false)
    (hshort : ¬f.StopsShort p) : f.overflows p = false := by
  rw [power?, hproper, if_neg Bool.false_ne_true] at h
  split at h
  · rename_i hzero
    exact overflows_eq_false_of_fits (fits_of_climb hzero h)
  · split at h
    · obtain ⟨n, -, hstop, -⟩ := firstStop_eq_some h
      rcases Bool.and_eq_false_iff.mp hstop with hlow | hnone
      · rw [decide_eq_false_iff_not] at hlow
        by_contra hover
        exact hshort ⟨Bool.eq_true_of_not_eq_false hover, not_lt.mp hlow⟩
      · exact hnone
    · rename_i hover
      cases h
      exact Bool.eq_false_of_not_eq_true hover

/-- A search that stops short ends at the lowest allowed power, or one step below unit zoom if no
other power is allowed. -/
theorem StopsShort.power_eq (h : f.power? = some p) (hproper : f.isDegenerate = false)
    (hshort : f.StopsShort p) : p = -f.limit ∨ f.limit = 0 ∧ p = -1 := by
  obtain ⟨hover, hlow⟩ := hshort
  rw [power?, hproper, if_neg Bool.false_ne_true] at h
  split at h
  · rename_i hzero
    rw [overflows_eq_false_of_fits (fits_of_climb hzero h)] at hover
    cases hover
  · split at h
    · obtain ⟨n, hp, -, hbefore⟩ := firstStop_eq_some h
      have hcount : p = -(n + 1 : ℕ) := hp.trans ((iterate_sub_one n).trans (by push_cast; rfl))
      have hend : f.limitSteps ≤ n + 1 := by
        rw [hcount, f.limit_eq, neg_le_neg_iff] at hlow
        exact_mod_cast hlow
      have hpassed : n = 0 ∨ n < f.limitSteps := by
        cases n with
        | zero => exact .inl rfl
        | succ n =>
          have habove : -f.limit < (· - (1 : K))^[n] (-1) :=
            of_decide_eq_true (Bool.and_eq_true_iff.mp (hbefore n n.lt_succ_self)).1
          rw [iterate_sub_one, f.limit_eq, neg_lt_neg_iff] at habove
          exact .inr (by exact_mod_cast habove)
      rw [hcount, f.limit_eq]
      obtain hlast | ⟨rfl, hzero⟩ : f.limitSteps = n + 1 ∨ n = 0 ∧ f.limitSteps = 0 := by omega
      · exact .inl (by rw [hlast])
      · exact .inr ⟨by rw [hzero, Nat.cast_zero], by simp⟩
    · rename_i hnone
      cases h
      exact absurd hover hnone

end Fitting

/-! ## The corners -/

namespace Transform

/-- A quarter turn keeps the axes or exchanges them. -/
theorem quarterTurns_axes (n : ℤ) :
    (∀ v : Homogeneous K,
      |((quarterTurns n : Transform K) * v).x| = |v.x| ∧
        |((quarterTurns n : Transform K) * v).y| = |v.y|) ∨
    ∀ v : Homogeneous K,
      |((quarterTurns n : Transform K) * v).x| = |v.y| ∧
        |((quarterTurns n : Transform K) * v).y| = |v.x| := by
  rcases quarterTurns_cases (K := K) n with h | h | h | h <;>
    simp [h, rotation_apply]

theorem quarterTurns_weight (n : ℤ) (v : Homogeneous K) :
    ((quarterTurns n : Transform K) * v).w = v.w := by
  rcases quarterTurns_cases (K := K) n with h | h | h | h <;>
    rw [h, rotation_apply]

end Transform

namespace ImageBuffer

/-- The corners of the image, about its middle. -/
def corners (image : ImageBuffer K) : List (Homogeneous K) :=
  let right := image.width / 2
  let top := image.height / 2
  [.point right top, .point (-right) top, .point (-right) (-top), .point right (-top)]

variable {image : ImageBuffer K} {corner : Homogeneous K}

theorem two_abs_of_mem_corners (h : corner ∈ image.corners) :
    2 * |corner.x| = |image.width| ∧ 2 * |corner.y| = |image.height| ∧ corner.w = 1 := by
  have hhalf (x : K) : 2 * |x / 2| = |x| := by
    rw [abs_div, abs_two]
    ring
  simp only [corners, List.mem_cons, List.not_mem_nil, or_false] at h
  rcases h with rfl | rfl | rfl | rfl <;> simp [Homogeneous.point, hhalf]

end ImageBuffer

namespace Camera

variable {c : Camera K} {image : ImageBuffer K} {corner : Homogeneous K} {n : ℤ}

/-- A corner of the turned image is half as far out as the extent that a fit compares. -/
theorem two_abs_turned (c : Camera K) (n : ℤ) (h : corner ∈ image.corners) :
    let turned : Homogeneous K := (Transform.quarterTurns n : Transform K) * corner
    2 * |turned.x| = (c.fitting (.quarterTurns n) image).extent.x ∧
      2 * |turned.y| = (c.fitting (.quarterTurns n) image).extent.y ∧ turned.w = 1 := by
  intro turned
  obtain ⟨hx, hy, hw⟩ := ImageBuffer.two_abs_of_mem_corners h
  let diagonal : Homogeneous K :=
    (Transform.quarterTurns n : Transform K) * Homogeneous.direction image.width image.height
  show 2 * |turned.x| = |diagonal.x| ∧ 2 * |turned.y| = |diagonal.y| ∧ _
  rcases Transform.quarterTurns_axes (K := K) n with haxes | haxes
  · obtain ⟨hwide, hhigh⟩ := haxes (.direction image.width image.height)
    rw [(haxes corner).1, (haxes corner).2, hwide, hhigh]
    exact ⟨hx, hy, (Transform.quarterTurns_weight n corner).trans hw⟩
  · obtain ⟨hwide, hhigh⟩ := haxes (.direction image.width image.height)
    rw [(haxes corner).1, (haxes corner).2, hwide, hhigh]
    exact ⟨hy, hx, (Transform.quarterTurns_weight n corner).trans hw⟩

/-- The point is on the part of the device that is seen. -/
structure OnDevice (p : Homogeneous K) : Prop where
  x : |p.x| ≤ 1
  y : |p.y| ≤ 1
  weight : p.w = 1

/-- All corners of the posed image are seen. -/
def ShowsWhole (c : Camera K) (pose : Transform K) (image : ImageBuffer K) : Prop :=
  ∀ corner ∈ image.corners, OnDevice (c.viewProjection * (pose * corner))

/-- Without a pan, the world is scaled by the zoom and by the halves of the viewport. -/
theorem viewProjection_centered (hprojects : c.projection = projectionOf c.viewport)
    (hpan : c.pan = ⟨0, 0⟩) (p : Homogeneous K) :
    c.viewProjection * p =
      ⟨1 / (c.viewport.width.toNat / 2) * (c.zoom * p.x),
        1 / (c.viewport.height.toNat / 2) * (c.zoom * p.y), -p.z, p.w⟩ := by
  rw [viewProjection_projected hprojects, hpan]
  simp only [zero_mul, add_zero]

omit [CountedReading K] in
/-- What is no wider than the viewport ends up between the edges of the device. -/
theorem abs_projected_le {pixels zoom x : K} (hpixels : 0 < pixels) (hzoom : 0 < zoom)
    (h : zoom * (2 * |x|) ≤ pixels) : |1 / (pixels / 2) * (zoom * x)| ≤ 1 := by
  have hhalf : 0 < 1 / (pixels / 2) := by positivity
  calc |1 / (pixels / 2) * (zoom * x)| = zoom * (2 * |x|) / pixels := by
        rw [abs_mul, abs_mul, abs_of_pos hhalf, abs_of_pos hzoom]
        field_simp
    _ ≤ 1 := (div_le_one hpixels).mpr h

theorem showsWhole_of_overflows_eq_false (hprojects : c.projection = projectionOf c.viewport)
    (hpixels : c.viewport.isEmpty = false) (hpan : c.pan = ⟨0, 0⟩)
    (hover : (c.fitting (.quarterTurns n) image).overflows c.zoomPower = false) :
    c.ShowsWhole (.quarterTurns n) image := by
  intro corner hcorner
  obtain ⟨hwide, hhigh⟩ := Fitting.overflows_eq_false_iff.mp hover
  obtain ⟨hx, hy, hw⟩ := c.two_abs_turned n hcorner
  rw [← hx] at hwide
  rw [← hy] at hhigh
  obtain ⟨hwidth, hheight⟩ := Size.counts_ne_zero (K := K) hpixels
  have hcount {n : ℕ} (h : (n : K) ≠ 0) : 0 < (n : K) :=
    lt_of_le_of_ne (Nat.cast_nonneg n) h.symm
  rw [viewProjection_centered hprojects hpan]
  have hzoom := c.zoom_pos
  exact ⟨abs_projected_le (hcount hwidth) hzoom hwide,
    abs_projected_le (hcount hheight) hzoom hhigh, hw⟩

end Camera

namespace Viewer

open Camera

variable {v : Viewer K} {image : ImageBuffer K}

/-- **A recentred viewer shows the whole image.** After any commands and links, turns included, a
recentring succeeds. If the posed image and the viewport are large enough to be fitted, and the fit
did not stop at the lowest power with the image still too large, then all four corners of the posed
image are on the device, whatever the signs of its width and height. -/
theorem recentering_shows_whole_image (h : Reachable image v) :
    ∃ pose, v.recenter.2 = .ok () ∧ v.recenter.1.picture.bufferPose = some pose ∧
      let c := v.recenter.1.camera
      ((c.fitting pose image).isDegenerate = false →
        ¬(c.fitting pose image).StopsShort c.zoomPower → c.ShowsWhole pose image) := by
  obtain ⟨n, hposed⟩ := h.exists_posed
  obtain ⟨power, hpower⟩ := (v.camera.fitting (.quarterTurns n) image).exists_power?
  obtain ⟨hok, -, hcamera, hpose⟩ := h.recenter hposed hpower
  refine ⟨.quarterTurns n, hok, hpose, ?_⟩
  intro c hproper hshort
  have hc : c = v.camera.recentered power := hcamera
  rw [hc] at hproper hshort ⊢
  have hpixels : v.camera.viewport.isEmpty = false := (Bool.or_eq_false_iff.mp hproper).2
  exact showsWhole_of_overflows_eq_false (h.projects hpixels) hpixels rfl
    (Fitting.overflows_eq_false_of_power? hpower hproper hshort)

/-- The case of an image of negative width over the rational numbers, turned on its side and zoomed
out by one step of two. -/
theorem recentering_shows_whole_image_turned :
    ∃ v : Viewer ℚ, Reachable ⟨-200, 100⟩ v ∧ v.recenter.2 = .ok () ∧
      v.recenter.1.picture.bufferPose = some (.quarterTurns 1) ∧
      v.recenter.1.camera.zoomPower = -1 ∧
      v.recenter.1.camera.ShowsWhole (.quarterTurns 1) ⟨-200, 100⟩ := by
  let image : ImageBuffer ℚ := ⟨-200, 100⟩
  obtain ⟨first, hfirst⟩ :=
    ((unfitted .doubling ⟨300, 100⟩).fitting .identity image).exists_power?
  obtain ⟨start, hstart, hcamera⟩ := create_of_power?_eq_some hfirst
  obtain ⟨hok, center, second, -, -, hturned⟩ :=
    (create_current hstart).rotate_shows (create_posed hstart) 1
  have hreached : Reachable image (start.rotate 1).1 :=
    .perform .rotateCounterclockwise (.create hstart) (ne_endless_of_ok hok)
  -- On its side the image is too high for the canvas at unit zoom, and no more at half of it.
  have hextent : ((Transform.quarterTurns 1 : Transform ℚ) *
      Homogeneous.direction (-200) (100 : ℚ) : Homogeneous ℚ).abs = ⟨100, 200, 0, 0⟩ := by
    decide +kernel
  have hfitting : (start.rotate 1).1.camera.fitting (.quarterTurns 1) image =
      ⟨⟨100, 200, 0, 0⟩, ⟨300, 100⟩, .doubling⟩ := by
    rw [hturned.camera, hcamera]
    exact congrArg (fun extent => (⟨extent, ⟨300, 100⟩, .doubling⟩ : Fitting ℚ)) hextent
  obtain ⟨hproper, hfits, hover, hhalf⟩ :
      (⟨⟨100, 200, 0, 0⟩, ⟨300, 100⟩, .doubling⟩ : Fitting ℚ).isDegenerate = false ∧
      (⟨⟨100, 200, 0, 0⟩, ⟨300, 100⟩, .doubling⟩ : Fitting ℚ).fits 0 = false ∧
      (⟨⟨100, 200, 0, 0⟩, ⟨300, 100⟩, .doubling⟩ : Fitting ℚ).overflows 0 = true ∧
      (⟨⟨100, 200, 0, 0⟩, ⟨300, 100⟩, .doubling⟩ : Fitting ℚ).overflows (-1) = false := by
    decide +kernel
  rw [← hfitting] at hproper hfits hover hhalf
  generalize (start.rotate 1).1 = v at *
  have hpower : (v.camera.fitting (.quarterTurns 1) image).power? = some (-1) := by
    rw [Fitting.power?, hproper, hfits, hover, if_neg Bool.false_ne_true,
      if_neg Bool.false_ne_true, if_pos rfl]
    exact firstStop_of_stop (Bool.and_eq_false_iff.mpr (.inr hhalf))
      ((Nat.zero_le _).trans_lt (Fitting.limitSteps_lt _))
  obtain ⟨-, -, hrecentered, hpose⟩ := hreached.recenter hturned.posed hpower
  obtain ⟨pose, hok, hpose', hshows⟩ := recentering_shows_whole_image hreached
  obtain rfl : pose = .quarterTurns 1 := Option.some.inj (hpose'.symm.trans hpose)
  have hzoom : v.recenter.1.camera.zoomPower = -1 := congrArg Camera.zoomPower hrecentered
  refine ⟨v, hreached, hok, hpose, hzoom, hshows ?_ ?_⟩
  · rw [hrecentered]
    exact hproper
  · rw [hrecentered]
    rintro ⟨hstill, -⟩
    exact Bool.false_ne_true (hhalf.symm.trans hstill)

end Viewer

end PanZoom
