import PanZoom.Camera.Control
import PanZoom.Proofs.Exact.Transform

/-!
# Anchored zoom in exact arithmetic

Seen from the screen, a world point `p` lies at `scale * (zoom * p + pan)`, where `scale` is the
diagonal of the projection. A step of zoom by the factor `1 / d` about the panned position `q` of
an anchor changes the pan by `-q * (1 / d - 1)`, and since `q` is `zoom * p`, the point stays:

* `Size.toDevice_eq`: where a pixel is on the device;
* `Camera.viewProjection_apply`, `Camera.anchorPosition_viewPose`: the two ways between world and
  screen. `Camera.viewProjection_eq_toDevice` says which point of the world is seen at a pixel;
* `Camera.fold_anchoredScale`: what folding the composite does to the pan;
* `Camera.zoomAt_exact`: the camera that a zoom leaves;
* `Camera.zoom_keeps_anchor`: the point under the anchor stays there.
-/

namespace PanZoom

namespace Size

section

variable {K : Type} [Field K] [LinearOrder K] [IsStrictOrderedRing K] {size : Size}

theorem counts_ne_zero (h : size.isEmpty = false) :
    (size.width.toNat : K) ≠ 0 ∧ (size.height.toNat : K) ≠ 0 := by
  have hcount {n : UInt32} (hn : n ≠ 0) : (n.toNat : K) ≠ 0 :=
    Nat.cast_ne_zero.mpr fun hzero => hn (UInt32.toNat_inj.mp hzero)
  have hpixels : size.width ≠ 0 ∧ size.height ≠ 0 := by
    simpa [isEmpty] using h
  exact ⟨hcount hpixels.1, hcount hpixels.2⟩

theorem scale_ne_zero (h : size.isEmpty = false) :
    1 / ((size.width.toNat : K) / 2) ≠ 0 ∧ 1 / ((size.height.toNat : K) / 2) ≠ 0 := by
  obtain ⟨hw, hh⟩ := counts_ne_zero (K := K) h
  simp [hw, hh]

end

variable {K : Type} [Field K] [LinearOrder K] [IsStrictOrderedRing K] [PositiveReading K]
  {size : Size}

/-- A pixel's place on the device is its way from the middle of the canvas, counted upward, in halves
of the canvas. -/
theorem toDevice_eq_scaled (size : Size) (pixel : Point K) :
    size.toDevice pixel =
      .point (1 / (size.width.toNat / 2) * (pixel.x - size.width.toNat / 2))
        (1 / (size.height.toNat / 2) * (size.height.toNat / 2 - pixel.y)) := by
  have htwo : (Scalar.two : K) = 2 := one_add_one_eq_two
  have hcount (n : UInt32) : (Scalar.ofCount n : K) = n.toNat := rfl
  simp only [Size.toDevice, htwo, hcount, one_div_div]
  refine congrArg₂ (@Homogeneous.point K _) ?_ ?_
  · ring
  · ring

/-- A canvas with pixels reaches from `-1` to `1`, and `y` counts upward on the device. -/
theorem toDevice_eq (hsize : size.isEmpty = false) (pixel : Point K) :
    size.toDevice pixel =
      .point (2 * pixel.x / size.width.toNat - 1) (1 - 2 * pixel.y / size.height.toNat) := by
  obtain ⟨hw, hh⟩ := counts_ne_zero (K := K) hsize
  rw [toDevice_eq_scaled]
  refine congrArg₂ (@Homogeneous.point K _) ?_ ?_
  · field_simp
  · field_simp

end Size

namespace Camera

open Transform

section Projection

variable {α : Type} [Scalar α]

/-- The projection is that of a viewport with pixels, or the one before any viewport was seen. -/
def IsProjected (c : Camera α) : Prop :=
  c.projection = .identity ∨ ∃ size : Size, size.isEmpty = false ∧ c.projection = projectionOf size

end Projection

section Positive

variable {K : Type} [Field K] [LinearOrder K] [IsStrictOrderedRing K] [PositiveReading K]
variable {c : Camera K} {size : Size} {s : Homogeneous K}

theorem projectionOf_eq_scaling (size : Size) :
    (projectionOf size : Transform K) =
      .scaling ⟨1 / (size.width.toNat / 2), 1 / (size.height.toNat / 2), -1, 1⟩ := by
  have htwo : (Scalar.two : K) = 2 := one_add_one_eq_two
  have hdepth : (1 : K) - -1 = 2 := by ring
  have hcount (n : UInt32) : (Scalar.ofCount n : K) = n.toNat := rfl
  simp only [projectionOf, Transform.orthographic, Transform.scaling, htwo, hdepth, hcount,
    Transform.mk.injEq, Homogeneous.mk.injEq, true_and, and_true]
  constructor
  · norm_num
  · norm_num

/-- The projection of a camera scales each axis by a number other than zero. -/
theorem IsProjected.exists_scaling (h : c.IsProjected) :
    ∃ s : Homogeneous K, s.x ≠ 0 ∧ s.y ≠ 0 ∧ s.z ≠ 0 ∧ c.projection = .scaling s := by
  rcases h with h | ⟨size, hsize, h⟩
  · exact ⟨⟨1, 1, 1, 1⟩, one_ne_zero, one_ne_zero, one_ne_zero, h⟩
  · obtain ⟨hx, hy⟩ := Size.scale_ne_zero (K := K) hsize
    exact ⟨_, hx, hy, neg_ne_zero.mpr one_ne_zero, h.trans (projectionOf_eq_scaling size)⟩

theorem zoom_pos (c : Camera K) : 0 < c.zoom :=
  PositiveReading.power_pos _ c.settings.isZoomFactor.2

/-! ## Between world and screen -/

theorem viewProjection_apply (h : c.projection = .scaling s) (p : Homogeneous K) :
    c.viewProjection * p =
      ⟨s.x * (c.zoom * p.x + c.pan.x * p.w), s.y * (c.zoom * p.y + c.pan.y * p.w),
        s.z * p.z, p.w⟩ := by
  simp only [viewProjection, unscale, h, mul_apply, zooming_apply,
    shifting_apply, scaling_apply, Homogeneous.point, zero_mul, add_zero]

/-- With the projection of a viewport, the world is scaled by the zoom, panned, and scaled by the
halves of the viewport. -/
theorem viewProjection_projected (h : c.projection = projectionOf size) (p : Homogeneous K) :
    c.viewProjection * p =
      ⟨1 / (size.width.toNat / 2) * (c.zoom * p.x + c.pan.x * p.w),
        1 / (size.height.toNat / 2) * (c.zoom * p.y + c.pan.y * p.w), -p.z, p.w⟩ := by
  rw [viewProjection_apply (h.trans (projectionOf_eq_scaling size)), neg_one_mul]

/-- Exactly one point of the world is seen at an anchor. -/
theorem viewProjection_eq_point (hx : s.x ≠ 0) (hy : s.y ≠ 0) (hz : s.z ≠ 0)
    (h : c.projection = .scaling s) (p : Homogeneous K) (ax ay : K) :
    c.viewProjection * p = .point ax ay ↔
      p = .point ((ax / s.x - c.pan.x) / c.zoom) ((ay / s.y - c.pan.y) / c.zoom) := by
  have hzoom := c.zoom_pos.ne'
  obtain ⟨x, y, z, w⟩ := p
  rw [viewProjection_apply h]
  simp only [Homogeneous.point, Homogeneous.mk.injEq]
  constructor
  · rintro ⟨hpx, hpy, hpz, rfl⟩
    refine ⟨?_, ?_, ?_, rfl⟩
    · rw [← hpx]; field_simp; ring
    · rw [← hpy]; field_simp; ring
    · exact (mul_eq_zero.mp hpz).resolve_left hz
  · rintro ⟨rfl, rfl, rfl, rfl⟩
    refine ⟨?_, ?_, mul_zero _, rfl⟩
    · field_simp; ring
    · field_simp; ring

/-- The projection of a canvas leads from the way to a pixel to its place on the device. -/
theorem projectionOf_apply_pixel (size : Size) (pixel : Point K) :
    (projectionOf size : Transform K) *
        Homogeneous.point (pixel.x - size.width.toNat / 2) (size.height.toNat / 2 - pixel.y) =
      size.toDevice pixel := by
  rw [projectionOf_eq_scaling, scaling_apply, Size.toDevice_eq_scaled]
  simp only [Homogeneous.point, mul_zero]

/-- The one point of the world that is seen at a pixel. -/
theorem viewProjection_eq_toDevice (hsize : size.isEmpty = false)
    (h : c.projection = projectionOf size) (p : Homogeneous K) (pixel : Point K) :
    c.viewProjection * p = size.toDevice pixel ↔
      p = .point ((pixel.x - size.width.toNat / 2 - c.pan.x) / c.zoom)
        ((size.height.toNat / 2 - pixel.y - c.pan.y) / c.zoom) := by
  obtain ⟨hx, hy⟩ := Size.scale_ne_zero (K := K) hsize
  have hz : (-1 : K) ≠ 0 := neg_ne_zero.mpr one_ne_zero
  rw [Size.toDevice_eq_scaled,
    viewProjection_eq_point hx hy hz (h.trans (projectionOf_eq_scaling size))]
  simp only [mul_div_cancel_left₀ _ hx, mul_div_cancel_left₀ _ hy]

/-- The published view takes the unprojected anchor to its place beside the pan. -/
theorem anchorPosition_viewPose (c : Camera K) (n : Transform K) (a : Homogeneous K) :
    c.anchorPosition c.viewPose n a =
      ⟨(n * a).x - c.pan.x * (n * a).w, (n * a).y - c.pan.y * (n * a).w, (n * a).z, (n * a).w⟩ := by
  have hzoom := c.zoom_pos.ne'
  simp only [anchorPosition, viewPose, unscale, scale, mul_apply, zooming_apply, shifting_apply,
    Homogeneous.point, zero_mul, add_zero, Homogeneous.mk.injEq, and_true]
  constructor <;> field_simp <;> ring

/-- The anchor is found at the panned position `zoom * p` of the point `p` seen there. -/
theorem anchorPosition_eq (r a : Homogeneous K) :
    c.anchorPosition c.viewPose (.scaling r) a =
      ⟨r.x * a.x - c.pan.x * a.w, r.y * a.y - c.pan.y * a.w, r.z * a.z, a.w⟩ := by
  rw [anchorPosition_viewPose, scaling_apply]

/-- A zoom about a position scales the way from there. -/
theorem anchoredScale_apply (c : Camera K) (q : Homogeneous K) (steps : K) (v : Homogeneous K) :
    c.anchoredScale q steps * v =
      let d := Scalar.pow c.settings.zoomFactor (-steps)
      ⟨1 / c.zoom * (d * (v.x - q.x * v.w) + q.x * v.w),
        1 / c.zoom * (d * (v.y - q.y * v.w) + q.y * v.w), v.z, v.w⟩ := by
  have hneg : -q = ⟨-q.x, -q.y, -q.z, -q.w⟩ := rfl
  simp only [anchoredScale, scale, mul_apply, zooming_apply, shifting_apply, hneg,
    Homogeneous.mk.injEq, and_true]
  refine ⟨?_, ?_, ?_⟩ <;> ring

omit [LinearOrder K] [IsStrictOrderedRing K] [PositiveReading K] in
/-- The shift of a scaling about `q`, in units of its scale. -/
theorem shift_div_scale {z d : K} (q : K) (hz : z ≠ 0) (hd : d ≠ 0) :
    1 / z * (d * (0 - q * 1) + q * 1) / (1 / z * (d * (1 - q * 0) + q * 0)) = q * (1 / d - 1) := by
  simp only [mul_one, mul_zero, sub_zero, add_zero, zero_sub]
  field_simp
  ring

omit [LinearOrder K] [IsStrictOrderedRing K] [PositiveReading K] in
/-- A place on an axis of the screen shows the same number before and after the pan has followed the
zoom. -/
theorem rescaled_pan {z d : K} (place pan : K) (hz : z ≠ 0) (hd : d ≠ 0) :
    (place - (pan - (place - pan) * (1 / d - 1))) / (z / d) = (place - pan) / z := by
  field_simp
  ring

/-- Folding a zoom about a position changes the pan by a multiple of the position. -/
theorem fold_anchoredScale (c : Camera K) (q : Homogeneous K) (steps target : K) :
    c.fold (c.anchoredScale q steps) target =
      let d := Scalar.pow c.settings.zoomFactor (-steps)
      { c with
        pan := ⟨c.pan.x - q.x * (1 / d - 1), c.pan.y - q.y * (1 / d - 1)⟩
        zoomPower := target } := by
  have hz : c.zoom ≠ 0 := c.zoom_pos.ne'
  have hd : Scalar.pow c.settings.zoomFactor (-steps) ≠ 0 :=
    (PositiveReading.power_pos _ c.settings.isZoomFactor.2).ne'
  have hfirst := (apply_first _).symm.trans (c.anchoredScale_apply q steps ⟨1, 0, 0, 0⟩)
  have hsecond := (apply_second _).symm.trans (c.anchoredScale_apply q steps ⟨0, 1, 0, 0⟩)
  have horigin := (apply_origin _).symm.trans (c.anchoredScale_apply q steps ⟨0, 0, 0, 1⟩)
  simp only [column, Homogeneous.get, Homogeneous.mk.injEq] at hfirst hsecond horigin
  simp only [fold, hfirst.1, hsecond.2.1, horigin.1, horigin.2.1]
  congr 2
  · exact congrArg (c.pan.x - ·) (shift_div_scale q.x hz hd)
  · exact congrArg (c.pan.y - ·) (shift_div_scale q.y hz hd)

end Positive

section Exact

variable {K : Type} [Field K] [LinearOrder K] [IsStrictOrderedRing K] [ExactReading K]
variable {c : Camera K} {stage : Stage K} {s : Homogeneous K}

/-- The zoom at another power differs from the present one by the power of the difference. -/
theorem power_eq_zoom_div (c : Camera K) (target : K) :
    Scalar.pow c.settings.zoomFactor target =
      c.zoom / Scalar.pow c.settings.zoomFactor (-(target - c.zoomPower)) := by
  have hbase : 1 < c.settings.zoomFactor := c.settings.isZoomFactor.2
  have hsteps : Scalar.pow c.settings.zoomFactor (-(target - c.zoomPower)) ≠ 0 :=
    (PositiveReading.power_pos _ hbase).ne'
  rw [eq_div_iff hsteps]
  refine (ExactReading.power_add _ _ hbase).symm.trans ?_
  have hpower : target + -(target - c.zoomPower) = c.zoomPower := by ring
  rw [hpower]
  rfl

/-- The camera that a zoom about an anchor leaves. A zoom that the bounds reduce to nothing is the
case of no steps. -/
theorem zoomAt_exact {node : Node K} (hnode : stage.node? c.node = some node)
    (hpose : node.pose = c.viewPose) (hx : s.x ≠ 0) (hy : s.y ≠ 0) (hz : s.z ≠ 0)
    (hs : c.projection = .scaling s) (a : Homogeneous K) (delta : K) :
    let limit := c.settings.maxPower
    let target := max (-limit) (min limit (c.zoomPower + delta))
    let q := c.anchorPosition c.viewPose (.scaling ⟨1 / s.x, 1 / s.y, 1 / s.z, 1⟩) a
    (c.zoomAt stage a delta).result = .ok () ∧
      (c.zoomAt stage a delta).camera =
        c.fold (c.anchoredScale q (target - c.zoomPower)) target := by
  intro limit target q
  have hlimit : 0 ≤ limit := ExactReading.powerLimit_nonneg c.settings.isZoomFactor.2
  have htarget : c.targetPower? delta = some target :=
    Scalar.clamp?_of_le ((neg_nonpos.mpr hlimit).trans hlimit) _
  have hinverse : c.projection.inverse? = some (.scaling ⟨1 / s.x, 1 / s.y, 1 / s.z, 1⟩) := by
    rw [hs, inverse?_scaling hx hy hz]
  rw [zoomAt, if_pos (Scalar.isFinite_exact delta), htarget]
  dsimp only
  split
  · rename_i hagrees
    have hsteps : target - c.zoomPower = 0 := of_decide_eq_true hagrees
    have hone : Scalar.pow c.settings.zoomFactor (-(target - c.zoomPower)) = 1 := by
      rw [hsteps, neg_zero]
      exact ExactReading.power_zero c.settings.isZoomFactor.2
    refine ⟨rfl, ?_⟩
    rw [fold_anchoredScale]
    simp only [hone, div_one, sub_self, mul_zero, sub_zero]
    rw [sub_eq_zero.mp hsteps]
    rfl
  · have hfolded : stage.node? (c.fold (c.anchoredScale q (target - c.zoomPower)) target).node =
        some node := hnode
    rw [hnode, hinverse]
    dsimp only
    rw [hpose, publish, hfolded]
    exact ⟨rfl, rfl⟩

/-! ## The anchor -/

/-- What an operation makes of a camera's view if it zooms by `delta` about the anchor `a`: it
succeeds, moves the zoom power within its bounds, and the one world point that was seen at the
anchor is still seen there. -/
structure ZoomsAbout (c : Camera K) (a : Homogeneous K) (delta : K) (o : Outcome K Unit) :
    Prop where
  succeeds : o.result = .ok ()
  power_eq : o.camera.zoomPower =
    max (-c.settings.maxPower) (min c.settings.maxPower (c.zoomPower + delta))
  seen : ∃! p : Homogeneous K, c.viewProjection * p = a
  kept : ∀ p : Homogeneous K, c.viewProjection * p = a → o.camera.viewProjection * p = a

theorem zoomAt_zoomsAbout {node : Node K} (hnode : stage.node? c.node = some node)
    (hpose : node.pose = c.viewPose) (hprojected : c.IsProjected) (ax ay delta : K) :
    c.ZoomsAbout (.point ax ay) delta (c.zoomAt stage (.point ax ay) delta) := by
  obtain ⟨s, hx, hy, hz, hs⟩ := hprojected.exists_scaling
  obtain ⟨hresult, hcamera⟩ := zoomAt_exact hnode hpose hx hy hz hs (.point ax ay) delta
  rw [anchorPosition_eq, fold_anchoredScale] at hcamera
  generalize hafter : (c.zoomAt stage (.point ax ay) delta).camera = after at hcamera
  have hseen := viewProjection_eq_point hx hy hz hs
  refine ⟨hresult, ?_, ⟨_, (hseen _ ax ay).mpr rfl, fun p => (hseen p ax ay).mp⟩, fun p hp => ?_⟩
  · rw [hafter, hcamera]
  · have hprojection : after.projection = .scaling s := by
      rw [hcamera]
      exact hs
    rw [hafter, viewProjection_eq_point hx hy hz hprojection, (hseen p ax ay).mp hp]
    -- The zoom is divided by the power `d` of the steps back, and the pan makes up for it.
    generalize htarget :
      max (-c.settings.maxPower) (min c.settings.maxPower (c.zoomPower + delta)) = target at hcamera
    generalize hpower : Scalar.pow c.settings.zoomFactor (-(target - c.zoomPower)) = d at hcamera
    have hd : 0 < d := hpower ▸ PositiveReading.power_pos _ c.settings.isZoomFactor.2
    have hzoom : after.zoom = c.zoom / d := by
      rw [zoom, hcamera, ← hpower]
      exact c.power_eq_zoom_div target
    have hpanx : after.pan.x = c.pan.x - (ax / s.x - c.pan.x) * (1 / d - 1) := by
      simp only [hcamera, Homogeneous.point, mul_one, one_div_mul_eq_div]
    have hpany : after.pan.y = c.pan.y - (ay / s.y - c.pan.y) * (1 / d - 1) := by
      simp only [hcamera, Homogeneous.point, mul_one, one_div_mul_eq_div]
    rw [hzoom, hpanx, hpany, rescaled_pan _ _ c.zoom_pos.ne' hd.ne',
      rescaled_pan _ _ c.zoom_pos.ne' hd.ne']

/-- **Anchored zoom keeps the anchor.** If the camera's view is published and its projection is that
of a viewport with pixels, a zoom by any number of steps about any point of the device succeeds and
leaves in place the world point seen there; so does the wheel, about the place of the mouse on a
device that the canvas fills from `-1` to `1`. -/
theorem zoom_keeps_anchor {node : Node K} (hnode : stage.node? c.node = some node)
    (hpose : node.pose = c.viewPose) (hprojected : c.IsProjected) (delta : K) :
    (∀ ax ay : K, c.ZoomsAbout (.point ax ay) delta (c.zoomAt stage (.point ax ay) delta)) ∧
      ∀ canvas : Canvas K, canvas.size.isEmpty = false →
        canvas.size.toDevice canvas.mouse =
            .point (2 * canvas.mouse.x / canvas.size.width.toNat - 1)
              (1 - 2 * canvas.mouse.y / canvas.size.height.toNat) ∧
          c.ZoomsAbout (canvas.size.toDevice canvas.mouse) delta (c.scroll stage delta canvas) := by
  refine ⟨fun ax ay => zoomAt_zoomsAbout hnode hpose hprojected ax ay delta, fun canvas h => ?_⟩
  refine ⟨Size.toDevice_eq h canvas.mouse, ?_⟩
  rw [scroll, h]
  exact zoomAt_zoomsAbout hnode hpose hprojected _ _ delta

/-- The case of a camera over the real numbers, panned aside and zoomed in, and an anchor away from
the centre. -/
theorem zoom_keeps_anchor_aside :
    ∃ (c : Camera ℝ) (stage : Stage ℝ), c.pan = ⟨3, -1⟩ ∧ c.zoomPower = 1 ∧
      c.projection = projectionOf ⟨4, 2⟩ ∧
      c.ZoomsAbout (.point (1 / 2) (1 / 4)) 3 (c.zoomAt stage (.point (1 / 2) (1 / 4)) 3) := by
  have hfactor : IsZoomFactor (2 : ℝ) := ⟨rfl, one_lt_two⟩
  have hstep : IsPanStep (1 : ℝ) := ⟨rfl, zero_lt_one⟩
  let c : Camera ℝ :=
    ⟨⟨0, 0⟩, ⟨1, 0⟩, ⟨2, 1, .default, hfactor, hstep⟩, projectionOf ⟨4, 2⟩, ⟨3, -1⟩, 1, ⟨4, 2⟩⟩
  let stage : Stage ℝ := ⟨[⟨0, some ⟨cameraName, .ofPose c.viewPose⟩⟩], []⟩
  have hprojected : c.IsProjected := .inr ⟨⟨4, 2⟩, rfl, rfl⟩
  have hnode : stage.node? c.node = some (.ofPose c.viewPose) := rfl
  exact ⟨c, stage, rfl, rfl, rfl, (zoom_keeps_anchor hnode rfl hprojected 3).1 _ _⟩

end Exact

end Camera

end PanZoom
