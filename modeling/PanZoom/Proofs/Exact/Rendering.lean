import PanZoom.Proofs.Exact.Center
import PanZoom.Proofs.Exact.Counted

/-!
# Two ways to the screen

A renderer can invert the pose that the camera publishes and project from there, or take the product
of projection, pan and zoom that the camera offers. With any positive zoom the two are one:

* `Camera.viewProjection_rows`: the matrix of both ways, entry by entry;
* `Camera.ways_to_screen_agree`: where a point of the world is seen, and what is uploaded.
-/

namespace PanZoom.Camera

variable {K : Type} [Field K] [LinearOrder K] [IsStrictOrderedRing K] [PositiveReading K]
  {c : Camera K} {size : Size}

/-- The rows of the way to the device, if the projection is that of a viewport. -/
theorem viewProjection_rows (h : c.projection = projectionOf size) :
    c.viewProjection =
      ⟨⟨c.zoom / (size.width.toNat / 2), 0, 0, c.pan.x / (size.width.toNat / 2)⟩,
        ⟨0, c.zoom / (size.height.toNat / 2), 0, c.pan.y / (size.height.toNat / 2)⟩,
        ⟨0, 0, -1, 0⟩, ⟨0, 0, 0, 1⟩⟩ := by
  apply Transform.ext_apply
  intro p
  rw [viewProjection_projected h]
  show _ = Transform.apply _ p
  simp only [Transform.apply, Homogeneous.dot, Homogeneous.mk.injEq]
  refine ⟨?_, ?_, ?_, ?_⟩ <;> ring

/-- A point of the world is seen as far from the middle as its zoomed and panned place, counted in
halves of the viewport. -/
theorem viewProjection_point (h : c.projection = projectionOf size) (x y : K) :
    c.viewProjection * Homogeneous.point x y =
      .point ((c.zoom * x + c.pan.x) / (size.width.toNat / 2))
        ((c.zoom * y + c.pan.y) / (size.height.toNat / 2)) := by
  rw [viewProjection_projected h]
  simp only [Homogeneous.point, mul_one, one_div_mul_eq_div, neg_zero]

/-- **Both ways to the screen agree.** Whatever its pan, power, settings and projection, the pose of
a camera can be inverted, and projecting from there is the camera's own way to the device, which is
uploaded column after column. On a viewport with pixels that way leads from each point of the world
to its zoomed and panned place in halves of the viewport, and these are the sixteen numbers that are
uploaded. -/
theorem ways_to_screen_agree (c : Camera K) :
    (∃ unpose, c.viewPose.inverse? = some unpose ∧ c.viewProjection = c.projection * unpose) ∧
    c.uniform.columns.toList =
      Transform.places.flatMap (fun j => (c.viewProjection.column j).toList) ∧
    ∀ size : Size, size.isEmpty = false →
      (∀ x y : K, (c.resize size).viewProjection * Homogeneous.point x y =
        .point ((c.zoom * x + c.pan.x) / (size.width.toNat / 2))
          ((c.zoom * y + c.pan.y) / (size.height.toNat / 2))) ∧
      (c.resize size).uniform.columns.toList =
        [c.zoom / (size.width.toNat / 2), 0, 0, 0,
          0, c.zoom / (size.height.toNat / 2), 0, 0,
          0, 0, -1, 0,
          c.pan.x / (size.width.toNat / 2), c.pan.y / (size.height.toNat / 2), 0, 1] := by
  refine ⟨⟨_, c.viewPose_inverse?, Transform.compose_assoc _ _ _⟩, rfl, ?_⟩
  intro size hpixels
  have hprojects : (c.resize size).projection = projectionOf size := by simp [resize, hpixels]
  refine ⟨viewProjection_point hprojects, ?_⟩
  rw [uniform, viewProjection_rows hprojects]
  rfl

/-- The case of a camera over the rational numbers, panned aside, at twice the size and on a
viewport of four by two pixels. -/
theorem ways_to_screen_agree_aside :
    ∃ c : Camera ℚ, c.pan = ⟨3, -1⟩ ∧ c.zoom = 2 ∧
      (c.resize ⟨4, 2⟩).viewProjection * (Homogeneous.point 1 1 : Homogeneous ℚ) =
        .point (5 / 2) 1 ∧
      (c.resize ⟨4, 2⟩).uniform.columns.toList =
        [1, 0, 0, 0, 0, 2, 0, 0, 0, 0, -1, 0, 3 / 2, -1, 0, 1] := by
  let c : Camera ℚ :=
    { ofNodes ⟨1, 0⟩ ⟨0, 0⟩ .doubling with pan := ⟨3, -1⟩, zoomPower := 1 }
  have hzoom : c.zoom = 2 := by
    show (2 : ℚ) ^ ⌊(1 : ℚ)⌋ = 2
    norm_num
  have hwidth : ((⟨4, 2⟩ : Size).width.toNat : ℚ) = 4 := rfl
  have hheight : ((⟨4, 2⟩ : Size).height.toNat : ℚ) = 2 := rfl
  obtain ⟨hseen, huniform⟩ := (ways_to_screen_agree c).2.2 ⟨4, 2⟩ rfl
  have hpoint := hseen 1 1
  rw [hzoom, hwidth, hheight] at hpoint huniform
  refine ⟨c, rfl, hzoom, hpoint.trans ?_, huniform.trans ?_⟩
  · norm_num [c]
  · norm_num [c]

end PanZoom.Camera
