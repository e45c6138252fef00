import Mathlib.LinearAlgebra.Matrix.Block
import PanZoom.Proofs.Exact.Steps

/-!
# The centred point in exact arithmetic

Centring on a point and asking for the centred point undo each other. Both work on directions, so
the shift of the buffer's pose drops out, and what is left is the pose's effect on the directions of
the plane:

* `Transform.KeepsPlane`: the pose takes those directions to such directions, and if it can be
  inverted, so does its inverse;
* `Camera.center_eq`, `Camera.moveTo_eq`: the two functions on such a pose;
* `Camera.center_recovers`: whichever comes first, nothing is lost, unless the camera is the one of
  the buffer's own node: `Camera.center_moveTo_of_own_node` says what it sees then.
-/

namespace PanZoom

variable {K : Type} [Field K] [LinearOrder K] [IsStrictOrderedRing K] [PositiveReading K]

namespace Transform

variable {m n : Transform K}

/-- Directions of the plane stay in the plane and stay directions: the rows of depth and weight have
zeros in the columns of the plane. -/
def KeepsPlane (m : Transform K) : Prop :=
  m.z.x = 0 ∧ m.z.y = 0 ∧ m.w.x = 0 ∧ m.w.y = 0

/-- The components of the plane come before those of depth and weight. -/
def half : Fin 4 → ℕ
  | 0 | 1 => 0
  | 2 | 3 => 1

omit [LinearOrder K] [IsStrictOrderedRing K] [PositiveReading K] in
theorem keepsPlane_iff : m.KeepsPlane ↔ m.toMatrix.BlockTriangular half := by
  constructor
  · rintro ⟨hzx, hzy, hwx, hwy⟩ i j hij
    fin_cases i <;> fin_cases j <;> first | assumption | exact absurd hij (by decide)
  · intro h
    have hentry (i j : Fin 4) (hij : half j < half i) : m.entry i j = 0 := h hij
    exact ⟨hentry 2 0 (by decide), hentry 2 1 (by decide), hentry 3 0 (by decide),
      hentry 3 1 (by decide)⟩

/-- The inverse keeps the plane too: a block triangular matrix has a block triangular inverse. -/
theorem KeepsPlane.of_mul_eq_identity (h : m.KeepsPlane) (hn : n * m = .identity) :
    n.KeepsPlane := by
  have hleft : n.toMatrix * m.toMatrix = 1 := by rw [← toMatrix_mul, hn, toMatrix_identity]
  have hinverse : n.toMatrix = m.toMatrix⁻¹ := (Matrix.inv_eq_left_inv hleft).symm
  have := invertibleOfLeftInverse _ _ hleft
  rw [keepsPlane_iff, hinverse]
  exact Matrix.blockTriangular_inv_of_blockTriangular (keepsPlane_iff.mp h)

theorem KeepsPlane.apply_direction (h : m.KeepsPlane) (x y : K) :
    m * Homogeneous.direction x y =
      .direction (m * Homogeneous.direction x y).x (m * Homogeneous.direction x y).y := by
  obtain ⟨hzx, hzy, hwx, hwy⟩ := h
  have hz : (m * Homogeneous.direction x y).z = 0 := by
    show m.z.dot _ = 0
    simp [Homogeneous.dot, Homogeneous.direction, hzx, hzy]
  have hw : (m * Homogeneous.direction x y).w = 0 := by
    show m.w.dot _ = 0
    simp [Homogeneous.dot, Homogeneous.direction, hwx, hwy]
  calc m * Homogeneous.direction x y
      = ⟨(m * Homogeneous.direction x y).x, (m * Homogeneous.direction x y).y,
          (m * Homogeneous.direction x y).z, (m * Homogeneous.direction x y).w⟩ := rfl
    _ = _ := by rw [hz, hw]; rfl

theorem zooming_direction (factor x y : K) :
    zooming factor * Homogeneous.direction x y = .direction (factor * x) (factor * y) :=
  zooming_apply _ _

/-- The columns of a matrix are the images of the unit vectors. -/
theorem get_apply_unit (m : Transform K) (i j : Fin 4) :
    (m * (⟨0, 0, 0, 0⟩ : Homogeneous K).set j 1).get i = m.entry i j := by
  show (m.apply _).get i = _
  fin_cases i <;> fin_cases j <;>
    simp [apply, Homogeneous.dot, Homogeneous.set, Homogeneous.get, entry, row]

/-- Transforms that do the same to every vector are the same. -/
theorem ext_apply (h : ∀ v : Homogeneous K, m * v = n * v) : m = n := by
  apply toMatrix_injective
  ext i j
  rw [toMatrix_apply, toMatrix_apply, ← get_apply_unit, h, get_apply_unit]

theorem compose_assoc (a b c : Transform K) : a * b * c = a * (b * c) := by
  apply ext_apply
  intro v
  simp only [mul_apply]

theorem identity_compose (m : Transform K) : .identity * m = m := by
  apply ext_apply
  intro v
  rw [mul_apply, identity_apply]

/-- A shift and a scaling down after it are undone by scaling up and then shifting back. -/
theorem zooming_mul_shifting_inverse? {z : K} (hz : z ≠ 0) (x y : K) :
    (zooming (1 / z) * shifting (.point (-x) (-y))).inverse? =
      some (shifting (.point x y) * zooming z) := by
  rw [inverse?_eq_some_iff]
  apply ext_apply
  intro v
  simp only [mul_apply, zooming_apply, shifting_apply, identity_apply, Homogeneous.point, zero_mul,
    add_zero]
  refine congrArg₂ (Homogeneous.mk · · v.z v.w) ?_ ?_ <;> field_simp <;> ring

end Transform

namespace Camera

open Outcome Transform

variable {c : Camera K} {stage : Stage K} {pose unpose : Transform K} {image : ImageBuffer K}

/-- The pan that brings the point at `way` from the middle of the image, before its pose, to the
centre: the way that is left to go. -/
def panFor (c : Camera K) (pose : Transform K) (way : Point K) : Point K :=
  let posed := pose * Homogeneous.direction way.x way.y
  ⟨c.zoom * posed.x, c.zoom * posed.y⟩

/-- The way from the centred point to the middle of the image, before its pose. -/
def wayFor (c : Camera K) (unpose : Transform K) : Point K :=
  let unposed := unpose * Homogeneous.direction (1 / c.zoom * c.pan.x) (1 / c.zoom * c.pan.y)
  ⟨unposed.x, unposed.y⟩

theorem moveTo_eq (hgeometry : c.bufferGeometry stage = .ok (pose, image)) (target : Point K) :
    c.moveTo stage target =
      { c with pan := c.panFor pose ⟨image.center.x - target.x, image.center.y - target.y⟩ }.publish
        stage := by
  simp only [moveTo, hgeometry, unscale, mul_apply, zooming_apply]
  rfl

theorem center_eq (hgeometry : c.bufferGeometry stage = .ok (pose, image))
    (hinverse : pose.inverse? = some unpose) :
    c.center stage =
      .ok ⟨image.center.x - (c.wayFor unpose).x, image.center.y - (c.wayFor unpose).y⟩ := by
  simp only [center, hgeometry, hinverse, scale, mul_apply, zooming_direction]
  rfl

theorem unzoom_zoom (c : Camera K) (a : K) : 1 / c.zoom * (c.zoom * a) = a := by
  rw [← mul_assoc, one_div_mul_cancel c.zoom_pos.ne', one_mul]

theorem zoom_unzoom (c : Camera K) (a : K) : c.zoom * (1 / c.zoom * a) = a := by
  rw [← mul_assoc, mul_one_div_cancel c.zoom_pos.ne', one_mul]

/-- The way is found again from the pan. -/
theorem wayFor_panFor (hplane : pose.KeepsPlane) (hunpose : unpose * pose = .identity)
    (way : Point K) : { c with pan := c.panFor pose way }.wayFor unpose = way := by
  have hsame : unpose * Homogeneous.direction
      (1 / c.zoom * (c.panFor pose way).x) (1 / c.zoom * (c.panFor pose way).y) =
        .direction way.x way.y := by
    calc unpose * Homogeneous.direction
          (1 / c.zoom * (c.panFor pose way).x) (1 / c.zoom * (c.panFor pose way).y)
        = unpose * (pose * Homogeneous.direction way.x way.y) := by
          rw [hplane.apply_direction]
          simp only [panFor, unzoom_zoom]
      _ = .direction way.x way.y := by rw [← mul_apply, hunpose, identity_apply]
  exact congrArg (fun v : Homogeneous K => Point.mk v.x v.y) hsame

/-- The pan is found again from the way. -/
theorem panFor_wayFor (hplane : pose.KeepsPlane) (hunpose : unpose * pose = .identity) :
    c.panFor pose (c.wayFor unpose) = c.pan := by
  have hkept := hplane.of_mul_eq_identity hunpose
  have hsame : pose * Homogeneous.direction (c.wayFor unpose).x (c.wayFor unpose).y =
      .direction (1 / c.zoom * c.pan.x) (1 / c.zoom * c.pan.y) := by
    calc pose * Homogeneous.direction (c.wayFor unpose).x (c.wayFor unpose).y
        = pose * (unpose *
            Homogeneous.direction (1 / c.zoom * c.pan.x) (1 / c.zoom * c.pan.y)) := by
          rw [hkept.apply_direction]
          rfl
      _ = .direction (1 / c.zoom * c.pan.x) (1 / c.zoom * c.pan.y) := by
          rw [← mul_apply, mul_eq_identity_comm.mp hunpose, identity_apply]
  refine (congrArg (fun v : Homogeneous K => Point.mk (c.zoom * v.x) (c.zoom * v.y)) hsame).trans ?_
  simp only [Homogeneous.direction, zoom_unzoom]

/-! ## A camera that drives the buffer's node -/

/-- The published view is undone by zooming and then panning. -/
theorem viewPose_inverse? (c : Camera K) :
    c.viewPose.inverse? = some (shifting (.point c.pan.x c.pan.y) * c.unscale) :=
  zooming_mul_shifting_inverse? c.zoom_pos.ne' _ _

/-- Behind the published view the way is the pan itself. -/
theorem wayFor_viewPose (c : Camera K) :
    c.wayFor (shifting (.point c.pan.x c.pan.y) * c.unscale) = c.pan := by
  simp only [wayFor, unscale, mul_apply, shifting_apply, zooming_apply, Homogeneous.direction,
    mul_zero, add_zero, zoom_unzoom]

/-- A move of such a camera takes the image's pose away, and the centred point is then as far from
the middle of the image as the pan says. -/
theorem center_moveTo_of_own_node (hown : c.buffer = c.node)
    (hgeometry : c.bufferGeometry stage = .ok (pose, image)) (target : Point K) :
    let goal := c.panFor pose ⟨image.center.x - target.x, image.center.y - target.y⟩
    (c.moveTo stage target).result = .ok () ∧
      (c.moveTo stage target).camera.center (c.moveTo stage target).stage =
        .ok ⟨image.center.x - goal.x, image.center.y - goal.y⟩ := by
  intro goal
  obtain ⟨node, image', hnode, himage⟩ := bufferGeometry_eq_ok_iff.mp ⟨_, hgeometry⟩
  have hsame : image' = image := by
    simp only [bufferGeometry, hnode, himage, Except.ok.injEq, Prod.mk.injEq] at hgeometry
    exact hgeometry.2
  rw [hsame] at himage
  rw [hown] at hnode
  let moved : Camera K := { c with pan := goal }
  let after := stage.update c.node (·.publish moved.viewPose)
  have hmove : c.moveTo stage target = .done moved after () := by
    rw [moveTo_eq hgeometry]
    simp only [Camera.publish, hnode]
    rfl
  have hfound : after.node? moved.buffer = some (node.publish moved.viewPose) := by
    show after.node? c.buffer = _
    rw [hown, Stage.node?_update_self, hnode]
    rfl
  have hafter : moved.bufferGeometry after = .ok (moved.viewPose, image) := by
    simp only [bufferGeometry, hfound, Node.publish, himage]
  have hcenter := center_eq hafter moved.viewPose_inverse?
  rw [wayFor_viewPose] at hcenter
  rw [hmove]
  exact ⟨rfl, hcenter⟩

/-! ## Recovery -/

/-- Centring on a point and asking for the centred point undo each other. -/
structure RecoversCenter (c : Camera K) (stage : Stage K) : Prop where
  asked : ∀ target, (c.moveTo stage target).result = .ok () →
    (c.moveTo stage target).camera.center (c.moveTo stage target).stage = .ok target
  moved : ∃ p, c.center stage = .ok p ∧ (c.moveTo stage p).camera = c ∧
    (c.Published stage → (c.moveTo stage p).SameView (.done c stage ()))

theorem bufferGeometry_congr {α : Type} [Scalar α] {c d : Camera α} {stage after : Stage α}
    (hbuffer : d.buffer = c.buffer) (hnode : after.node? c.buffer = stage.node? c.buffer) :
    d.bufferGeometry after = c.bufferGeometry stage := by
  simp only [bufferGeometry, hbuffer, hnode]

/-- **The centred point is recovered.** If the camera drives another node than the buffer's, and the
buffer's pose can be inverted and keeps the plane, then after a successful move to a point, inside
the image or not, that point is at the centre; and a move to the point that is at the centre leaves
the camera as it was, and the poses too if its view was published. -/
theorem center_recovers (hgeometry : c.bufferGeometry stage = .ok (pose, image))
    (hdistinct : c.node ≠ c.buffer) (hplane : pose.KeepsPlane)
    (hunpose : unpose * pose = .identity) : c.RecoversCenter stage := by
  have hinverse : pose.inverse? = some unpose := inverse?_eq_some_iff.mpr hunpose
  constructor
  · intro target _
    have hmoved : (c.moveTo stage target).Confined c stage := (moveTo_moves target).confined
    have hafter : (c.moveTo stage target).camera.bufferGeometry (c.moveTo stage target).stage =
        .ok (pose, image) := by
      rw [← hgeometry]
      exact bufferGeometry_congr hmoved.buffer (hmoved.others _ hdistinct.symm)
    have hcamera := congrArg Outcome.camera (moveTo_eq hgeometry target)
    rw [publish_camera] at hcamera
    rw [center_eq hafter hinverse, hcamera, wayFor_panFor hplane hunpose]
    simp only [sub_sub_cancel]
  · have hmove : c.moveTo stage
        ⟨image.center.x - (c.wayFor unpose).x, image.center.y - (c.wayFor unpose).y⟩ =
          c.publish stage := by
      rw [moveTo_eq hgeometry]
      simp only [sub_sub_cancel]
      rw [panFor_wayFor hplane hunpose]
    refine ⟨_, center_eq hgeometry hinverse, ?_, ?_⟩
    · rw [hmove, publish_camera]
    · rintro ⟨node, hnode, hpose⟩
      rw [hmove]
      exact (publish_leaves ⟨node, hnode⟩).sameView (.done ⟨node, hnode, hpose⟩)

/-- The case of a camera over the real numbers, panned aside and zoomed in, and a sheared and
shifted image. -/
theorem center_recovers_sheared :
    ∃ (c : Camera ℝ) (stage : Stage ℝ), c.pan = ⟨3, -1⟩ ∧ c.zoomPower = 1 ∧
      c.bufferGeometry stage =
        .ok (⟨⟨1, 2, 0, 5⟩, ⟨0, 1, 0, -7⟩, ⟨0, 0, 1, 0⟩, ⟨0, 0, 0, 1⟩⟩, ⟨10, 20⟩) ∧
      c.RecoversCenter stage := by
  have hfactor : IsZoomFactor (2 : ℝ) := ⟨rfl, one_lt_two⟩
  have hstep : IsPanStep (1 : ℝ) := ⟨rfl, zero_lt_one⟩
  let sheared : Transform ℝ := ⟨⟨1, 2, 0, 5⟩, ⟨0, 1, 0, -7⟩, ⟨0, 0, 1, 0⟩, ⟨0, 0, 0, 1⟩⟩
  let unsheared : Transform ℝ := ⟨⟨1, -2, 0, -19⟩, ⟨0, 1, 0, 7⟩, ⟨0, 0, 1, 0⟩, ⟨0, 0, 0, 1⟩⟩
  let image : ImageBuffer ℝ := ⟨10, 20⟩
  let c : Camera ℝ :=
    ⟨⟨0, 0⟩, ⟨1, 0⟩, ⟨2, 1, .default, hfactor, hstep⟩, .identity, ⟨3, -1⟩, 1, ⟨0, 0⟩⟩
  let stage : Stage ℝ :=
    ⟨[⟨0, some ⟨cameraName, .ofPose .identity⟩⟩,
      ⟨0, some ⟨bufferName, { Node.ofBuffer image with pose := sheared }⟩⟩], []⟩
  have hplane : sheared.KeepsPlane := ⟨rfl, rfl, rfl, rfl⟩
  have hunshear : unsheared * sheared = .identity := by
    show compose unsheared sheared = _
    simp only [compose, combine, column, Homogeneous.dot, Homogeneous.get, identity, unsheared,
      sheared]
    norm_num
  have hdistinct : c.node ≠ c.buffer := by simp [c]
  have hgeometry : c.bufferGeometry stage = .ok (sheared, image) := rfl
  exact ⟨c, stage, rfl, rfl, rfl, center_recovers hgeometry hdistinct hplane hunshear⟩

/-- A camera that drives the buffer's node loses the centred point: it turns a turned image back. -/
theorem own_node_loses_center :
    ∃ (c : Camera ℝ) (stage : Stage ℝ) (pose unpose : Transform ℝ) (image : ImageBuffer ℝ),
      c.bufferGeometry stage = .ok (pose, image) ∧ pose.KeepsPlane ∧ unpose * pose = .identity ∧
        ¬c.RecoversCenter stage := by
  have hfactor : IsZoomFactor (2 : ℝ) := ⟨rfl, one_lt_two⟩
  have hstep : IsPanStep (1 : ℝ) := ⟨rfl, zero_lt_one⟩
  let turned : Transform ℝ := quarterTurns 1
  let image : ImageBuffer ℝ := ⟨10, 10⟩
  let c : Camera ℝ := ofNodes ⟨0, 0⟩ ⟨0, 0⟩ ⟨2, 1, .default, hfactor, hstep⟩
  let stage : Stage ℝ :=
    ⟨[⟨0, some ⟨bufferName, { Node.ofBuffer image with pose := turned }⟩⟩], []⟩
  have hgeometry : c.bufferGeometry stage = .ok (turned, image) := rfl
  have hplane : turned.KeepsPlane := ⟨rfl, rfl, rfl, rfl⟩
  have hunturn : Transform.rotation (-1) 0 * turned = .identity := by
    show compose (Transform.rotation (-1) 0) (Transform.rotation 1 0) = _
    simp [compose, combine, column, Homogeneous.dot, Homogeneous.get, identity, Transform.rotation]
  refine ⟨c, stage, turned, _, image, hgeometry, hplane, hunturn, ?_⟩
  -- Moving publishes the view in the place of the turn, so the point is looked for without it.
  intro hrecovers
  obtain ⟨hmoves, hcenter⟩ := center_moveTo_of_own_node rfl hgeometry ⟨2, 3⟩
  have hkept := hcenter.symm.trans (hrecovers.asked ⟨2, 3⟩ hmoves)
  have hzoom : c.zoom = 1 := ExactReading.power_zero hfactor.2
  have hmiddle : image.center = ⟨5, 5⟩ := by
    have htwo : (Scalar.two : ℝ) = 2 := one_add_one_eq_two
    simp only [ImageBuffer.center, image, htwo]
    norm_num
  have hposed : turned * Homogeneous.direction (5 - 2 : ℝ) (5 - 3) = ⟨-2, 3, 0, 0⟩ := by
    show (Transform.rotation 1 0).apply _ = _
    simp only [apply, Transform.rotation, Homogeneous.dot, Homogeneous.direction]
    norm_num
  simp only [panFor, hmiddle, hposed, hzoom, Except.ok.injEq, Point.mk.injEq] at hkept
  norm_num at hkept

end Camera

end PanZoom
