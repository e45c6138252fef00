import PanZoom.Proofs.Exact.Center
import PanZoom.Proofs.Viewer.Recentering

namespace PanZoom

variable {α : Type} [Scalar α]

namespace Camera

variable {c d : Camera α} {stage : Stage α} {pose : Transform α} {image : ImageBuffer α} {power : α}

/-- The pan that brings a point of the posed image to the centre. -/
def panTo (c : Camera α) (pose : Transform α) (image : ImageBuffer α) (target : Point α) :
    Point α :=
  let goal := c.unscale * pose *
    Homogeneous.direction (image.center.x - target.x) (image.center.y - target.y)
  ⟨goal.x, goal.y⟩

def centeredOn (c : Camera α) (pose : Transform α) (image : ImageBuffer α) (power : α)
    (target : Point α) : Camera α :=
  { c with pan := { c with zoomPower := power }.panTo pose image target, zoomPower := power }

theorem Seated.published_current (h : c.Seated stage image) :
    c.Current (stage.update c.node (·.publish c.viewPose)) image := by
  have hpublished := h.publish_current
  rw [h.publish] at hpublished
  exact hpublished (by rintro ⟨⟩)

theorem moveTo_of_bufferGeometry (hgeometry : c.bufferGeometry stage = .ok (pose, image))
    (target : Point α) :
    c.moveTo stage target = (c.centeredOn pose image c.zoomPower target).publish stage := by
  simp only [moveTo, hgeometry]
  rfl

/-- Neither the pan nor the power of before plays a part. -/
theorem Moved.centeredOn (h : c.Moved d) (target : Point α) :
    d.centeredOn pose image power target = c.centeredOn pose image power target := by
  rw [h]
  rfl

theorem Moved.fitting (h : c.Moved d) (pose : Transform α) (image : ImageBuffer α) :
    d.fitting pose image = c.fitting pose image := by
  rw [h]
  rfl

end Camera

namespace Viewer

open Camera

variable {v w u : Viewer α} {image : ImageBuffer α} {pose : Transform α} {power : α}
  {target : Point α}

/-- Fits the image, and brings a point of it to the centre. -/
def refitAbout (v : Viewer α) (target : Point α) : Viewer α × Except Stop Unit :=
  v.adopt ((v.camera.fit v.stage).andThen fun camera stage _ => camera.moveTo stage target)

/-- One viewer shows the posed image with the other's camera, but at the given power and with the
given point at the centre. -/
structure Shows (v w : Viewer α) (image : ImageBuffer α) (pose : Transform α) (power : α)
    (target : Point α) : Prop where
  current : w.Current image
  camera : w.camera = v.camera.centeredOn pose image power target
  posed : w.picture.bufferPose = some pose

theorem Shows.picture_eq (hw : v.Shows w image pose power target)
    (hu : v.Shows u image pose power target) : w.picture = u.picture :=
  hu.current.picture_congr hw.current (hw.camera.trans hu.camera.symm)
    (hw.posed.trans hu.posed.symm)

/-- With a power that fits, nothing can go wrong. -/
theorem Current.refitAbout (h : v.Current image) (hpose : v.picture.bufferPose = some pose)
    (hpower : (v.camera.fitting pose image).power? = some power) (target : Point α) :
    (v.refitAbout target).2 = .ok () ∧
      v.Shows (v.refitAbout target).1 image pose power target := by
  let fitted : Camera α := { v.camera with zoomPower := power }
  have hfitted : fitted.Seated v.stage image := h.toSeated.of_nodes rfl rfl
  let between := v.stage.update v.camera.node (·.publish fitted.viewPose)
  have hfit : v.camera.fit v.stage = .done fitted between () :=
    (fit_of_power?_eq_some (h.bufferGeometry hpose) hpower).trans hfitted.publish
  -- The fit publishes on the camera's node only, so the move finds the image as it was.
  have hgeometry : fitted.bufferGeometry between = .ok (pose, image) := by
    rw [← h.bufferGeometry hpose]
    exact bufferGeometry_congr rfl (v.stage.node?_update_of_ne _ h.distinct.symm)
  let centered := v.camera.centeredOn pose image power target
  have hcentered : centered.Seated between image :=
    hfitted.published_current.toSeated.of_nodes rfl rfl
  let after := between.update v.camera.node (·.publish centered.viewPose)
  let o : Outcome α Unit :=
    (v.camera.fit v.stage).andThen fun camera stage _ => camera.moveTo stage target
  have hconfined : o.Confined v.camera v.stage :=
    fit_moves.confined.andThen fun _ _ _ => (moveTo_moves target).confined
  have hdone : o = .done centered after () := by
    simp only [o, hfit]
    exact (moveTo_of_bufferGeometry hgeometry target).trans hcentered.publish
  refine ⟨congrArg Outcome.result hdone, ?_, congrArg Outcome.camera hdone, ?_⟩
  · show o.camera.Current o.stage image
    rw [hdone]
    exact hcentered.published_current
  · show (o.stage.node? o.camera.buffer).map Node.pose = some pose
    rw [hconfined.buffer, hconfined.others _ h.distinct.symm]
    exact hpose

/-- The viewer with its image turned on, before it is fitted. -/
def turn (v : Viewer α) (turns : ℤ) (pose : Transform α) : Viewer α :=
  { v with stage := v.stage.update v.camera.buffer (·.publish (.quarterTurns turns * pose)) }

theorem Current.turn (h : v.Current image) (turns : ℤ) (pose : Transform α) :
    (v.turn turns pose).Current image :=
  h.update_buffer (f := (·.publish (Transform.quarterTurns turns * pose))) fun _ => rfl

theorem Current.turn_bufferPose (h : v.Current image) (turns : ℤ) (pose : Transform α) :
    (v.turn turns pose).picture.bufferPose = some (.quarterTurns turns * pose) := by
  obtain ⟨node, hnode, -⟩ := h.shown
  show ((v.stage.update v.camera.buffer _).node? v.camera.buffer).map Node.pose = _
  rw [Stage.node?_update_self, hnode]
  rfl

/-- A rotation refits the turned image about the point that was at the centre. -/
theorem rotate_eq_refitAbout (turns : ℤ) (hpose : v.picture.bufferPose = some pose)
    (hcenter : v.camera.center v.stage = .ok target) :
    v.rotate turns = (v.turn turns pose).refitAbout target := by
  obtain ⟨node, hnode, rfl⟩ := Option.map_eq_some_iff.mp hpose
  exact rotate_of_center turns hcenter hnode

end Viewer

end PanZoom
