import PanZoom.Camera.Basic

namespace PanZoom.Camera

variable {α : Type} [Scalar α]

/-- Centres the view on a point of the buffer, which may lie outside it. -/
def moveTo (c : Camera α) (stage : Stage α) (target : Point α) : Outcome α Unit :=
  match c.bufferGeometry stage with
  | .error e => .stopped c stage (.failed e)
  | .ok (pose, buffer) =>
    let middle := buffer.center
    let goal := c.unscale * pose * Homogeneous.direction (middle.x - target.x) (middle.y - target.y)
    { c with pan := ⟨goal.x, goal.y⟩ }.publish stage

/-- The point of the buffer at the centre of the viewport. -/
def center (c : Camera α) (stage : Stage α) : Except CameraError (Point α) :=
  match c.bufferGeometry stage with
  | .error e => .error e
  | .ok (pose, buffer) =>
    match pose.inverse? with
    | none => .error .singularBufferPose
    | some unpose =>
      let offset := unpose * c.scale * Homogeneous.direction c.pan.x c.pan.y
      .ok ⟨buffer.center.x - offset.x, buffer.center.y - offset.y⟩

end PanZoom.Camera
