import PanZoom.Camera.Basic

/-!
# Anchored zoom

Zooming keeps one point of the screen in place. The anchor is mapped back through the projection
and the published pose into panned space; a scaling about that anchor is composed with the current
scale; the shift of the composite goes into the pan, and the zoom power moves so that the
rebuilt scale is that of the composite.
-/

namespace PanZoom.Camera

variable {α : Type} [Scalar α]

/-- The zoom power after `delta` more steps, held within the bounds of the settings. -/
def targetPower? (c : Camera α) (delta : α) : Option α :=
  Scalar.clamp? (-c.settings.maxPower) c.settings.maxPower (c.zoomPower + delta)

def anchorPosition (c : Camera α) (pose unproject : Transform α) (anchor : Homogeneous α) :
    Homogeneous α :=
  c.unscale * (pose * unproject) * anchor

/-- The current scale after `steps` more steps of zoom about a position. -/
def anchoredScale (c : Camera α) (position : Homogeneous α) (steps : α) : Transform α :=
  c.scale * Transform.shifting position
    * Transform.zooming (Scalar.pow c.settings.zoomFactor (-steps))
    * Transform.shifting (-position)

/-- The camera whose scale and pan together are a composite scale and shift. -/
def fold (c : Camera α) (composite : Transform α) (power : α) : Camera α :=
  { c with
    pan := ⟨c.pan.x - composite.x.w / composite.x.x, c.pan.y - composite.y.w / composite.y.y⟩
    zoomPower := power }

/-- Zooms by `delta` steps, or as far as the bounds allow, about a point of the device. A step that
is not finite, or that the bounds reduce to nothing, is ignored. -/
def zoomAt (c : Camera α) (stage : Stage α) (anchor : Homogeneous α) (delta : α) :
    Outcome α Unit :=
  if Scalar.isFinite delta then
    match c.targetPower? delta with
    | none => .stopped c stage .crossedLimits
    | some target =>
      let steps := target - c.zoomPower
      if Scalar.agrees steps 0 then .done c stage ()
      else
        match stage.node? c.node with
        | none => .stopped c stage (.failed (.cameraNodeGone c.node))
        | some node =>
          match c.projection.inverse? with
          | none => .stopped c stage (.failed .singularProjection)
          | some unproject =>
            let position := c.anchorPosition node.pose unproject anchor
            (c.fold (c.anchoredScale position steps) target).publish stage
  else .done c stage ()

end PanZoom.Camera
