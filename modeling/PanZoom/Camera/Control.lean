import PanZoom.Camera.Fit
import PanZoom.Camera.Zoom
import PanZoom.Input.Canvas
import PanZoom.Input.Keyboard

namespace PanZoom.Camera

variable {α : Type} [Scalar α]

/-- The wheel zooms about the mouse. On an empty canvas it does nothing. -/
def scroll (c : Camera α) (stage : Stage α) (delta : α) (canvas : Canvas α) : Outcome α Unit :=
  if canvas.size.isEmpty then .done c stage ()
  else c.zoomAt stage (canvas.size.toDevice canvas.mouse) delta

/-- A key press with the modifier held zooms about the centre or recentres, by the first of the
bound keys that is held. With only an arrow held it is consumed and nothing happens. -/
def keyPressed (c : Camera α) (stage : Stage α) (keyboard : Keyboard) : Outcome α Response :=
  let bindings := c.settings.bindings
  if keyboard.isModified bindings.modifier then
    if keyboard.isHeld bindings.zoomIn then
      (c.zoomAt stage (.point 0 0) 1).answering .consumed
    else if keyboard.isHeld bindings.zoomOut then
      (c.zoomAt stage (.point 0 0) (-1)).answering .consumed
    else if keyboard.isHeld bindings.recenter then
      (c.recenter stage).answering .consumed
    else if Key.arrows.any keyboard.isHeld then .done c stage .consumed
    else .done c stage .ignored
  else .done c stage .ignored

/-- The step of a pair of opposite arrows; the first wins if both are held. -/
def arrowStep? (keyboard : Keyboard) (back forth : Key) (step : α) : Option α :=
  if keyboard.isHeld back then some (-step)
  else if keyboard.isHeld forth then some step
  else none

/-- One frame of panning: a step for each axis with a held arrow, if the modifier is held. The
shift of the scale is taken along with the step. -/
def tick (c : Camera α) (stage : Stage α) (keyboard : Keyboard) : Outcome α Response :=
  if keyboard.isModified c.settings.bindings.modifier then
    let vertical := arrowStep? keyboard .up .down c.settings.panStep
    let horizontal := arrowStep? keyboard .left .right c.settings.panStep
    if vertical.isNone && horizontal.isNone then .done c stage .ignored
    else
      let residual := c.scale.shift
      let pan : Point α :=
        ⟨c.pan.x - (horizontal.getD 0 + residual.x), c.pan.y - (vertical.getD 0 + residual.y)⟩
      ({ c with pan }.publish stage).answering .consumed
  else .done c stage .ignored

def drag (c : Camera α) (stage : Stage α) (way : Point α) : Outcome α Unit :=
  { c with pan := ⟨c.pan.x + way.x, c.pan.y + way.y⟩ }.publish stage

/-- Takes over everything but the nodes from another camera. -/
def syncFrom (c : Camera α) (other : Camera α) (stage : Stage α) : Outcome α Unit :=
  { other with node := c.node, buffer := c.buffer }.publish stage

end PanZoom.Camera
