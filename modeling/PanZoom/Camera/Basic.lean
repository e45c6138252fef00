import PanZoom.Camera.Settings
import PanZoom.Geometry.Inverse
import PanZoom.Geometry.Uniform
import PanZoom.Input.Event
import PanZoom.Scene.Stage

/-!
# The camera

A camera drives one node of the stage and looks at another, the buffer's. Its state is a pan, which
is the offset of the buffer's origin from the centre of the viewport, and a zoom, which is kept as a
power of the zoom factor. The camera publishes its view as the pose of its node, and a renderer
inverts that pose:

* `Camera.viewPose`: what is published;
* `Camera.viewProjection`: from world coordinates to the normalized device, without an inversion;
* `Camera.publish`: the only step by which a camera changes the stage;
* `Outcome`: what an operation leaves behind, whether it succeeds or stops on the way.
-/

namespace PanZoom

inductive CameraError where
  | cameraNodeGone (id : NodeId)
  | bufferNodeGone (id : NodeId)
  | noBuffer (id : NodeId)
  | singularProjection
  | singularBufferPose
  | stage (error : StageError)
  deriving DecidableEq, Repr

def CameraError.message : CameraError → String
  | cameraNodeGone id => "Camera node " ++ id.text ++ " is no longer on the stage"
  | bufferNodeGone id => "Buffer node " ++ id.text ++ " is no longer on the stage"
  | noBuffer id => "Buffer node " ++ id.text ++ " has no buffer descriptor"
  | singularProjection => "The projection transform is not invertible"
  | singularBufferPose => "The buffer pose transform is not invertible"
  | stage error => error.message

/-- Why an operation yields no result: an error that it reports, a range of zoom powers whose ends
are crossed, or a search that would go on for ever. -/
inductive Stop where
  | failed (error : CameraError)
  | crossedLimits
  | endless
  deriving DecidableEq, Repr

structure Camera (α : Type) [Scalar α] where
  node : NodeId
  buffer : NodeId
  settings : Settings α
  projection : Transform α
  pan : Point α
  zoomPower : α
  viewport : Size
  deriving DecidableEq

/-- What an operation of a camera leaves behind, and its result. -/
structure Outcome (α : Type) [Scalar α] (β : Type) where
  camera : Camera α
  stage : Stage α
  result : Except Stop β

namespace Outcome

variable {α β γ : Type} [Scalar α]

def done (camera : Camera α) (stage : Stage α) (result : β) : Outcome α β :=
  ⟨camera, stage, .ok result⟩

def stopped (camera : Camera α) (stage : Stage α) (stop : Stop) : Outcome α β :=
  ⟨camera, stage, .error stop⟩

/-- Goes on with another operation, unless this one stopped. -/
def andThen (o : Outcome α β) (next : Camera α → Stage α → β → Outcome α γ) : Outcome α γ :=
  match o.result with
  | .ok b => next o.camera o.stage b
  | .error stop => stopped o.camera o.stage stop

/-- Replaces the result of an operation that does not stop. -/
def answering (o : Outcome α β) (result : γ) : Outcome α γ :=
  o.andThen fun camera stage _ => done camera stage result

end Outcome

namespace Camera

def bufferName : String :=
  "buffer"

def cameraName : String :=
  "camera"

variable {α : Type} [Scalar α]

/-- A camera without pan, at unit zoom, that has not seen a viewport yet. -/
def ofNodes (node buffer : NodeId) (settings : Settings α) : Camera α :=
  { node, buffer, settings
    projection := .identity
    pan := ⟨0, 0⟩
    zoomPower := 0
    viewport := ⟨0, 0⟩ }

/-- A camera for the nodes with the well-known names. -/
def attach (stage : Stage α) (settings : Settings α) : Except CameraError (Camera α) :=
  match stage.require cameraName with
  | .error e => .error (.stage e)
  | .ok node =>
    match stage.require bufferName with
    | .error e => .error (.stage e)
    | .ok buffer => .ok (ofNodes node buffer settings)

def zoom (c : Camera α) : α :=
  Scalar.pow c.settings.zoomFactor c.zoomPower

/-- Scales by the reciprocal of the zoom. -/
def scale (c : Camera α) : Transform α :=
  .zooming (1 / c.zoom)

def unscale (c : Camera α) : Transform α :=
  .zooming c.zoom

/-- The pose that the camera publishes. -/
def viewPose (c : Camera α) : Transform α :=
  c.scale * Transform.shifting (.point (-c.pan.x) (-c.pan.y))

/-- From world coordinates to the normalized device: zoom, pan, project. World coordinates are
buffer units about the buffer's centre, after the buffer's pose. -/
def viewProjection (c : Camera α) : Transform α :=
  c.projection * Transform.shifting (.point c.pan.x c.pan.y) * c.unscale

/-- What is uploaded to the shader. -/
def uniform (c : Camera α) : Uniform α :=
  .ofTransform c.viewProjection

/-- The projection of a viewport: its pixels fill the device, its centre is the origin. -/
def projectionOf (size : Size) : Transform α :=
  .orthographic (Scalar.ofCount size.width / Scalar.two) (Scalar.ofCount size.height / Scalar.two)
    (-1) 1

/-- The camera at a new viewport size. An empty viewport leaves the projection as it is. -/
def resize (c : Camera α) (size : Size) : Camera α :=
  { c with
    viewport := size
    projection := if size.isEmpty then c.projection else projectionOf size }

/-- Writes the view to the camera's node and asks for a redraw. -/
def publish (c : Camera α) (stage : Stage α) : Outcome α Unit :=
  match stage.node? c.node with
  | none => .stopped c stage (.failed (.cameraNodeGone c.node))
  | some _ => .done c (stage.update c.node (·.publish c.viewPose)) ()

def bufferGeometry (c : Camera α) (stage : Stage α) :
    Except CameraError (Transform α × ImageBuffer α) :=
  match stage.node? c.buffer with
  | none => .error (.bufferNodeGone c.buffer)
  | some node =>
    match node.buffer with
    | none => .error (.noBuffer c.buffer)
    | some buffer => .ok (node.pose, buffer)

end Camera

end PanZoom
