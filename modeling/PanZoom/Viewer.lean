import PanZoom.Camera.Center
import PanZoom.Camera.Control
import PanZoom.Input.Drag

namespace PanZoom

/-- A buffer's view with its camera and the state of the inputs. -/
structure Viewer (α : Type) [Scalar α] where
  stage : Stage α
  camera : Camera α
  keyboard : Keyboard
  canvas : Canvas α
  drag : Drag α
  deriving DecidableEq

namespace Viewer

variable {α β : Type} [Scalar α]

/-- The viewer after an operation of its camera, and the operation's result. -/
def adopt (v : Viewer α) (o : Outcome α β) : Viewer α × Except Stop β :=
  ({ v with camera := o.camera, stage := o.stage }, o.result)

/-- A viewer of a buffer, which is fitted to a canvas of the given size. -/
def create (buffer : ImageBuffer α) (settings : Settings α) (size : Size) :
    Except Stop (Viewer α) :=
  match Stage.empty.add Camera.bufferName (Node.ofBuffer buffer) with
  | .error e => .error (.failed (.stage e))
  | .ok (_, stage) =>
    match stage.add Camera.cameraName (Node.ofPose .identity) with
    | .error e => .error (.failed (.stage e))
    | .ok (_, stage) =>
      match Camera.attach stage settings with
      | .error e => .error (.failed e)
      | .ok camera =>
        let fitted := camera.fitTo stage size
        match fitted.result with
        | .error stop => .error stop
        | .ok () => .ok ⟨fitted.stage, fitted.camera, .idle, .ofSize size, .idle⟩

/-- Routes one event. The canvas and the keyboard learn of it in any case. -/
def handle (v : Viewer α) (event : Event α) : Viewer α × Except Stop Response :=
  let v := { v with canvas := v.canvas.observe event, keyboard := v.keyboard.observe event }
  match event with
  | .resized size => v.adopt (((v.camera.resize size).publish v.stage).answering .consumed)
  | .mousePressed .left position => ({ v with drag := .running position }, .ok .consumed)
  | .mousePressed _ _ => (v, .ok .ignored)
  | .mouseReleased .left _ =>
      if v.drag.isRunning then ({ v with drag := .idle }, .ok .consumed) else (v, .ok .ignored)
  | .mouseReleased _ _ => (v, .ok .ignored)
  | .mouseMoved position =>
    let (drag, way?) := v.drag.moveTo position
    match way? with
    | some way =>
        -- The canvas counts downward, the pan upward.
        { v with drag }.adopt ((v.camera.drag v.stage ⟨way.x, -way.y⟩).answering .consumed)
    | none => (v, .ok .ignored)
  | .mouseWheel delta _ => v.adopt ((v.camera.scroll v.stage delta v.canvas).answering .consumed)
  | .keyPressed _ _ => v.adopt (v.camera.keyPressed v.stage v.keyboard)
  | .keyReleased _ _ => (v, .ok .ignored)

/-- One frame of panning by held keys. -/
def tick (v : Viewer α) : Viewer α × Except Stop Response :=
  v.adopt (v.camera.tick v.stage v.keyboard)

def goTo (v : Viewer α) (target : Point α) : Viewer α × Except Stop Unit :=
  v.adopt (v.camera.moveTo v.stage target)

def recenter (v : Viewer α) : Viewer α × Except Stop Unit :=
  v.adopt (v.camera.recenter v.stage)

/-- Turns the buffer by quarter turns, fits it, and brings the centred point back to the centre. -/
def rotate (v : Viewer α) (turns : Int) : Viewer α × Except Stop Unit :=
  match v.camera.center v.stage with
  | .error e => (v, .error (.failed e))
  | .ok center =>
    match v.stage.node? v.camera.buffer with
    | none => (v, .error (.failed (.bufferNodeGone v.camera.buffer)))
    | some node =>
      let turned := Transform.quarterTurns turns * node.pose
      let stage := v.stage.update v.camera.buffer (·.publish turned)
      v.adopt ((v.camera.fit stage).andThen fun camera stage _ => camera.moveTo stage center)

def rotateClockwise (v : Viewer α) : Viewer α × Except Stop Unit :=
  v.rotate (-1)

def rotateCounterclockwise (v : Viewer α) : Viewer α × Except Stop Unit :=
  v.rotate 1

/-- Shows what another viewer's camera shows. -/
def linkFrom (v other : Viewer α) : Viewer α × Except Stop Unit :=
  v.adopt (v.camera.syncFrom other.camera v.stage)

def awaitsRedraw (stage : Stage α) (id : NodeId) : Bool :=
  (stage.node? id).elim false Node.redraw

/-- Whether either node waits for a redraw; afterwards neither does. -/
def takeRedraw (v : Viewer α) : Viewer α × Bool :=
  let stage := v.stage.update v.camera.node ({ · with redraw := false })
  ({ v with stage := stage.update v.camera.buffer ({ · with redraw := false }) },
   awaitsRedraw v.stage v.camera.node || awaitsRedraw stage v.camera.buffer)

end Viewer

end PanZoom
