import PanZoom.Viewer

namespace PanZoom

variable {α : Type} [Scalar α]

def Event.size? : Event α → Option Size
  | .resized size => some size
  | _ => none

namespace Viewer

/-- The operations of the camera that events ask for, with the size that the event brings. -/
inductive Asks (v : Viewer α) : Option Size → Outcome α Response → Prop
  | nothing (response : Response) : Asks v none (.done v.camera v.stage response)
  | resize (size : Size) :
      Asks v (some size) (((v.camera.resize size).publish v.stage).answering .consumed)
  | drag (way : Point α) : Asks v none ((v.camera.drag v.stage way).answering .consumed)
  | scroll (delta : α) (canvas : Canvas α) :
      Asks v none ((v.camera.scroll v.stage delta canvas).answering .consumed)
  | keys (keyboard : Keyboard) : Asks v none (v.camera.keyPressed v.stage keyboard)

/-- What an event leaves of the camera and the stage, and its result. -/
def handled (v : Viewer α) (event : Event α) : Outcome α Response :=
  ⟨(v.handle event).1.camera, (v.handle event).1.stage, (v.handle event).2⟩

theorem handle_asks (v : Viewer α) (event : Event α) : v.Asks event.size? (v.handled event) := by
  unfold handled Viewer.handle
  dsimp only
  cases event with
  | resized size => exact .resize size
  | mousePressed button position => cases button <;> exact .nothing _
  | mouseReleased button position =>
    cases button with
    | left => dsimp only; split <;> exact .nothing _
    | right | middle | other => exact .nothing _
  | mouseMoved position =>
    cases v.drag with
    | idle => exact .nothing _
    | running last => exact .drag _
  | mouseWheel delta position => exact .scroll delta _
  | keyPressed key modifiers => exact .keys _
  | keyReleased key modifiers => exact .nothing _

/-- The camera's part of a turn. With the buffer's node turned, it fits the buffer and brings the
centred point back. -/
def turning (v : Viewer α) (turns : Int) (node : Node α) (center : Point α) : Outcome α Unit :=
  let stage := v.stage.update v.camera.buffer (·.publish (.quarterTurns turns * node.pose))
  (v.camera.fit stage).andThen fun camera stage _ => camera.moveTo stage center

theorem rotate_of_center {v : Viewer α} {node : Node α} {center : Point α} (turns : Int)
    (hcenter : v.camera.center v.stage = .ok center)
    (hnode : v.stage.node? v.camera.buffer = some node) :
    v.rotate turns = v.adopt (v.turning turns node center) := by
  simp only [Viewer.rotate, hcenter, hnode, turning]

/-- A turn fails and changes nothing, or the camera does its part. -/
theorem rotate_cases (v : Viewer α) (turns : Int) :
    (∃ e, v.rotate turns = (v, .error (.failed e))) ∨
      ∃ node center, v.stage.node? v.camera.buffer = some node ∧
        v.rotate turns = v.adopt (v.turning turns node center) := by
  cases hcenter : v.camera.center v.stage with
  | error e => exact .inl ⟨e, by simp only [Viewer.rotate, hcenter]⟩
  | ok center =>
    cases hnode : v.stage.node? v.camera.buffer with
    | none => exact .inl ⟨_, by simp only [Viewer.rotate, hcenter, hnode]; rfl⟩
    | some node => exact .inr ⟨node, center, rfl, rotate_of_center turns hcenter hnode⟩

end Viewer

end PanZoom
