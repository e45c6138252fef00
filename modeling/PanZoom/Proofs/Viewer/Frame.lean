import PanZoom.Proofs.Camera.Frame
import PanZoom.Proofs.Viewer.Current

namespace PanZoom

variable {α β : Type} [Scalar α] {c d e : Camera α}

def Command.size? : Command α → Option Size
  | .handle event => event.size?
  | _ => none

omit [Scalar α] in
theorem Canvas.size_observe (c : Canvas α) (event : Event α) :
    (c.observe event).size = event.size?.getD c.size := by
  cases event <;> rfl

namespace Camera

/-- The camera was only panned and zoomed. -/
def Moved (c d : Camera α) : Prop :=
  d = { c with pan := d.pan, zoomPower := d.zoomPower }

theorem Moved.refl (c : Camera α) : c.Moved c :=
  rfl

theorem Moved.trans (h : c.Moved d) (h' : d.Moved e) : c.Moved e := by
  have hsame : e = { d with pan := e.pan, zoomPower := e.zoomPower } := h'
  rw [h] at hsame
  exact hsame

theorem Moved.node (h : c.Moved d) : d.node = c.node := by
  rw [h]

theorem Moved.buffer (h : c.Moved d) : d.buffer = c.buffer := by
  rw [h]

theorem Moved.settings (h : c.Moved d) : d.settings = c.settings := by
  rw [h]

theorem Moved.viewport (h : c.Moved d) : d.viewport = c.viewport := by
  rw [h]

theorem Moved.projection (h : c.Moved d) : d.projection = c.projection := by
  rw [h]

def resize? (c : Camera α) (size? : Option Size) : Camera α :=
  size?.elim c c.resize

theorem resize?_node (c : Camera α) (size? : Option Size) : (c.resize? size?).node = c.node := by
  cases size? <;> rfl

theorem resize?_buffer (c : Camera α) (size? : Option Size) :
    (c.resize? size?).buffer = c.buffer := by
  cases size? <;> rfl

theorem resize?_settings (c : Camera α) (size? : Option Size) :
    (c.resize? size?).settings = c.settings := by
  cases size? <;> rfl

theorem resize?_viewport (c : Camera α) (size? : Option Size) :
    (c.resize? size?).viewport = size?.getD c.viewport := by
  cases size? <;> rfl

end Camera

namespace Viewer

open Camera

theorem adopt_moved {v : Viewer α} {stage : Stage α} {o : Outcome α β} (h : o.Confined c stage) :
    c.Moved (v.adopt o).1.camera :=
  h.camera

/-- A new viewer is what the first fit leaves, which touches the camera's own node only. -/
theorem create_confined {image : ImageBuffer α} {settings : Settings α} {size : Size}
    {v : Viewer α} (h : create image settings size = .ok v) :
    ∃ o : Outcome α Unit,
      o.Confined ((ofNodes ⟨1, 0⟩ ⟨0, 0⟩ settings).resize size) (opening image) ∧
      v = ⟨o.stage, o.camera, .idle, .ofSize size, .idle⟩ := by
  rw [create_eq] at h
  dsimp only at h
  split at h
  · cases h
  · cases h
    exact ⟨_, fit_moves.confined, rfl⟩

theorem create_moved {image : ImageBuffer α} {settings : Settings α} {size : Size} {v : Viewer α}
    (h : create image settings size = .ok v) :
    ((ofNodes ⟨1, 0⟩ ⟨0, 0⟩ settings).resize size).Moved v.camera ∧ v.canvas = .ofSize size := by
  obtain ⟨o, hconfined, rfl⟩ := create_confined h
  exact ⟨hconfined.camera, rfl⟩

theorem create_bufferNode {image : ImageBuffer α} {settings : Settings α} {size : Size}
    {v : Viewer α} (h : create image settings size = .ok v) :
    v.stage.node? v.camera.buffer = some (.ofBuffer image) := by
  have hdistinct := (seated_opening image settings).distinct.symm
  obtain ⟨o, hconfined, rfl⟩ := create_confined h
  have hbuffer : o.camera.buffer = (ofNodes ⟨1, 0⟩ ⟨0, 0⟩ settings).buffer := hconfined.buffer
  show o.stage.node? o.camera.buffer = _
  rw [hbuffer]
  exact hconfined.others _ hdistinct

theorem Asks.confined {v : Viewer α} {size? : Option Size} {o : Outcome α Response}
    (ho : v.Asks size? o) : o.Confined (v.camera.resize? size?) v.stage := by
  cases ho with
  | nothing response => exact (Outcome.Moves.done v.camera v.stage response).confined
  | resize size => exact (publish_moves.answering _).confined
  | drag way => exact ((drag_moves way).answering _).confined
  | scroll delta canvas => exact ((scroll_moves delta canvas).answering _).confined
  | keys keyboard => exact (keyPressed_moves keyboard).confined

theorem turning_confined (v : Viewer α) (turns : ℤ) (node : Node α) (center : Point α) :
    (v.turning turns node center).Confined v.camera
      (v.stage.update v.camera.buffer (·.publish (.quarterTurns turns * node.pose))) :=
  fit_moves.confined.andThen fun _ _ _ => (moveTo_moves center).confined

theorem rotate_moved (v : Viewer α) (turns : ℤ) : v.camera.Moved (v.rotate turns).1.camera := by
  rcases v.rotate_cases turns with ⟨e, hstays⟩ | ⟨node, center, -, hturns⟩
  · rw [hstays]
    exact .refl v.camera
  · rw [hturns]
    exact adopt_moved (v.turning_confined turns node center)

theorem perform_moved (v : Viewer α) (command : Command α) :
    (v.camera.resize? command.size?).Moved (v.perform command).1.camera := by
  cases command with
  | handle event => exact (v.handle_asks event).confined.camera
  | tick => exact adopt_moved (tick_moves _).confined
  | goTo target => exact adopt_moved (moveTo_moves _).confined
  | recenter => exact adopt_moved recenter_moves.confined
  | rotateClockwise => exact v.rotate_moved (-1)
  | rotateCounterclockwise => exact v.rotate_moved 1
  | takeRedraw => exact .refl v.camera

theorem linkFrom_camera (v other : Viewer α) :
    (v.linkFrom other).1.camera =
      { other.camera with node := v.camera.node, buffer := v.camera.buffer } :=
  publish_camera _ _

/-- Whatever else an event does, the canvas and the keyboard observe it. -/
theorem handle_observes (v : Viewer α) (event : Event α) :
    (v.handle event).1.canvas = v.canvas.observe event ∧
      (v.handle event).1.keyboard = v.keyboard.observe event := by
  unfold Viewer.handle
  dsimp only
  cases event with
  | mousePressed button position => cases button <;> exact ⟨rfl, rfl⟩
  | mouseReleased button position =>
    cases button with
    | left => dsimp only; split <;> exact ⟨rfl, rfl⟩
    | right | middle | other => exact ⟨rfl, rfl⟩
  | mouseMoved position => cases hd : v.drag <;> exact ⟨rfl, rfl⟩
  | resized | mouseWheel | keyPressed | keyReleased => exact ⟨rfl, rfl⟩

theorem handle_canvas (v : Viewer α) (event : Event α) :
    (v.handle event).1.canvas = v.canvas.observe event :=
  (v.handle_observes event).1

theorem rotate_observes (v : Viewer α) (turns : ℤ) :
    (v.rotate turns).1.canvas = v.canvas ∧ (v.rotate turns).1.keyboard = v.keyboard := by
  rcases v.rotate_cases turns with ⟨e, hstays⟩ | ⟨node, center, -, hturns⟩
  · rw [hstays]
    exact ⟨rfl, rfl⟩
  · rw [hturns]
    exact ⟨rfl, rfl⟩

theorem perform_canvas_size (v : Viewer α) (command : Command α) :
    (v.perform command).1.canvas.size = command.size?.getD v.canvas.size := by
  cases command with
  | handle event =>
    show (v.handle event).1.canvas.size = _
    rw [handle_canvas]
    exact v.canvas.size_observe event
  | rotateClockwise => exact congrArg Canvas.size (v.rotate_observes (-1)).1
  | rotateCounterclockwise => exact congrArg Canvas.size (v.rotate_observes 1).1
  | tick | goTo | recenter | takeRedraw => rfl

end Viewer

end PanZoom
