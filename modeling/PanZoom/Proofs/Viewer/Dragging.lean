import PanZoom.Proofs.Input.Strokes
import PanZoom.Proofs.Viewer.KeyPress

namespace PanZoom

/-- The wheel and the presses of keys can zoom. -/
def Event.zooms {α : Type} : Event α → Bool
  | .mouseWheel _ _ => true
  | .keyPressed _ _ => true
  | _ => false

namespace Viewer

variable {α : Type} [Scalar α] {v w : Viewer α} {image : ImageBuffer α} {deeds : List (Deed α)}
  {event : Event α}

/-- A move while a drag runs drags the camera from the last known place. -/
theorem handled_moved {last : Point α} (hdrag : v.drag = .running last) (position : Point α) :
    v.handled (.mouseMoved position) =
      (v.camera.drag v.stage ⟨position.x - last.x, -(position.y - last.y)⟩).answering
        .consumed := by
  unfold handled Viewer.handle
  dsimp only
  rw [hdrag]
  rfl

/-- Without a drag that moves, only a resize and the events that zoom reach the camera. -/
theorem handled_still (hstill : event.move? = none ∨ v.drag = .idle) (hsize : event.size? = none)
    (hzooms : event.zooms = false) :
    ∃ response, v.handled event = .done v.camera v.stage response := by
  cases event with
  | mousePressed button position => cases button <;> exact ⟨_, rfl⟩
  | mouseReleased button position =>
    cases button with
    | left =>
      unfold handled Viewer.handle
      dsimp only
      split <;> exact ⟨_, rfl⟩
    | right | middle | other => exact ⟨_, rfl⟩
  | mouseMoved position =>
    have hidle : v.drag = .idle := hstill.resolve_left (by rintro ⟨⟩)
    unfold handled Viewer.handle
    dsimp only
    rw [hidle]
    exact ⟨_, rfl⟩
  | keyReleased key modifiers => exact ⟨_, rfl⟩
  | resized => cases hsize
  | mouseWheel | keyPressed => cases hzooms

theorem handle_drag (v : Viewer α) (event : Event α) :
    (v.handle event).1.drag = v.drag.observe event := by
  unfold Viewer.handle
  dsimp only
  cases event with
  | mousePressed button position => cases button <;> rfl
  | mouseReleased button position =>
    cases button with
    | left => cases v.drag <;> rfl
    | right | middle | other => rfl
  | mouseMoved position => cases v.drag <;> rfl
  | resized | mouseWheel | keyPressed | keyReleased => rfl

theorem handleAll_drag (v : Viewer α) (events : List (Event α)) :
    (v.handleAll events).drag = v.drag.observeAll events :=
  (List.foldl_hom Viewer.drag fun v event => (v.handle_drag event).symm).symm

theorem rotate_drag (v : Viewer α) (turns : ℤ) : (v.rotate turns).1.drag = v.drag := by
  rcases v.rotate_cases turns with ⟨e, hstays⟩ | ⟨node, center, -, hturns⟩
  · rw [hstays]
  · rw [hturns]
    rfl

theorem act_drag (v : Viewer α) (d : Deed α) : (v.act d).drag = v.drag.observeAll d.events := by
  cases d with
  | link other => rfl
  | command c =>
    cases c with
    | handle event => exact v.handle_drag event
    | rotateClockwise => exact v.rotate_drag (-1)
    | rotateCounterclockwise => exact v.rotate_drag 1
    | tick | goTo | recenter | takeRedraw => rfl

/-- Of all deeds the drag learns of the events only. -/
theorem Run.drag (h : v.Run deeds w) : w.drag = v.drag.observeAll (eventsOf deeds) :=
  h.observes Viewer.drag act_drag

theorem create_drag {settings : Settings α} {size : Size}
    (h : create image settings size = .ok v) : v.drag = .idle := by
  obtain ⟨o, -, rfl⟩ := create_confined h
  rfl

/-- After any run of a new viewer and any events, a drag is running exactly if the last event of the
left button is a press. -/
theorem Run.isRunning_handleAll (h : v.Run deeds w) (hidle : v.drag = .idle)
    (events : List (Event α)) :
    (w.handleAll events).drag.isRunning = true ↔
      lastLeft? (eventsOf deeds ++ events) = some true := by
  have hbefore : (Drag.idle : Drag α).isRunning = false := rfl
  rw [handleAll_drag, h.drag, hidle, ← Drag.observeAll_append, Drag.isRunning_observeAll, hbefore]
  cases lastLeft? (eventsOf deeds ++ events) <;> simp

end Viewer

end PanZoom
