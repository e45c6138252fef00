import PanZoom.Proofs.Viewer.Dragging

/-!
# Ignored means untouched

An event that a viewer ignores goes on to others, so the viewer must not have acted on it. It has
learnt of it all the same: the canvas and the keyboard observe every event.

* `Camera.keyPressed_ignored_iff`: which key presses a camera ignores;
* `Viewer.Asks.of_ignored`, `Viewer.drag_of_ignored`: what an ignored event asks of the camera and
  of the drag, which is nothing;
* `Viewer.OnlyObserves`: nothing was changed but the place of the mouse and the keyboard, and these
  as the event says;
* `Viewer.ignored_means_untouched`: this is what ignored events come to, and of the presses of keys
  those are ignored that have no meaning with the modifiers and the keys that are held.
-/

namespace PanZoom

section

variable {α : Type}

def Event.position? : Event α → Option (Point α)
  | .mousePressed _ position => some position
  | .mouseReleased _ position => some position
  | .mouseMoved position => some position
  | .mouseWheel _ position => some position
  | _ => none

theorem Canvas.mouse_observe (c : Canvas α) (event : Event α) :
    (c.observe event).mouse = event.position?.getD c.mouse := by
  cases event <;> rfl

end

variable {α β : Type} [Scalar α]

@[simp] theorem Outcome.consumed_ne_ignored (o : Outcome α β) :
    (o.answering Response.consumed).result ≠ .ok .ignored := by
  unfold Outcome.answering Outcome.andThen
  split <;> rintro ⟨⟩

/-- A camera ignores a key press without the bound modifier, and one with no bound key and no arrow
held. -/
theorem Camera.keyPressed_ignored_iff (c : Camera α) (stage : Stage α) (keyboard : Keyboard) :
    (c.keyPressed stage keyboard).result = .ok .ignored ↔
      keyboard.isModified c.settings.bindings.modifier = false ∨
        ∀ key ∈ c.settings.bindings.keys ++ Key.arrows, keyboard.isHeld key = false := by
  cases hmodified : keyboard.isModified c.settings.bindings.modifier with
  | false => simp [keyPressed, hmodified, Outcome.done]
  | true =>
    cases hin : keyboard.isHeld c.settings.bindings.zoomIn with
    | true => simp [keyPressed, hmodified, hin, Bindings.keys]
    | false =>
      cases hout : keyboard.isHeld c.settings.bindings.zoomOut with
      | true => simp [keyPressed, hmodified, hin, hout, Bindings.keys]
      | false =>
        cases hrecenter : keyboard.isHeld c.settings.bindings.recenter with
        | true => simp [keyPressed, hmodified, hin, hout, hrecenter, Bindings.keys]
        | false =>
          simp only [keyPressed, hmodified, hin, hout, hrecenter, Bindings.keys, if_true, if_false,
            Bool.false_eq_true]
          split <;> simp_all [Outcome.done]

namespace Viewer

variable {v w : Viewer α} {event : Event α}

/-- Of the operations that an event can ask for, only doing nothing is ever ignored. -/
theorem Asks.of_ignored {size? : Option Size} {o : Outcome α Response} (ho : v.Asks size? o)
    (h : o.result = .ok .ignored) : size? = none ∧ o = .done v.camera v.stage .ignored := by
  cases ho with
  | nothing response =>
    cases h
    exact ⟨rfl, rfl⟩
  | resize | drag | scroll => exact absurd h (Outcome.consumed_ne_ignored _)
  | keys keyboard =>
    rcases v.camera.keyPressed_cases v.stage keyboard with
      ⟨response, hpress⟩ | ⟨step, hpress⟩ | hpress <;> rw [hpress] at h ⊢
    · cases h
      exact ⟨rfl, rfl⟩
    · exact absurd h (Outcome.consumed_ne_ignored _)
    · exact absurd h (Outcome.consumed_ne_ignored _)

/-- What starts a drag, moves it or ends it is not ignored. -/
theorem drag_of_ignored (h : (v.handle event).2 = .ok .ignored) :
    (v.handle event).1.drag = v.drag := by
  rw [handle_drag]
  cases event with
  | mousePressed button position =>
    cases button with
    | left => cases h
    | right | middle | other => rfl
  | mouseReleased button position =>
    cases button with
    | left =>
      cases hdrag : v.drag with
      | idle => rfl
      | running last =>
        unfold Viewer.handle at h
        simp [hdrag, Drag.isRunning] at h
    | right | middle | other => rfl
  | mouseMoved position =>
    cases hdrag : v.drag with
    | idle => rfl
    | running last =>
      have hmoved : (v.handled (.mouseMoved position)).result = .ok .ignored := h
      rw [handled_moved hdrag] at hmoved
      exact absurd hmoved (Outcome.consumed_ne_ignored _)
  | resized | mouseWheel | keyPressed | keyReleased => rfl

/-- The second viewer is the first, but for the place of the mouse and for the keyboard, which are
as the event says. -/
structure OnlyObserves (v w : Viewer α) (event : Event α) : Prop where
  camera : w.camera = v.camera
  stage : w.stage = v.stage
  drag : w.drag = v.drag
  size : w.canvas.size = v.canvas.size
  mouse : w.canvas.mouse = event.position?.getD v.canvas.mouse
  held : ∀ key, w.keyboard.isHeld key = (event.holds? key).getD (v.keyboard.isHeld key)
  modifiers : w.keyboard.modifiers = event.modifiers?.getD v.keyboard.modifiers

theorem onlyObserves_of_ignored (h : (v.handle event).2 = .ok .ignored) :
    v.OnlyObserves (v.handle event).1 event := by
  obtain ⟨hsize, hdone⟩ := (v.handle_asks event).of_ignored h
  obtain ⟨hcanvas, hkeyboard⟩ := v.handle_observes event
  refine ⟨congrArg Outcome.camera hdone, congrArg Outcome.stage hdone, drag_of_ignored h, ?_, ?_,
    fun key => ?_, ?_⟩
  · rw [hcanvas, Canvas.size_observe, hsize]
    rfl
  · rw [hcanvas, Canvas.mouse_observe]
  · rw [hkeyboard, Keyboard.isHeld_observe]
  · rw [hkeyboard, Keyboard.modifiers_observe]

/-- **Ignored means untouched.** A viewer that ignores an event has not changed its camera, any node
or the drag. It only knows the place of the mouse and the keys that the event tells of. A key press
is ignored exactly if the bound modifier is not held, or if after it none of the keys is held that
zoom, recentre or pan. -/
theorem ignored_means_untouched (v : Viewer α) :
    (∀ event, (v.handle event).2 = .ok .ignored → v.OnlyObserves (v.handle event).1 event) ∧
      ∀ key modifiers, (v.handle (.keyPressed key modifiers)).2 = .ok .ignored ↔
        v.camera.settings.bindings.modifier.isHeld modifiers = false ∨
          ∀ bound ∈ v.camera.settings.bindings.keys ++ Key.arrows,
            (v.handle (.keyPressed key modifiers)).1.keyboard.isHeld bound = false := by
  refine ⟨fun _ h => onlyObserves_of_ignored h, fun key modifiers => ?_⟩
  exact v.camera.keyPressed_ignored_iff v.stage ((v.keyboard.press key).setModifiers modifiers)

/-- The case of a bound key that is pressed without the modifier. -/
theorem ignored_means_untouched_unmodified :
    ∃ v : Viewer Float32, create ⟨10, 10⟩ .default ⟨20, 20⟩ = .ok v ∧
      (v.handle (.keyPressed .plus .released)).2 = .ok .ignored ∧
      v.OnlyObserves (v.handle (.keyPressed .plus .released)).1 (.keyPressed .plus .released) := by
  obtain ⟨v, hv⟩ := create_ok ⟨10, 10⟩ maxPower_default_le ⟨20, 20⟩
  have hsettings : v.camera.settings = .default := (create_moved hv).1.settings
  obtain ⟨huntouched, hpress⟩ := ignored_means_untouched v
  have hignored : (v.handle (.keyPressed .plus .released)).2 = .ok .ignored := by
    rw [hpress, hsettings]
    exact .inl rfl
  exact ⟨v, hv, hignored, huntouched _ hignored⟩

end Viewer

end PanZoom
