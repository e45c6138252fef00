import Mathlib.Data.List.Induction
import PanZoom.Input.Keyboard

namespace PanZoom

variable {α : Type}

/-- Whether the event presses the key or lets it go, if it is about this key. -/
def Event.holds? (key : Key) : Event α → Option Bool
  | .keyPressed other _ => if other = key then some true else none
  | .keyReleased other _ => if other = key then some false else none
  | _ => none

/-- Whether the last event about the key presses it, if there is one. -/
def lastPress? (key : Key) (events : List (Event α)) : Option Bool :=
  events.reverse.findSome? (Event.holds? key)

def Event.modifiers? : Event α → Option Modifiers
  | .keyPressed _ modifiers => some modifiers
  | .keyReleased _ modifiers => some modifiers
  | _ => none

/-- The modifiers of the last event about any key, and none at all if there is no such event. -/
def lastModifiers (events : List (Event α)) : Modifiers :=
  (events.reverse.findSome? Event.modifiers?).getD .released

/-- Where each event either settles a status or leaves it alone, the last one that settles it
counts, and if there was none, it is as before. -/
theorem status_foldl {σ ε β : Type} {observe : σ → ε → σ} (status : σ → β) {tells : ε → Option β}
    (htells : ∀ s e, status (observe s e) = (tells e).getD (status s)) (s : σ) (events : List ε) :
    status (events.foldl observe s) = (events.reverse.findSome? tells).getD (status s) := by
  induction events using List.reverseRecOn with
  | nil => rfl
  | append_singleton events event ih =>
    rw [List.foldl_append, List.foldl_cons, List.foldl_nil, htells, ih, List.reverse_append]
    cases h : tells event <;> simp [h]

namespace Keyboard

theorem isHeld_press (k : Keyboard) (pressed key : Key) :
    (k.press pressed).isHeld key = (decide (pressed = key) || k.isHeld key) := by
  unfold press isHeld
  by_cases hsame : pressed = key
  · subst hsame
    by_cases hheld : pressed ∈ k.held <;> simp [hheld]
  · have hother : key ≠ pressed := Ne.symm hsame
    by_cases hheld : pressed ∈ k.held <;> simp [hheld, hsame, hother]

theorem isHeld_release (k : Keyboard) (released key : Key) :
    (k.release released).isHeld key = (decide (released ≠ key) && k.isHeld key) := by
  unfold release isHeld
  by_cases hsame : released = key
  · simp [hsame]
  · have hother : key ≠ released := Ne.symm hsame
    simp [hsame, hother]

/-- An event settles for the key that it is about whether it is held, and for no other. -/
theorem isHeld_observe (k : Keyboard) (event : Event α) (key : Key) :
    (k.observe event).isHeld key = (event.holds? key).getD (k.isHeld key) := by
  cases event with
  | keyPressed pressed modifiers =>
    show (k.press pressed).isHeld key = _
    rw [isHeld_press]
    by_cases hsame : pressed = key <;> simp [Event.holds?, hsame]
  | keyReleased released modifiers =>
    show (k.release released).isHeld key = _
    rw [isHeld_release]
    by_cases hsame : released = key <;> simp [Event.holds?, hsame]
  | resized | mousePressed | mouseReleased | mouseMoved | mouseWheel => rfl

def observeAll (k : Keyboard) (events : List (Event α)) : Keyboard :=
  events.foldl observe k

/-- A key is held if the last event about it is a press; if there was none, it is as before. -/
theorem isHeld_observeAll (k : Keyboard) (events : List (Event α)) (key : Key) :
    (k.observeAll events).isHeld key = (lastPress? key events).getD (k.isHeld key) :=
  status_foldl (isHeld · key) (fun k event => k.isHeld_observe event key) k events

theorem modifiers_observe (k : Keyboard) (event : Event α) :
    (k.observe event).modifiers = event.modifiers?.getD k.modifiers := by
  cases event <;> rfl

/-- The modifiers are those of the last event about a key; if there was none, they are as before. -/
theorem modifiers_observeAll (k : Keyboard) (events : List (Event α)) :
    (k.observeAll events).modifiers =
      (events.reverse.findSome? Event.modifiers?).getD k.modifiers :=
  status_foldl Keyboard.modifiers modifiers_observe k events

end Keyboard

end PanZoom
