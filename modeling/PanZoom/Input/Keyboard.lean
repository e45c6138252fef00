import PanZoom.Input.Event

/-!
# Held keys

The keyboard is known only through key events: a key is held from its press to its release, and the
modifiers are those of the last key event of any key.
-/

namespace PanZoom

/-- The keys now held and the modifiers last seen. -/
structure Keyboard where
  held : List Key
  modifiers : Modifiers
  deriving DecidableEq, Repr

namespace Keyboard

def idle : Keyboard :=
  ⟨[], .released⟩

def isHeld (k : Keyboard) (key : Key) : Bool :=
  key ∈ k.held

def isModified (k : Keyboard) (modifier : ModifierKey) : Bool :=
  modifier.isHeld k.modifiers

def press (k : Keyboard) (key : Key) : Keyboard :=
  { k with held := if key ∈ k.held then k.held else key :: k.held }

def release (k : Keyboard) (key : Key) : Keyboard :=
  { k with held := k.held.filter (· ≠ key) }

def setModifiers (k : Keyboard) (modifiers : Modifiers) : Keyboard :=
  { k with modifiers }

def observe {α : Type} (k : Keyboard) : Event α → Keyboard
  | .keyPressed key modifiers => (k.press key).setModifiers modifiers
  | .keyReleased key modifiers => (k.release key).setModifiers modifiers
  | _ => k

end Keyboard

def Event.isKey {α : Type} : Event α → Bool
  | .keyPressed _ _ => true
  | .keyReleased _ _ => true
  | _ => false

end PanZoom
