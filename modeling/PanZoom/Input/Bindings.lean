import PanZoom.Input.Key
import PanZoom.Text.Uppercase

/-!
# Key bindings

Every shortcut needs one modifier. The arrows always pan; the keys for zooming in, zooming out and
recentring can be chosen. `Bindings.repaired` gives an action its default key back when its key is
an arrow or already taken by an action before it.
-/

namespace PanZoom

/-- A key as people read it. A character is shown in upper case. -/
def Key.title : Key → String
  | .char c => String.ofList (Text.uppercase c)
  | .plus => "+"
  | .minus => "-"
  | .enter => "Enter"
  | .escape => "Esc"
  | .space => "Space"
  | .up => "Up"
  | .down => "Down"
  | .left => "Left"
  | .right => "Right"
  | .home => "Home"
  | .end => "End"
  | .pageUp => "PgUp"
  | .pageDown => "PgDn"

/-- The actions that keys are bound to, in their order of precedence. -/
inductive Action where
  | pan
  | zoomIn
  | zoomOut
  | recenter
  deriving DecidableEq, Repr

def Action.title : Action → String
  | .pan => "Pan"
  | .zoomIn => "Zoom in"
  | .zoomOut => "Zoom out"
  | .recenter => "Recenter"

structure Bindings where
  modifier : ModifierKey
  zoomIn : Key
  zoomOut : Key
  recenter : Key
  deriving DecidableEq, Repr

namespace Bindings

def default : Bindings :=
  ⟨.control, .plus, .minus, .home⟩

/-- The first action that the key is bound to. -/
def action? (b : Bindings) (key : Key) : Option Action :=
  if key.isArrow then some .pan
  else if key = b.zoomIn then some .zoomIn
  else if key = b.zoomOut then some .zoomOut
  else if key = b.recenter then some .recenter
  else none

/-- The key, unless an action other than the given one comes first for it. -/
def keep (b : Bindings) (key : Key) (action : Action) (fallback : Key) : Key :=
  match b.action? key with
  | some taken => if taken = action then key else fallback
  | none => key

/-- The bindings after each action in turn has kept its key or gone back to its default. -/
def repaired (b : Bindings) : Bindings :=
  let b := { b with zoomIn := b.keep b.zoomIn .zoomIn default.zoomIn }
  let b := { b with zoomOut := b.keep b.zoomOut .zoomOut default.zoomOut }
  { b with recenter := b.keep b.recenter .recenter default.recenter }

end Bindings

end PanZoom
