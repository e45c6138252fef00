import PanZoom.Geometry.Homogeneous

namespace PanZoom

/-- No drag, or a drag with the place it has reached. -/
inductive Drag (α : Type) where
  | idle
  | running (last : Point α)
  deriving DecidableEq, Repr

namespace Drag

variable {α : Type}

def isRunning : Drag α → Bool
  | idle => false
  | running _ => true

def last? : Drag α → Option (Point α)
  | idle => none
  | running last => some last

/-- The drag after a move, and the way it went. -/
def moveTo [Sub α] (d : Drag α) (position : Point α) : Drag α × Option (Point α) :=
  match d with
  | idle => (idle, none)
  | running last =>
      (running position, some ⟨position.x - last.x, position.y - last.y⟩)

end Drag

end PanZoom
