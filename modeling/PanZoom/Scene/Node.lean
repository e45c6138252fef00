import PanZoom.Geometry.Transform

namespace PanZoom

/-- The size of the displayed image in its own units. -/
structure ImageBuffer (α : Type) where
  width : α
  height : α
  deriving DecidableEq, Repr

namespace ImageBuffer

variable {α : Type} [Scalar α]

def center (b : ImageBuffer α) : Point α :=
  ⟨b.width / Scalar.two, b.height / Scalar.two⟩

/-- Whether the point lies in the image, its edges included. -/
def contains (b : ImageBuffer α) (p : Point α) : Bool :=
  decide (0 ≤ p.x) && decide (p.x ≤ b.width) && (decide (0 ≤ p.y) && decide (p.y ≤ b.height))

end ImageBuffer

structure Node (α : Type) where
  pose : Transform α
  buffer : Option (ImageBuffer α)
  label : Option String
  redraw : Bool
  deriving DecidableEq, Repr

namespace Node

variable {α : Type}

def ofPose (pose : Transform α) : Node α :=
  ⟨pose, none, none, false⟩

/-- A node at the origin that shows an image. -/
def ofBuffer [Scalar α] (buffer : ImageBuffer α) : Node α :=
  { ofPose .identity with buffer := some buffer }

/-- Moves the node and asks for a redraw. -/
def publish (n : Node α) (pose : Transform α) : Node α :=
  { n with pose, redraw := true }

end Node

end PanZoom
