import PanZoom.Input.Event

namespace PanZoom

/-- The last known size of the canvas and place of the mouse. -/
structure Canvas (α : Type) where
  size : Size
  mouse : Point α
  deriving DecidableEq, Repr

namespace Canvas

variable {α : Type}

/-- A canvas of the given size with the mouse at the origin. -/
def ofSize [Scalar α] (size : Size) : Canvas α :=
  ⟨size, ⟨0, 0⟩⟩

/-- The canvas after an event: a resize gives the size, every mouse event the place. -/
def observe (c : Canvas α) : Event α → Canvas α
  | .resized size => { c with size }
  | .mousePressed _ position => { c with mouse := position }
  | .mouseReleased _ position => { c with mouse := position }
  | .mouseMoved position => { c with mouse := position }
  | .mouseWheel _ position => { c with mouse := position }
  | .keyPressed _ _ => c
  | .keyReleased _ _ => c

end Canvas

/-- A pixel as a point of the normalized device: origin at the centre, `y` upward, the canvas
reaching from `-1` to `1` on both axes. -/
def Size.toDevice {α : Type} [Scalar α] (size : Size) (pixel : Point α) : Homogeneous α :=
  let width : α := Scalar.ofCount size.width
  let height : α := Scalar.ofCount size.height
  .point (Scalar.two * (pixel.x - width / Scalar.two) / width)
    (-Scalar.two * (pixel.y - height / Scalar.two) / height)

end PanZoom
