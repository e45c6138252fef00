import PanZoom.Geometry.Homogeneous
import PanZoom.Input.Key

namespace PanZoom

structure Size where
  width : UInt32
  height : UInt32
  deriving DecidableEq, Repr

def Size.isEmpty (s : Size) : Bool :=
  s.width == 0 || s.height == 0

inductive Event (α : Type) where
  | resized (size : Size)
  | mousePressed (button : MouseButton) (position : Point α)
  | mouseReleased (button : MouseButton) (position : Point α)
  | mouseMoved (position : Point α)
  | mouseWheel (delta : α) (position : Point α)
  | keyPressed (key : Key) (modifiers : Modifiers)
  | keyReleased (key : Key) (modifiers : Modifiers)
  deriving DecidableEq, Repr

/-- Whether whoever was handed an input has acted on it, or it should go on to others. -/
inductive Response where
  | consumed
  | ignored
  deriving DecidableEq, Repr

end PanZoom
