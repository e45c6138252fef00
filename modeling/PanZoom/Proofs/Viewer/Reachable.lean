import PanZoom.Viewer

namespace PanZoom

/-- What a viewer can be asked to do on its own. -/
inductive Command (α : Type) where
  | handle (event : Event α)
  | tick
  | goTo (target : Point α)
  | recenter
  | rotateClockwise
  | rotateCounterclockwise
  | takeRedraw
  deriving DecidableEq, Repr

variable {α : Type}

def Command.turns : Command α → Int
  | .rotateCounterclockwise => 1
  | .rotateClockwise => -1
  | _ => 0

/-- The pose in which a command fits the image, if it fits it at all. -/
def Command.fittedPose [Scalar α] (c : Command α) (pose : Transform α) : Transform α :=
  match c with
  | .rotateCounterclockwise => .quarterTurns 1 * pose
  | .rotateClockwise => .quarterTurns (-1) * pose
  | _ => pose

theorem Command.eq_rotate {c : Command α} (h : c.turns ≠ 0) :
    c = .rotateCounterclockwise ∨ c = .rotateClockwise := by
  cases c with
  | rotateCounterclockwise => exact .inl rfl
  | rotateClockwise => exact .inr rfl
  | handle | tick | goTo | recenter | takeRedraw => exact absurd rfl h

namespace Viewer

variable [Scalar α]

/-- The viewer after a command, and whether the command stopped on the way. -/
def perform (v : Viewer α) : Command α → Viewer α × Except Stop Unit
  | .handle event => ((v.handle event).1, (v.handle event).2.map fun _ => ())
  | .tick => (v.tick.1, v.tick.2.map fun _ => ())
  | .goTo target => v.goTo target
  | .recenter => v.recenter
  | .rotateClockwise => v.rotateClockwise
  | .rotateCounterclockwise => v.rotateCounterclockwise
  | .takeRedraw => (v.takeRedraw.1, .ok ())

/-- The viewers of an image, after any finite number of commands that ended. -/
inductive Reachable : ImageBuffer α → Viewer α → Prop where
  | create {image : ImageBuffer α} {settings : Settings α} {size : Size} {v : Viewer α} :
      Viewer.create image settings size = .ok v → Reachable image v
  | perform {image : ImageBuffer α} {v : Viewer α} (command : Command α) :
      Reachable image v → (v.perform command).2 ≠ .error .endless →
      Reachable image (v.perform command).1
  | linkFrom {image shown : ImageBuffer α} {v other : Viewer α} :
      Reachable image v → Reachable shown other → Reachable image (v.linkFrom other).1

end Viewer

end PanZoom
