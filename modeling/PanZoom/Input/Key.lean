namespace PanZoom

/-- A mouse button; the rarer ones carry a number. -/
inductive MouseButton where
  | left
  | right
  | middle
  | other (code : UInt16)
  deriving DecidableEq, Repr

inductive Key where
  | char (c : Char)
  | plus
  | minus
  | enter
  | escape
  | space
  | up
  | down
  | left
  | right
  | home
  | «end»
  | pageUp
  | pageDown
  deriving DecidableEq, Repr

namespace Key

def arrows : List Key :=
  [.up, .down, .left, .right]

def isArrow (k : Key) : Bool :=
  k ∈ arrows

end Key

/-- Which modifiers were held when a key changed. -/
structure Modifiers where
  shift : Bool
  ctrl : Bool
  alt : Bool
  «meta» : Bool
  deriving DecidableEq, Repr

def Modifiers.released : Modifiers :=
  ⟨false, false, false, false⟩

inductive ModifierKey where
  | control
  | shift
  | alt
  | «meta»
  deriving DecidableEq, Repr

def ModifierKey.isHeld (k : ModifierKey) (held : Modifiers) : Bool :=
  match k with
  | .control => held.ctrl
  | .shift => held.shift
  | .alt => held.alt
  | .meta => held.meta

end PanZoom
