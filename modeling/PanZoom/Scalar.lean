/-!
# Scalars

The geometry and the camera are written once, for any type of coordinates that offers the
operations below. Two readings matter: single precision, in which the viewer runs, and an exact
field, in which the laws of the transforms can be said without rounding.

A scalar type need not obey any law of arithmetic. In single precision addition is not associative,
an undefined number differs from itself, and zero has a sign.
-/

namespace PanZoom

/-- The operations that coordinates offer. -/
class Scalar (α : Type) where
  zero : α
  one : α
  add : α → α → α
  sub : α → α → α
  mul : α → α → α
  div : α → α → α
  neg : α → α
  lt : α → α → Prop
  le : α → α → Prop
  decidableLT : DecidableRel lt
  decidableLE : DecidableRel le
  /-- Numerical equality: the two zeros agree, an undefined number agrees with nothing. -/
  agrees : α → α → Bool
  abs : α → α
  isFinite : α → Bool
  /-- The number of pixels or whole steps as a coordinate. -/
  ofCount : UInt32 → α
  /-- The first number is no larger in size than the second; undefined numbers are the largest. -/
  sizeLE : α → α → Bool
  /-- A linear system may be divided by the number. -/
  isPivot : α → Bool
  /-- The base, which is finite and above one, raised to any exponent. -/
  pow : α → α → α
  /-- The greatest whole exponent of the base that keeps the zoom within its bounds. -/
  powerLimit : α → α
  /-- A posed buffer narrower or lower than this counts as empty. -/
  leastExtent : α
  /-- So many steps of one, begun at zero, pass the given bound or have stopped moving. -/
  stepsPast : α → Nat

namespace Scalar

variable {α : Type} [Scalar α]

-- A type with operations of its own is written with those: the ones below are found last.
instance (priority := low) : Zero α := ⟨zero⟩
instance (priority := low) : One α := ⟨one⟩
instance (priority := low) : Add α := ⟨add⟩
instance (priority := low) : Sub α := ⟨sub⟩
instance (priority := low) : Mul α := ⟨mul⟩
instance (priority := low) : Div α := ⟨div⟩
instance (priority := low) : Neg α := ⟨neg⟩
instance (priority := low) : LT α := ⟨lt⟩
instance (priority := low) : LE α := ⟨le⟩
instance (priority := low) : DecidableLT α := decidableLT
instance (priority := low) : DecidableLE α := decidableLE

def two : α :=
  1 + 1

/-- The number in the range that is nearest to `x`. There is none if the bounds are crossed or one
of them is undefined. -/
def clamp? (low high x : α) : Option α :=
  if low ≤ high then
    let x := if x < low then low else x
    some (if high < x then high else x)
  else none

end Scalar

end PanZoom
