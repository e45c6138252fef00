import PanZoom.Scalar

/-!
# Homogeneous vectors

A point of the plane has weight one and can be moved; a direction has weight zero and cannot.
-/

namespace PanZoom

/-- A position in canvas pixels, origin at the top left, or a pair of offsets. -/
structure Point (α : Type) where
  x : α
  y : α
  deriving DecidableEq, Repr

/-- A homogeneous vector; `w` is its weight. -/
structure Homogeneous (α : Type) where
  x : α
  y : α
  z : α
  w : α
  deriving DecidableEq, Repr

namespace Homogeneous

variable {α : Type}

def map {β : Type} (f : α → β) (v : Homogeneous α) : Homogeneous β :=
  ⟨f v.x, f v.y, f v.z, f v.w⟩

def zipWith {β γ : Type} (f : α → β → γ) (u : Homogeneous α) (v : Homogeneous β) :
    Homogeneous γ :=
  ⟨f u.x v.x, f u.y v.y, f u.z v.z, f u.w v.w⟩

def toList (v : Homogeneous α) : List α :=
  [v.x, v.y, v.z, v.w]

def get (v : Homogeneous α) : Fin 4 → α
  | 0 => v.x
  | 1 => v.y
  | 2 => v.z
  | 3 => v.w

def set (v : Homogeneous α) (i : Fin 4) (a : α) : Homogeneous α :=
  match i with
  | 0 => { v with x := a }
  | 1 => { v with y := a }
  | 2 => { v with z := a }
  | 3 => { v with w := a }

variable [Scalar α]

def point (x y : α) : Homogeneous α :=
  ⟨x, y, 0, 1⟩

def direction (x y : α) : Homogeneous α :=
  ⟨x, y, 0, 0⟩

instance : Zero (Homogeneous α) :=
  ⟨⟨0, 0, 0, 0⟩⟩

instance : Add (Homogeneous α) :=
  ⟨zipWith (· + ·)⟩

instance : Sub (Homogeneous α) :=
  ⟨zipWith (· - ·)⟩

instance : Neg (Homogeneous α) :=
  ⟨map (-·)⟩

/-- Every component multiplied by a factor, the weight too. -/
def scaleBy (v : Homogeneous α) (factor : α) : Homogeneous α :=
  v.map (· * factor)

def abs (v : Homogeneous α) : Homogeneous α :=
  v.map Scalar.abs

/-- The sum of the products of the components, taken from the left. -/
def dot (u v : Homogeneous α) : α :=
  u.x * v.x + u.y * v.y + u.z * v.z + u.w * v.w

/-- Every component of one vector is within `tolerance` of the other's. -/
def closeTo (u v : Homogeneous α) (tolerance : α) : Bool :=
  (u.zipWith (fun a b => decide (Scalar.abs (a - b) ≤ tolerance)) v).toList.all id

def agrees (u v : Homogeneous α) : Bool :=
  (u.zipWith Scalar.agrees v).toList.all id

end Homogeneous

end PanZoom
