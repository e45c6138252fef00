import PanZoom.Geometry.Homogeneous

namespace PanZoom

/-- The rows of a matrix, each named for the component that it yields. -/
structure Transform (α : Type) where
  x : Homogeneous α
  y : Homogeneous α
  z : Homogeneous α
  w : Homogeneous α
  deriving DecidableEq, Repr

namespace Transform

variable {α : Type}

def row (m : Transform α) : Fin 4 → Homogeneous α
  | 0 => m.x
  | 1 => m.y
  | 2 => m.z
  | 3 => m.w

def setRow (m : Transform α) (i : Fin 4) (v : Homogeneous α) : Transform α :=
  match i with
  | 0 => { m with x := v }
  | 1 => { m with y := v }
  | 2 => { m with z := v }
  | 3 => { m with w := v }

def entry (m : Transform α) (row column : Fin 4) : α :=
  (m.row row).get column

def column (m : Transform α) (i : Fin 4) : Homogeneous α :=
  ⟨m.x.get i, m.y.get i, m.z.get i, m.w.get i⟩

def toList (m : Transform α) : List α :=
  m.x.toList ++ m.y.toList ++ m.z.toList ++ m.w.toList

def transpose (m : Transform α) : Transform α :=
  ⟨m.column 0, m.column 1, m.column 2, m.column 3⟩

def places : List (Fin 4) :=
  [0, 1, 2, 3]

/-- How far the origin of the plane is moved. -/
def shift (m : Transform α) : Point α :=
  ⟨m.x.w, m.y.w⟩

variable [Scalar α]

def identity : Transform α :=
  ⟨⟨1, 0, 0, 0⟩, ⟨0, 1, 0, 0⟩, ⟨0, 0, 1, 0⟩, ⟨0, 0, 0, 1⟩⟩

/-- Scales each axis by the component of `s`; the weight of `s` plays no part. -/
def scaling (s : Homogeneous α) : Transform α :=
  ⟨⟨s.x, 0, 0, 0⟩, ⟨0, s.y, 0, 0⟩, ⟨0, 0, s.z, 0⟩, ⟨0, 0, 0, 1⟩⟩

/-- Scales the plane by one factor. -/
def zooming (factor : α) : Transform α :=
  scaling ⟨factor, factor, 1, 1⟩

/-- Moves points by `t`, whose weight plays no part. -/
def shifting (t : Homogeneous α) : Transform α :=
  ⟨⟨1, 0, 0, t.x⟩, ⟨0, 1, 0, t.y⟩, ⟨0, 0, 1, t.z⟩, ⟨0, 0, 0, 1⟩⟩

def rotation (sine cosine : α) : Transform α :=
  ⟨⟨cosine, -sine, 0, 0⟩, ⟨sine, cosine, 0, 0⟩, ⟨0, 0, 1, 0⟩, ⟨0, 0, 0, 1⟩⟩

/-- A whole number of quarter turns, counter-clockwise if positive. No entry is rounded. -/
def quarterTurns (turns : Int) : Transform α :=
  match turns % 4 with
  | 0 => rotation 0 1
  | 1 => rotation 1 0
  | 2 => rotation 0 (-1)
  | _ => rotation (-1) 0

/-- Maps the box `[-right, right] × [-top, top] × [near, far]` onto the unit cube. -/
def orthographic (right top near far : α) : Transform α :=
  let depth := far - near
  ⟨⟨1 / right, 0, 0, 0⟩, ⟨0, 1 / top, 0, 0⟩,
   ⟨0, 0, -Scalar.two / depth, -(far + near) / depth⟩, ⟨0, 0, 0, 1⟩⟩

def apply (m : Transform α) (v : Homogeneous α) : Homogeneous α :=
  ⟨m.x.dot v, m.y.dot v, m.z.dot v, m.w.dot v⟩

/-- The row vector `r * m`: the dot products of `r` with the columns of `m`. -/
def combine (r : Homogeneous α) (m : Transform α) : Homogeneous α :=
  ⟨r.dot (m.column 0), r.dot (m.column 1), r.dot (m.column 2), r.dot (m.column 3)⟩

/-- The product that applies `b` first. -/
def compose (a b : Transform α) : Transform α :=
  ⟨combine a.x b, combine a.y b, combine a.z b, combine a.w b⟩

instance : Mul (Transform α) :=
  ⟨compose⟩

instance : HMul (Transform α) (Homogeneous α) (Homogeneous α) :=
  ⟨apply⟩

def closeTo (a b : Transform α) (tolerance : α) : Bool :=
  a.x.closeTo b.x tolerance && a.y.closeTo b.y tolerance &&
    a.z.closeTo b.z tolerance && a.w.closeTo b.w tolerance

def agrees (a b : Transform α) : Bool :=
  a.x.agrees b.x && a.y.agrees b.y && a.z.agrees b.z && a.w.agrees b.w

end Transform

end PanZoom
