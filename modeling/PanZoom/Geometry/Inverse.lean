import PanZoom.Geometry.Transform

/-!
# Inverse of a transform

Gauss-Jordan elimination on a matrix beside the identity. For each column in turn a pivot is chosen
at or below the diagonal, its row is moved into place and divided by the pivot, and the column is
cleared in the other three rows. What has become of the identity is then the inverse:

* `Elimination.pivotRow`: the row with the largest entry of a column, the lowest of equals;
* `Elimination.column`: one column's work, or nothing if no entry of it can be divided by;
* `Transform.inverse?`: all four columns.
-/

namespace PanZoom

/-- A matrix that is being reduced to the identity, and the matrix that collects the same row
operations. -/
structure Elimination (α : Type) where
  left : Transform α
  right : Transform α
  deriving DecidableEq, Repr

namespace Elimination

variable {α : Type}

def exchange (m : Transform α) (i j : Fin 4) : Transform α :=
  (m.setRow i (m.row j)).setRow j (m.row i)

def candidates (column : Fin 4) : List (Fin 4) :=
  Transform.places.filter (column ≤ ·)

variable [Scalar α]

/-- The row at or below the diagonal whose entry is the largest in size; the lowest of equals. -/
def pivotRow (m : Transform α) (column : Fin 4) : Fin 4 :=
  (candidates column).foldl
    (fun best row =>
      if Scalar.sizeLE (m.entry best column) (m.entry row column) then row else best)
    column

def promote (e : Elimination α) (column pivot : Fin 4) : Elimination α :=
  ⟨exchange e.left column pivot, exchange e.right column pivot⟩

def normalize (e : Elimination α) (column : Fin 4) : Elimination α :=
  let norm := 1 / e.left.entry column column
  ⟨e.left.setRow column ((e.left.row column).scaleBy norm),
   e.right.setRow column ((e.right.row column).scaleBy norm)⟩

/-- Takes from a row the multiple of the diagonal's row that clears its entry in the column. An
entry that is zero already leaves the row as it is. -/
def clear (column : Fin 4) (e : Elimination α) (row : Fin 4) : Elimination α :=
  let factor := e.left.entry row column
  if row = column ∨ Scalar.agrees factor 0 then e
  else
    let reduce (m : Transform α) : Transform α :=
      m.setRow row ((m.row row).zipWith (fun a p => a - factor * p) (m.row column))
    ⟨reduce e.left, reduce e.right⟩

/-- Reduces one column to the identity's, if it has a pivot. -/
def column (e : Elimination α) (column : Fin 4) : Option (Elimination α) :=
  let pivot := pivotRow e.left column
  if Scalar.isPivot (e.left.entry pivot column) then
    some (Transform.places.foldl (clear column) ((e.promote column pivot).normalize column))
  else none

end Elimination

/-- The inverse of a matrix, unless a column has no pivot. -/
def Transform.inverse? {α : Type} [Scalar α] (m : Transform α) : Option (Transform α) :=
  (places.foldlM Elimination.column ⟨m, Transform.identity⟩).map Elimination.right

end PanZoom
