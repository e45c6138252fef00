import Mathlib.Data.Fintype.Basic
import Mathlib.Tactic.FinCases
import PanZoom.Geometry.Inverse

namespace PanZoom

variable {α : Type}

namespace Transform

theorem entry_setRow (m : Transform α) (i r c : Fin 4) (v : Homogeneous α) :
    (m.setRow i v).entry r c = if r = i then v.get c else m.entry r c := by
  fin_cases i <;> fin_cases r <;> rfl

theorem get_scaleBy [Scalar α] (v : Homogeneous α) (k : α) (c : Fin 4) :
    (v.scaleBy k).get c = v.get c * k := by
  fin_cases c <;> rfl

theorem get_zipWith (f : α → α → α) (u v : Homogeneous α) (c : Fin 4) :
    (u.zipWith f v).get c = f (u.get c) (v.get c) := by
  fin_cases c <;> rfl

theorem mem_places : ∀ i : Fin 4, i ∈ places := by
  decide

end Transform

namespace Elimination

open Transform

theorem entry_exchange (m : Transform α) (i j r c : Fin 4) :
    (exchange m i j).entry r c =
      if r = j then m.entry i c else if r = i then m.entry j c else m.entry r c := by
  rw [exchange, entry_setRow, entry_setRow]
  rfl

theorem mem_candidates {r c : Fin 4} : r ∈ candidates c ↔ c ≤ r := by
  revert r c
  decide

end Elimination

end PanZoom
