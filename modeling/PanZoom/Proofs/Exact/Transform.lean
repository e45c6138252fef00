import Mathlib.Tactic.FieldSimp
import PanZoom.Geometry.Inverse
import PanZoom.Proofs.Exact.Scalar

namespace PanZoom

variable {K : Type} [Field K] [LinearOrder K] [IsStrictOrderedRing K] [PositiveReading K]

namespace Transform

theorem mul_apply (a b : Transform K) (v : Homogeneous K) : a * b * v = a * (b * v) := by
  show (compose a b).apply v = a.apply (b.apply v)
  simp only [compose, combine, apply, column, Homogeneous.dot, Homogeneous.get,
    Homogeneous.mk.injEq]
  refine ⟨?_, ?_, ?_, ?_⟩ <;> ring

theorem scaling_apply (s v : Homogeneous K) :
    scaling s * v = ⟨s.x * v.x, s.y * v.y, s.z * v.z, v.w⟩ := by
  show (scaling s).apply v = _
  simp only [apply, scaling, Homogeneous.dot, Homogeneous.mk.injEq]
  refine ⟨?_, ?_, ?_, ?_⟩ <;> ring

theorem zooming_apply (factor : K) (v : Homogeneous K) :
    zooming factor * v = ⟨factor * v.x, factor * v.y, v.z, v.w⟩ := by
  rw [zooming, scaling_apply, one_mul]

theorem shifting_apply (t v : Homogeneous K) :
    shifting t * v = ⟨v.x + t.x * v.w, v.y + t.y * v.w, v.z + t.z * v.w, v.w⟩ := by
  show (shifting t).apply v = _
  simp only [apply, shifting, Homogeneous.dot, Homogeneous.mk.injEq]
  refine ⟨?_, ?_, ?_, ?_⟩ <;> ring

/-! The columns of a transform are what it makes of the unit vectors. -/

theorem apply_first (m : Transform K) : m * (⟨1, 0, 0, 0⟩ : Homogeneous K) = m.column 0 := by
  show m.apply _ = _
  simp [apply, column, Homogeneous.dot, Homogeneous.get]

theorem apply_second (m : Transform K) : m * (⟨0, 1, 0, 0⟩ : Homogeneous K) = m.column 1 := by
  show m.apply _ = _
  simp [apply, column, Homogeneous.dot, Homogeneous.get]

theorem apply_origin (m : Transform K) : m * (⟨0, 0, 0, 1⟩ : Homogeneous K) = m.column 3 := by
  show m.apply _ = _
  simp [apply, column, Homogeneous.dot, Homogeneous.get]

theorem rotation_mul (s c s' c' : K) :
    rotation s c * rotation s' c' = rotation (s * c' + c * s') (c * c' - s * s') := by
  show compose _ _ = _
  simp only [compose, combine, column, rotation, Homogeneous.dot, Homogeneous.get, mk.injEq,
    Homogeneous.mk.injEq]
  refine ⟨⟨?_, ?_, ?_, ?_⟩, ⟨?_, ?_, ?_, ?_⟩, ⟨?_, ?_, ?_, ?_⟩, ?_, ?_, ?_, ?_⟩ <;> ring

theorem quarterTurns_zero : (quarterTurns 0 : Transform K) = identity := by
  show rotation (0 : K) 1 = identity
  simp [rotation, identity]

theorem emod_four_cases (n : ℤ) : n % 4 = 0 ∨ n % 4 = 1 ∨ n % 4 = 2 ∨ n % 4 = 3 := by
  omega

/-- One number of turns after another is their sum, whose remainder they settle by theirs. -/
theorem quarterTurns_mul (m n : ℤ) :
    (quarterTurns m * quarterTurns n : Transform K) = quarterTurns (m + n) := by
  have hsum : (m + n) % 4 = (m % 4 + n % 4) % 4 := Int.add_emod m n 4
  unfold quarterTurns
  rw [hsum]
  rcases emod_four_cases m with h | h | h | h <;>
    rcases emod_four_cases n with h' | h' | h' | h' <;> simp [h, h', rotation_mul]

def diagonal (d : Homogeneous K) : Transform K :=
  ⟨⟨d.x, 0, 0, 0⟩, ⟨0, d.y, 0, 0⟩, ⟨0, 0, d.z, 0⟩, ⟨0, 0, 0, d.w⟩⟩

/-- Every column of a diagonal matrix has its pivot on the diagonal. -/
theorem pivotRow_diagonal (d : Homogeneous K) (i : Fin 4) (h : d.get i ≠ 0) :
    Elimination.pivotRow (diagonal d) i = i := by
  fin_cases i <;>
    simp_all [Elimination.pivotRow, Elimination.candidates, places, diagonal, entry, row,
      Homogeneous.get]

/-- One column's work on a diagonal matrix: nothing is moved and nothing has to be cleared. -/
theorem column_diagonal (d r : Homogeneous K) (i : Fin 4) (h : d.get i ≠ 0) :
    Elimination.column ⟨diagonal d, diagonal r⟩ i =
      some ⟨diagonal (d.set i 1), diagonal (r.set i (r.get i * (1 / d.get i)))⟩ := by
  rw [Elimination.column, pivotRow_diagonal d i h]
  fin_cases i <;>
    simp_all [places, diagonal, entry, row, setRow, Elimination.promote, Elimination.exchange,
      Elimination.normalize, Elimination.clear, Homogeneous.get, Homogeneous.set,
      Homogeneous.scaleBy, Homogeneous.map]

/-- The inverse of a scaling is the scaling by the reciprocals. -/
theorem inverse?_scaling {s : Homogeneous K} (hx : s.x ≠ 0) (hy : s.y ≠ 0) (hz : s.z ≠ 0) :
    (scaling s).inverse? = some (scaling ⟨1 / s.x, 1 / s.y, 1 / s.z, 1⟩) := by
  have hs : (scaling s : Transform K) = diagonal ⟨s.x, s.y, s.z, 1⟩ := rfl
  have hone : (identity : Transform K) = diagonal ⟨1, 1, 1, 1⟩ := rfl
  have h₀ := column_diagonal ⟨s.x, s.y, s.z, 1⟩ ⟨1, 1, 1, 1⟩ 0 hx
  have h₁ := column_diagonal ⟨1, s.y, s.z, 1⟩ ⟨1 * (1 / s.x), 1, 1, 1⟩ 1 hy
  have h₂ := column_diagonal ⟨1, 1, s.z, 1⟩ ⟨1 * (1 / s.x), 1 * (1 / s.y), 1, 1⟩ 2 hz
  have h₃ := column_diagonal ⟨1, 1, 1, 1⟩ ⟨1 * (1 / s.x), 1 * (1 / s.y), 1 * (1 / s.z), 1⟩ 3
    one_ne_zero
  simp only [Homogeneous.set, Homogeneous.get] at h₀ h₁ h₂ h₃
  rw [inverse?, hs, hone]
  simp only [places, List.foldlM_cons, List.foldlM_nil, Option.bind_eq_bind, h₀, h₁, h₂, h₃,
    Option.bind_some]
  simp [diagonal, scaling]

end Transform

end PanZoom
