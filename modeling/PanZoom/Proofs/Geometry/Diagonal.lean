import PanZoom.Proofs.Geometry.Entries

namespace PanZoom

variable {α : Type} [Scalar α] {c : Fin 4} {e : Elimination α} {m : Transform α}

namespace Elimination

open Transform

/-- The number can be divided by, is preferred to any zero, and leaves zeros zero. -/
structure Leads (d : α) : Prop where
  isPivot : Scalar.isPivot d = true
  preferred : ∀ z, Scalar.agrees z 0 = true → Scalar.sizeLE d z = false
  divides : ∀ z, Scalar.agrees z 0 = true → Scalar.agrees (z * (1 / d)) 0 = true

def OffDiagonal (m : Transform α) : Prop :=
  ∀ i j, i ≠ j → Scalar.agrees (m.entry i j) 0 = true

omit [Scalar α] in
theorem exchange_self (m : Transform α) (i : Fin 4) : exchange m i i = m := by
  fin_cases i <;> rfl

/-- A zero is never taken for the pivot. -/
theorem pivotRow_of_offDiagonal (h : OffDiagonal m) (hlead : Leads (m.entry c c)) :
    pivotRow m c = c := by
  have hfold (rows : List (Fin 4)) : rows.foldl
      (fun best row =>
        if Scalar.sizeLE (m.entry best c) (m.entry row c) then row else best) c = c := by
    induction rows with
    | nil => rfl
    | cons row rows ih =>
      by_cases hrow : row = c
      · simp only [List.foldl_cons, hrow, ite_self, ih]
      · have hsmaller := hlead.preferred _ (h row c hrow)
        simp only [List.foldl_cons, hsmaller, Bool.false_eq_true, if_false, ih]
  exact hfold (candidates c)

/-- In a column of zeros there is nothing to clear. -/
theorem foldl_clear_of_zeros (h : ∀ r, r ≠ c → Scalar.agrees (e.left.entry r c) 0 = true)
    (rows : List (Fin 4)) : rows.foldl (clear c) e = e := by
  induction rows with
  | nil => rfl
  | cons row rows ih =>
    have hrow : row = c ∨ Scalar.agrees (e.left.entry row c) 0 = true := by
      by_cases hsame : row = c
      · exact .inl hsame
      · exact .inr (h row hsame)
    have hclear : clear c e row = e := if_pos hrow
    rw [List.foldl_cons, hclear, ih]

/-- Dividing a row leaves the zeros and the rest of the diagonal. -/
theorem normalize_of_offDiagonal (h : OffDiagonal e.left) (hlead : Leads (e.left.entry c c)) :
    OffDiagonal (e.normalize c).left ∧
      ∀ j, j ≠ c → (e.normalize c).left.entry j j = e.left.entry j j := by
  have hentry (i j : Fin 4) : (e.normalize c).left.entry i j =
      if i = c then e.left.entry c j * (1 / e.left.entry c c) else e.left.entry i j := by
    simp only [normalize, entry_setRow, get_scaleBy]
    rfl
  constructor
  · intro i j hij
    rw [hentry]
    by_cases hi : i = c
    · rw [if_pos hi]
      exact hlead.divides _ (h c j (hi ▸ hij))
    · rw [if_neg hi]
      exact h i j hij
  · intro j hj
    rw [hentry, if_neg hj]

/-- The work on one column of such a matrix. -/
theorem column_of_offDiagonal (h : OffDiagonal e.left) (hlead : Leads (e.left.entry c c)) :
    ∃ e', column e c = some e' ∧ OffDiagonal e'.left ∧
      ∀ j, j ≠ c → e'.left.entry j j = e.left.entry j j := by
  have hpromote : e.promote c c = e := by
    simp only [promote, exchange_self]
  obtain ⟨hzeros, hrest⟩ := normalize_of_offDiagonal h hlead
  refine ⟨e.normalize c, ?_, hzeros, hrest⟩
  unfold column
  dsimp only
  rw [pivotRow_of_offDiagonal h hlead, if_pos hlead.isPivot, hpromote,
    foldl_clear_of_zeros fun r hr => hzeros r c hr]

end Elimination

open Elimination in
/-- A diagonal that can be divided by has an inverse. -/
theorem Transform.exists_inverse? (h : OffDiagonal m) (hlead : ∀ i, Leads (m.entry i i)) :
    ∃ n, m.inverse? = some n := by
  obtain ⟨e₁, h₁, hzeros₁, hrest₁⟩ :=
    column_of_offDiagonal (c := 0) (e := ⟨m, .identity⟩) h (hlead 0)
  have hlead₁ (i : Fin 4) (hi : i ≠ 0) : Leads (e₁.left.entry i i) := hrest₁ i hi ▸ hlead i
  obtain ⟨e₂, h₂, hzeros₂, hrest₂⟩ := column_of_offDiagonal hzeros₁ (hlead₁ 1 (by decide))
  have hlead₂ (i : Fin 4) (h₀ : i ≠ 0) (h₁ : i ≠ 1) : Leads (e₂.left.entry i i) :=
    hrest₂ i h₁ ▸ hlead₁ i h₀
  obtain ⟨e₃, h₃, hzeros₃, hrest₃⟩ :=
    column_of_offDiagonal hzeros₂ (hlead₂ 2 (by decide) (by decide))
  have hlead₃ : Leads (e₃.left.entry 3 3) :=
    hrest₃ 3 (by decide) ▸ hlead₂ 3 (by decide) (by decide)
  obtain ⟨e₄, h₄, -, -⟩ := column_of_offDiagonal hzeros₃ hlead₃
  exact ⟨e₄.right, by simp [inverse?, places, h₁, h₂, h₃, h₄]⟩

end PanZoom
