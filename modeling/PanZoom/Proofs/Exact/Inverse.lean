import Mathlib.LinearAlgebra.Matrix.NonsingularInverse
import Mathlib.LinearAlgebra.Matrix.Swap
import Mathlib.LinearAlgebra.Matrix.Transvection
import PanZoom.Proofs.Exact.Transform
import PanZoom.Proofs.Geometry.Entries

/-!
# The elimination in exact arithmetic

A step of the elimination multiplies both of its matrices from the left by one invertible matrix.
Seen that way the elimination is correct whatever steps it takes, if only it ends at the identity;
and it does, unless a column without a pivot shows that the matrix cannot be inverted:

* `Transform.toMatrix`: a transform as a matrix of the library;
* `Elimination.Reduces`: what any number of steps does;
* `Elimination.column_spec`: a column's work makes it the identity's and keeps those before it;
* `Elimination.exists_column`: a column of an invertible matrix has a pivot;
* `Transform.inverse?_eq_some_iff`: the inverse is found exactly if there is one;
* `Transform.elimination_inverts`: and there is none exactly if the determinant is zero.
-/

namespace PanZoom

namespace Transform

section

variable {α : Type}

def toMatrix (m : Transform α) : Matrix (Fin 4) (Fin 4) α :=
  Matrix.of m.entry

theorem toMatrix_apply (m : Transform α) (i j : Fin 4) : m.toMatrix i j = m.entry i j := rfl

theorem toMatrix_injective : Function.Injective (toMatrix : Transform α → _) := by
  intro a b h
  have hentry (i j : Fin 4) : a.entry i j = b.entry i j := congrFun (congrFun h i) j
  obtain ⟨⟨_, _, _, _⟩, ⟨_, _, _, _⟩, ⟨_, _, _, _⟩, ⟨_, _, _, _⟩⟩ := a
  obtain ⟨⟨_, _, _, _⟩, ⟨_, _, _, _⟩, ⟨_, _, _, _⟩, ⟨_, _, _, _⟩⟩ := b
  simp only [mk.injEq, Homogeneous.mk.injEq]
  exact ⟨⟨hentry 0 0, hentry 0 1, hentry 0 2, hentry 0 3⟩,
    ⟨hentry 1 0, hentry 1 1, hentry 1 2, hentry 1 3⟩,
    ⟨hentry 2 0, hentry 2 1, hentry 2 2, hentry 2 3⟩,
    ⟨hentry 3 0, hentry 3 1, hentry 3 2, hentry 3 3⟩⟩

end

variable {K : Type} [Field K] [LinearOrder K] [IsStrictOrderedRing K] [PositiveReading K]

theorem toMatrix_identity : (identity : Transform K).toMatrix = 1 := by
  ext i j
  fin_cases i <;> fin_cases j <;> rfl

theorem toMatrix_mul (a b : Transform K) : (a * b).toMatrix = a.toMatrix * b.toMatrix := by
  ext i j
  have hentry : (a * b).entry i j = (a.row i).dot (b.column j) := by
    fin_cases i <;> fin_cases j <;> rfl
  rw [toMatrix_apply, hentry, Matrix.mul_apply, Fin.sum_univ_four]
  rfl

end Transform

namespace Elimination

open Transform

/-! ## What the steps do to both matrices -/

section

variable {K : Type} [Field K] {e e' e'' : Elimination K}

/-- Both matrices were multiplied from the left by one invertible matrix. -/
def Reduces (e e' : Elimination K) : Prop :=
  ∃ E : Matrix (Fin 4) (Fin 4) K, IsUnit E ∧
    e'.left.toMatrix = E * e.left.toMatrix ∧ e'.right.toMatrix = E * e.right.toMatrix

theorem Reduces.refl (e : Elimination K) : Reduces e e :=
  ⟨1, isUnit_one, (one_mul _).symm, (one_mul _).symm⟩

theorem Reduces.trans (h : Reduces e e') (h' : Reduces e' e'') : Reduces e e'' := by
  obtain ⟨E, hE, hleft, hright⟩ := h
  obtain ⟨E', hE', hleft', hright'⟩ := h'
  refine ⟨E' * E, hE'.mul hE, ?_, ?_⟩
  · rw [hleft', hleft, mul_assoc]
  · rw [hright', hright, mul_assoc]

/-- What can be inverted stays so. -/
theorem Reduces.isUnit_left (h : Reduces e e') (hunit : IsUnit e.left.toMatrix) :
    IsUnit e'.left.toMatrix := by
  obtain ⟨E, hE, hleft, -⟩ := h
  rw [hleft]
  exact hE.mul hunit

theorem toMatrix_exchange (m : Transform K) (i j : Fin 4) :
    (exchange m i j).toMatrix = Matrix.swap K i j * m.toMatrix := by
  ext r c
  rw [toMatrix_apply, entry_exchange]
  by_cases hj : r = j
  · subst hj
    simp [toMatrix_apply]
  · by_cases hi : r = i
    · subst hi
      simp [hj, toMatrix_apply]
    · rw [Matrix.swap_mul_of_ne hi hj, toMatrix_apply, if_neg hj, if_neg hi]

theorem promote_reduces (e : Elimination K) (i j : Fin 4) : Reduces e (e.promote i j) := by
  have hself := Matrix.swap_mul_self (R := K) i j
  exact ⟨Matrix.swap K i j, isUnit_iff_exists.mpr ⟨_, hself, hself⟩, toMatrix_exchange _ _ _,
    toMatrix_exchange _ _ _⟩

end

variable {K : Type} [Field K] [LinearOrder K] [IsStrictOrderedRing K] [PositiveReading K]
variable {e e' : Elimination K} {c r : Fin 4}

theorem entry_scaled (m : Transform K) (i : Fin 4) (k : K) (r c : Fin 4) :
    (m.setRow i ((m.row i).scaleBy k)).entry r c =
      if r = i then m.entry i c * k else m.entry r c := by
  rw [entry_setRow, get_scaleBy]
  rfl

theorem toMatrix_scaled (m : Transform K) (i : Fin 4) (k : K) :
    (m.setRow i ((m.row i).scaleBy k)).toMatrix =
      Matrix.diagonal (fun r => if r = i then k else 1) * m.toMatrix := by
  ext r c
  rw [toMatrix_apply, entry_scaled, Matrix.diagonal_mul, toMatrix_apply]
  by_cases hr : r = i
  · subst hr
    simp [mul_comm]
  · simp [hr]

theorem normalize_reduces (h : e.left.entry c c ≠ 0) : Reduces e (e.normalize c) := by
  refine ⟨_, ?_, toMatrix_scaled _ _ _, toMatrix_scaled _ _ _⟩
  rw [Matrix.isUnit_iff_isUnit_det, Matrix.det_diagonal, isUnit_iff_ne_zero]
  apply Finset.prod_ne_zero_iff.mpr
  intro i _
  by_cases hi : i = c
  · simpa [hi] using h
  · simp [hi]

theorem clear_self (e : Elimination K) (c : Fin 4) : clear c e c = e := by
  simp [clear]

omit [LinearOrder K] [IsStrictOrderedRing K] [PositiveReading K] in
theorem toMatrix_cleared (m : Transform K) (factor : K) (c r : Fin 4) :
    (m.setRow r ((m.row r).zipWith (fun a p => a - factor * p) (m.row c))).toMatrix =
      Matrix.transvection r c (-factor) * m.toMatrix := by
  ext i j
  rw [toMatrix_apply, entry_setRow, get_zipWith]
  by_cases hi : i = r
  · subst hi
    rw [if_pos rfl, Matrix.transvection_mul_apply_same, neg_mul, ← sub_eq_add_neg]
    rfl
  · rw [if_neg hi, Matrix.transvection_mul_apply_of_ne _ _ _ _ hi]
    rfl

/-- In exact arithmetic a row whose entry is zero already may be cleared like any other. -/
theorem clear_of_ne (e : Elimination K) (h : r ≠ c) :
    (clear c e r).left.toMatrix =
        Matrix.transvection r c (-e.left.entry r c) * e.left.toMatrix ∧
      (clear c e r).right.toMatrix =
        Matrix.transvection r c (-e.left.entry r c) * e.right.toMatrix := by
  unfold clear
  dsimp only
  by_cases hzero : e.left.entry r c = 0
  · rw [if_pos (.inr (decide_eq_true hzero)), hzero]
    simp
  · rw [if_neg (by simp [h, hzero])]
    exact ⟨toMatrix_cleared _ _ _ _, toMatrix_cleared _ _ _ _⟩

theorem clear_reduces (e : Elimination K) (c r : Fin 4) : Reduces e (clear c e r) := by
  by_cases h : r = c
  · subst h
    rw [clear_self]
    exact .refl e
  · obtain ⟨hleft, hright⟩ := clear_of_ne e h
    refine ⟨_, ?_, hleft, hright⟩
    rw [Matrix.isUnit_iff_isUnit_det, Matrix.det_transvection_of_ne _ _ h]
    exact isUnit_one

theorem entry_clear_of_ne (e : Elimination K) (h : r ≠ c) (i j : Fin 4) :
    (clear c e r).left.entry i j =
      if i = r then e.left.entry r j - e.left.entry r c * e.left.entry c j
      else e.left.entry i j := by
  rw [← toMatrix_apply, (clear_of_ne e h).1]
  by_cases hi : i = r
  · subst hi
    rw [if_pos rfl, Matrix.transvection_mul_apply_same, neg_mul, ← sub_eq_add_neg]
    rfl
  · rw [if_neg hi, Matrix.transvection_mul_apply_of_ne _ _ _ _ hi]
    rfl

/-- The last of the largest: no candidate is larger in size. -/
theorem foldl_largest (f : Fin 4 → K) (rows : List (Fin 4)) (best : Fin 4) :
    let found := rows.foldl
      (fun best row => if Scalar.sizeLE (f best) (f row) then row else best) best
    found ∈ best :: rows ∧ ∀ row ∈ best :: rows, |f row| ≤ |f found| := by
  -- The next row may take the place of the best one, so the best one is any row.
  induction rows generalizing best with
  | nil => simp
  | cons row rows ih =>
    rw [List.foldl_cons]
    by_cases h : |f best| ≤ |f row|
    · obtain ⟨hmem, hlargest⟩ := ih row
      simp only [Scalar.sizeLE_exact, h, decide_true, if_true]
      refine ⟨List.mem_cons_of_mem _ hmem, ?_⟩
      intro other hother
      rcases List.mem_cons.mp hother with rfl | hother
      · exact h.trans (hlargest row List.mem_cons_self)
      · exact hlargest other hother
    · obtain ⟨hmem, hlargest⟩ := ih best
      simp only [Scalar.sizeLE_exact, h, decide_false, Bool.false_eq_true, if_false]
      refine ⟨?_, ?_⟩
      · exact List.mem_cons.mpr ((List.mem_cons.mp hmem).imp_right (List.mem_cons_of_mem _))
      · intro other hother
        simp only [List.mem_cons] at hother
        rcases hother with rfl | rfl | hother
        · exact hlargest other List.mem_cons_self
        · exact (not_le.mp h).le.trans (hlargest best List.mem_cons_self)
        · exact hlargest other (List.mem_cons_of_mem _ hother)

theorem le_pivotRow (m : Transform K) (c : Fin 4) : c ≤ pivotRow m c := by
  have hmem := (foldl_largest (m.entry · c) (candidates c) c).1
  rcases List.mem_cons.mp hmem with heq | hmem
  · exact heq.ge
  · exact mem_candidates.mp hmem

/-- If even the pivot is zero, so is the column from the diagonal down. -/
theorem entry_eq_zero_of_pivot (m : Transform K) (h : m.entry (pivotRow m c) c = 0) (hr : c ≤ r) :
    m.entry r c = 0 := by
  have hlargest := (foldl_largest (m.entry · c) (candidates c) c).2 r
    (List.mem_cons_of_mem _ (mem_candidates.mpr hr))
  rw [← pivotRow, h, abs_zero] at hlargest
  exact abs_nonpos_iff.mp hlargest

/-! ## One column -/

/-- The columns before the given one are those of the identity. -/
def ClearedBefore (m : Transform K) (k : ℕ) : Prop :=
  ∀ j : Fin 4, j.val < k → ∀ i, m.entry i j = if i = j then 1 else 0

theorem ClearedBefore.eq_identity {m : Transform K} (h : ClearedBefore m 4) : m = .identity := by
  apply toMatrix_injective
  ext i j
  rw [toMatrix_identity, toMatrix_apply, h j j.isLt, Matrix.one_apply]

omit [LinearOrder K] [IsStrictOrderedRing K] [PositiveReading K] in
theorem ClearedBefore.promote {pivot : Fin 4} (h : ClearedBefore e.left c) (hpivot : c ≤ pivot) :
    ClearedBefore (e.promote c pivot).left c := by
  intro j hj i
  have hjc : c ≠ j := Fin.ne_of_gt hj
  have hjp : pivot ≠ j := Fin.ne_of_gt (lt_of_lt_of_le hj hpivot)
  show (exchange e.left c pivot).entry i j = _
  rw [entry_exchange, h j hj, h j hj, h j hj]
  by_cases hip : i = pivot
  · simp [hip, hjc, hjp]
  · by_cases hic : i = c
    · simp [hic, hjc, hjp]
    · simp [hip, hic]

theorem ClearedBefore.normalize (h : ClearedBefore e.left c) :
    ClearedBefore (e.normalize c).left c := by
  intro j hj i
  have hjc : c ≠ j := Fin.ne_of_gt hj
  show (e.left.setRow c _).entry i j = _
  rw [entry_scaled, h j hj, h j hj]
  by_cases hic : i = c
  · simp [hic, hjc]
  · simp [hic]

/-- While a column is cleared: its pivot is one, it is zero in the rows that are done, and the
columns before it are those of the identity. -/
structure Clearing (e : Elimination K) (c : Fin 4) (done : List (Fin 4)) : Prop where
  before : ClearedBefore e.left c
  pivot : e.left.entry c c = 1
  cleared : ∀ i ∈ done, i ≠ c → e.left.entry i c = 0

theorem Clearing.clear {done : List (Fin 4)} (h : Clearing e c done) (r : Fin 4) :
    Clearing (clear c e r) c (r :: done) := by
  by_cases hr : r = c
  · subst hr
    rw [clear_self]
    refine ⟨h.before, h.pivot, ?_⟩
    intro i hi hne
    exact h.cleared i ((List.mem_cons.mp hi).resolve_left hne) hne
  · refine ⟨?_, ?_, ?_⟩
    · intro j hj i
      have hcj : e.left.entry c j = 0 := by rw [h.before j hj, if_neg (Fin.ne_of_gt hj)]
      rw [entry_clear_of_ne e hr, hcj, mul_zero, sub_zero, ← h.before j hj i]
      by_cases hi : i = r
      · simp [hi]
      · simp [hi]
    · rw [entry_clear_of_ne e hr, if_neg (Ne.symm hr), h.pivot]
    · intro i hi hne
      rw [entry_clear_of_ne e hr, h.pivot, mul_one, sub_self]
      by_cases hir : i = r
      · simp [hir]
      · simpa [hir] using h.cleared i ((List.mem_cons.mp hi).resolve_left hir) hne

theorem Clearing.foldl (rows : List (Fin 4)) {done : List (Fin 4)} (h : Clearing e c done) :
    Clearing (rows.foldl (Elimination.clear c) e) c (rows.reverse ++ done) ∧
      Reduces e (rows.foldl (Elimination.clear c) e) := by
  -- Each row that is cleared joins those that are done, and the pivot stays one.
  induction rows generalizing e done with
  | nil => exact ⟨h, .refl e⟩
  | cons r rows ih =>
    obtain ⟨hcleared, hreduces⟩ := ih (h.clear r)
    simp only [List.foldl_cons, List.reverse_cons, List.append_assoc, List.singleton_append]
    exact ⟨hcleared, (clear_reduces e c r).trans hreduces⟩

/-- A column's work makes it the identity's and keeps the columns before it. -/
theorem column_spec (h : ClearedBefore e.left c) (hcolumn : column e c = some e') :
    Reduces e e' ∧ ClearedBefore e'.left (c + 1) := by
  unfold column at hcolumn
  dsimp only at hcolumn
  split at hcolumn
  · rename_i hpivot
    cases hcolumn
    have hpivot : e.left.entry (pivotRow e.left c) c ≠ 0 := of_decide_eq_true hpivot
    generalize hp : e.promote c (pivotRow e.left c) = promoted
    have hdiagonal : promoted.left.entry c c = e.left.entry (pivotRow e.left c) c := by
      rw [← hp]
      show (exchange e.left c _).entry c c = _
      rw [entry_exchange]
      by_cases heq : c = pivotRow e.left c
      · rw [if_pos heq, ← heq]
      · rw [if_neg heq, if_pos rfl]
    have hbefore : ClearedBefore promoted.left c := hp ▸ h.promote (le_pivotRow e.left c)
    -- The pivot is one by now, and no row has been cleared.
    have hclearing : Clearing (promoted.normalize c) c [] := by
      refine ⟨hbefore.normalize, ?_, by simp⟩
      show (promoted.left.setRow c _).entry c c = 1
      rw [entry_scaled, if_pos rfl, hdiagonal, mul_one_div_cancel hpivot]
    obtain ⟨hdone, hfold⟩ := hclearing.foldl places
    have hpromote : Reduces e promoted := hp ▸ promote_reduces e c _
    have hnormalize := normalize_reduces (hdiagonal ▸ hpivot)
    refine ⟨(hpromote.trans hnormalize).trans hfold, ?_⟩
    intro j hj i
    rcases Nat.lt_succ_iff_lt_or_eq.mp hj with hlt | heq
    · exact hdone.before j hlt i
    · obtain rfl := Fin.ext heq
      by_cases hi : i = j
      · rw [if_pos hi, hi]
        exact hdone.pivot
      · rw [if_neg hi]
        exact hdone.cleared i (by simp [mem_places]) hi
  · cases hcolumn

/-- A column without a pivot is a combination of the columns before it. -/
theorem not_isUnit_of_pivot (h : ClearedBefore e.left c)
    (hpivot : e.left.entry (pivotRow e.left c) c = 0) : ¬IsUnit e.left.toMatrix := by
  intro hunit
  let before : Fin 4 → K := fun j => if j < c then e.left.entry j c else 0
  have hcolumn : e.left.toMatrix.col c = before := by
    funext i
    by_cases hi : i < c
    · simp [before, hi, toMatrix_apply]
    · simp [before, hi, toMatrix_apply, entry_eq_zero_of_pivot e.left hpivot (not_lt.mp hi)]
  have hbefore : e.left.toMatrix.mulVec before = before := by
    funext i
    have hterm (j : Fin 4) : e.left.toMatrix i j * before j = if i = j then before j else 0 := by
      by_cases hj : j < c
      · simp [toMatrix_apply, h j hj]
      · simp [before, hj]
    simp [Matrix.mulVec, dotProduct, hterm]
  have hsingle : e.left.toMatrix.mulVec (Pi.single c 1) = e.left.toMatrix.mulVec before := by
    rw [Matrix.mulVec_single_one, hcolumn, hbefore]
  have hsame := congrFun (Matrix.mulVec_injective_of_isUnit hunit hsingle) c
  simp [before] at hsame

/-- A column of a matrix that can be inverted has a pivot. -/
theorem exists_column (h : ClearedBefore e.left c) (hunit : IsUnit e.left.toMatrix) :
    ∃ e', column e c = some e' := by
  unfold column
  dsimp only
  split
  · exact ⟨_, rfl⟩
  · rename_i hpivot
    have hzero : e.left.entry (pivotRow e.left c) c = 0 := by simpa using hpivot
    exact absurd hunit (not_isUnit_of_pivot h hzero)

omit [LinearOrder K] [IsStrictOrderedRing K] [PositiveReading K] in
/-- Before the first column nothing is asked. -/
theorem clearedBefore_zero (m : Transform K) : ClearedBefore m 0 :=
  fun _ hj => absurd hj (Nat.not_lt_zero _)

theorem foldlM_column_spec (h : places.foldlM column e = some e') :
    Reduces e e' ∧ e'.left = .identity := by
  simp only [places, List.foldlM_cons, List.foldlM_nil, Option.bind_eq_bind,
    Option.bind_eq_some_iff] at h
  obtain ⟨e₁, h₁, e₂, h₂, e₃, h₃, e₄, h₄, hlast⟩ := h
  cases hlast
  obtain ⟨hreduces₁, hcleared₁⟩ := column_spec (c := 0) (clearedBefore_zero _) h₁
  obtain ⟨hreduces₂, hcleared₂⟩ := column_spec (c := 1) hcleared₁ h₂
  obtain ⟨hreduces₃, hcleared₃⟩ := column_spec (c := 2) hcleared₂ h₃
  obtain ⟨hreduces₄, hcleared₄⟩ := column_spec (c := 3) hcleared₃ h₄
  exact ⟨((hreduces₁.trans hreduces₂).trans hreduces₃).trans hreduces₄, hcleared₄.eq_identity⟩

/-- The work on a column of an invertible matrix can be done, and leaves the matrix invertible. -/
theorem exists_step (h : ClearedBefore e.left c) (hunit : IsUnit e.left.toMatrix) :
    ∃ e', column e c = some e' ∧ ClearedBefore e'.left (c + 1) ∧ IsUnit e'.left.toMatrix := by
  obtain ⟨e', hcolumn⟩ := exists_column h hunit
  obtain ⟨hreduces, hcleared⟩ := column_spec h hcolumn
  exact ⟨e', hcolumn, hcleared, hreduces.isUnit_left hunit⟩

theorem exists_foldlM_column (hunit : IsUnit e.left.toMatrix) :
    ∃ e', places.foldlM column e = some e' := by
  obtain ⟨e₁, h₁, hcleared₁, hunit₁⟩ := exists_step (c := 0) (clearedBefore_zero _) hunit
  obtain ⟨e₂, h₂, hcleared₂, hunit₂⟩ := exists_step (c := 1) hcleared₁ hunit₁
  obtain ⟨e₃, h₃, hcleared₃, hunit₃⟩ := exists_step (c := 2) hcleared₂ hunit₂
  obtain ⟨e₄, h₄, -, -⟩ := exists_step (c := 3) hcleared₃ hunit₃
  exact ⟨e₄, by simp [places, h₁, h₂, h₃, h₄]⟩

end Elimination

namespace Transform

open Elimination

variable {K : Type} [Field K] [LinearOrder K] [IsStrictOrderedRing K] [PositiveReading K]
variable {m n : Transform K}

theorem toMatrix_eq_one_iff : m.toMatrix = 1 ↔ m = .identity := by
  rw [← toMatrix_identity]
  exact toMatrix_injective.eq_iff

theorem identity_apply (v : Homogeneous K) : (identity : Transform K) * v = v := by
  show (identity : Transform K).apply v = v
  simp [apply, identity, Homogeneous.dot]

/-- A matrix with an inverse on one side has it on the other. -/
theorem mul_eq_identity_comm : n * m = .identity ↔ m * n = .identity := by
  rw [← toMatrix_eq_one_iff, ← toMatrix_eq_one_iff, toMatrix_mul, toMatrix_mul]
  exact mul_eq_one_comm

theorem isUnit_of_mul_eq_identity (h : n * m = .identity) : IsUnit m.toMatrix := by
  have hleft : n.toMatrix * m.toMatrix = 1 := by rw [← toMatrix_mul, h, toMatrix_identity]
  exact isUnit_iff_exists.mpr ⟨_, mul_eq_one_comm.mp hleft, hleft⟩

/-- What the elimination finds is the inverse. -/
theorem mul_of_inverse? (h : m.inverse? = some n) : n * m = .identity := by
  obtain ⟨e, hfold, rfl⟩ := Option.map_eq_some_iff.mp h
  obtain ⟨⟨E, -, hleft, hright⟩, hidentity⟩ := foldlM_column_spec hfold
  rw [hidentity, toMatrix_identity] at hleft
  rw [toMatrix_identity, mul_one] at hright
  rw [← toMatrix_eq_one_iff, toMatrix_mul, hright, ← hleft]

/-- The elimination finds the inverse exactly if there is one. -/
theorem inverse?_eq_some_iff : m.inverse? = some n ↔ n * m = .identity := by
  constructor
  · exact mul_of_inverse?
  · intro h
    have hm : n.toMatrix * m.toMatrix = 1 := by rw [← toMatrix_mul, h, toMatrix_identity]
    have hunit := isUnit_of_mul_eq_identity h
    obtain ⟨e, hfold⟩ := exists_foldlM_column (e := ⟨m, .identity⟩) hunit
    have hfound : m.inverse? = some e.right := by rw [inverse?, hfold, Option.map_some]
    have hright : e.right.toMatrix * m.toMatrix = 1 := by
      rw [← toMatrix_mul, mul_of_inverse? hfound, toMatrix_identity]
    rw [hfound, Option.some_inj]
    exact toMatrix_injective (hunit.mul_right_cancel (hright.trans hm.symm))

/-! ## Singular matrices -/

/-- A column without a pivot turns up exactly if the matrix is singular. -/
theorem inverse?_eq_none_iff : m.inverse? = none ↔ m.toMatrix.det = 0 := by
  have hsingular : m.toMatrix.det = 0 ↔ ¬IsUnit m.toMatrix := by
    rw [Matrix.isUnit_iff_isUnit_det, isUnit_iff_ne_zero, not_not]
  rw [hsingular]
  constructor
  · intro hnone hunit
    obtain ⟨e, hfold⟩ := exists_foldlM_column (e := ⟨m, .identity⟩) hunit
    rw [inverse?, hfold] at hnone
    cases hnone
  · intro hunit
    cases hfound : m.inverse? with
    | none => rfl
    | some n => exact absurd (isUnit_of_mul_eq_identity (mul_of_inverse? hfound)) hunit

/-- **The elimination inverts.** Of every matrix, whatever rows it has to exchange on the way, the
elimination finds no inverse exactly if the determinant is zero, and what it finds is the inverse
from both sides. -/
theorem elimination_inverts (m : Transform K) :
    (m.inverse? = none ↔ m.toMatrix.det = 0) ∧
      ∀ n, m.inverse? = some n → m * n = .identity ∧ n * m = .identity := by
  refine ⟨inverse?_eq_none_iff, ?_⟩
  intro n hfound
  have hleft := mul_of_inverse? hfound
  exact ⟨mul_eq_identity_comm.mp hleft, hleft⟩

/-- The case of a matrix over the real numbers with three zeros on its diagonal, and of one whose
last row is the sum of the two above it. -/
theorem elimination_inverts_shuffled :
    let m : Transform ℝ := ⟨⟨0, 2, 1, 0⟩, ⟨3, 0, 0, 1⟩, ⟨0, 1, 0, 0⟩, ⟨1, 0, 0, 4⟩⟩
    let flat : Transform ℝ := ⟨⟨0, 2, 1, 0⟩, ⟨3, 0, 0, 1⟩, ⟨0, 1, 0, 0⟩, ⟨3, 1, 0, 1⟩⟩
    (∃ n, m.inverse? = some n ∧ m * n = .identity ∧ n * m = .identity) ∧
      flat.inverse? = none := by
  intro m flat
  have hdet : m.toMatrix.det = 11 := by
    simp [Matrix.det_succ_row_zero, Fin.sum_univ_succ, Fin.succAbove, toMatrix_apply, entry, row,
      Homogeneous.get, m]
    norm_num
  have hflat : flat.toMatrix.det = 0 := by
    simp [Matrix.det_succ_row_zero, Fin.sum_univ_succ, Fin.succAbove, toMatrix_apply, entry, row,
      Homogeneous.get, flat]
  obtain ⟨hnone, hinverse⟩ := elimination_inverts m
  refine ⟨?_, (elimination_inverts flat).1.mpr hflat⟩
  cases hfound : m.inverse? with
  | none =>
    rw [hnone.mp hfound] at hdet
    norm_num at hdet
  | some n => exact ⟨n, rfl, hinverse n hfound⟩

end Transform

end PanZoom
