import PanZoom.Camera.Fit
import PanZoom.Proofs.Precision.Width

namespace PanZoom

section

variable {α : Type} {goOn : α → Bool} {next : α → α} {start p : α} {tries last : ℕ}

/-- Somewhere on the way the loop does not go on. -/
def LoopEnds (goOn : α → Bool) (next : α → α) (start : α) : Prop :=
  ∃ n, goOn (next^[n] start) = false

/-- The loop reaches a number from which it goes on to the same number. -/
def LoopStalls (goOn : α → Bool) (next : α → α) (start : α) : Prop :=
  ∃ n, (∀ i ≤ n, goOn (next^[i] start) = true) ∧ next (next^[n] start) = next^[n] start

/-- After a step that does not move, no step does. -/
theorem iterate_stuck (h : next (next^[last] start) = next^[last] start) {n : ℕ} (hn : last ≤ n) :
    next^[n] start = next^[last] start := by
  induction n, hn using Nat.le_induction with
  | base => rfl
  | succ n _ ih => rw [Function.iterate_succ_apply', ih, h]

theorem LoopStalls.not_ends (h : LoopStalls goOn next start) : ¬LoopEnds goOn next start := by
  obtain ⟨n, hgoes, hstuck⟩ := h
  rintro ⟨i, hi⟩
  rcases le_or_gt i n with hle | hlt
  · rw [hgoes i hle] at hi
    cases hi
  · rw [iterate_stuck hstuck hlt.le, hgoes n le_rfl] at hi
    cases hi

/-- A loop whose steps stop moving ends or stalls. -/
theorem loopStalls_iff (h : next (next^[last] start) = next^[last] start) :
    LoopStalls goOn next start ↔ ¬LoopEnds goOn next start := by
  refine ⟨LoopStalls.not_ends, fun hendless => ⟨last, fun i _ => ?_, h⟩⟩
  by_contra hstop
  exact hendless ⟨i, by simpa using hstop⟩

theorem firstStop_eq_none_iff :
    firstStop goOn next tries start = none ↔ ∀ i < tries, goOn (next^[i] start) = true := by
  induction tries generalizing start with
  | zero => simp [firstStop]
  | succ tries ih =>
    rw [firstStop]
    split
    · rename_i hgoes
      rw [ih]
      constructor
      · intro h i hi
        cases i with
        | zero => exact hgoes
        | succ i => exact h i (Nat.lt_of_succ_lt_succ hi)
      · exact fun h i hi => h (i + 1) (Nat.succ_lt_succ hi)
    · rename_i hstops
      simp only [reduceCtorEq, false_iff, not_forall]
      exact ⟨0, Nat.succ_pos _, hstops⟩

theorem firstStop_of_stop (h : goOn start = false) (htries : 0 < tries) :
    firstStop goOn next tries start = some start := by
  cases tries with
  | zero => cases htries
  | succ tries => rw [firstStop, h, if_neg Bool.false_ne_true]

/-- What is found is the first number at which the loop does not go on. -/
theorem firstStop_eq_some (h : firstStop goOn next tries start = some p) :
    ∃ n, p = next^[n] start ∧ goOn p = false ∧ ∀ i < n, goOn (next^[i] start) = true := by
  induction tries generalizing start with
  | zero => cases h
  | succ tries ih =>
    rw [firstStop] at h
    split at h
    · rename_i hgoes
      -- The same stop is found from the next number, in one step less.
      obtain ⟨n, hp, hstop, hbefore⟩ := ih h
      refine ⟨n + 1, hp, hstop, fun i hi => ?_⟩
      cases i with
      | zero => exact hgoes
      | succ i => exact hbefore i (Nat.lt_of_succ_lt_succ hi)
    · rename_i hstops
      cases h
      exact ⟨0, rfl, by simpa using hstops, fun i hi => absurd hi (Nat.not_lt_zero i)⟩

/-- The tries suffice if the loop ends or stops moving within them. -/
theorem firstStop_none_iff_endless (hstuck : next (next^[last] start) = next^[last] start)
    (hmany : last < tries ∨ ∃ i < tries, goOn (next^[i] start) = false) :
    firstStop goOn next tries start = none ↔ ¬LoopEnds goOn next start := by
  rw [firstStop_eq_none_iff]
  constructor
  · rintro hgoes ⟨n, hn⟩
    rcases hmany with hlast | ⟨i, hi, hstop⟩
    · rcases le_or_gt n last with hle | hlt
      · exact absurd (hgoes n (hle.trans_lt hlast)) (by simp [hn])
      · rw [iterate_stuck hstuck hlt.le] at hn
        exact absurd (hgoes last hlast) (by simp [hn])
    · exact absurd (hgoes i hi) (by simp [hstop])
  · intro hendless i _
    by_contra hstop
    exact hendless ⟨i, by simpa using hstop⟩

end

namespace Single

open Precision

theorem add_one_within {p : Float32} {n : ℕ} (h : Within p n n) (hn : n < 2 ^ 24) :
    Within (p + 1) (n + 1 : ℕ) (n + 1 : ℕ) := by
  have hshort : IsShort (n + 1 : ℕ) := .natCast hn
  refine add_within h.finite one_within.finite ?_ ?_ ⟨hshort, hshort⟩
  · rw [h.eq, one_within.eq, Nat.cast_succ]
  · rw [h.eq, one_within.eq, Nat.cast_succ]

theorem sub_one_within {p : Float32} {n : ℕ} (h : Within p (-n) (-n)) (hn : n < 2 ^ 24) :
    Within (p - 1) (-(n + 1 : ℕ)) (-(n + 1 : ℕ)) := by
  have hshort : IsShort (-(n + 1 : ℕ)) := (IsShort.natCast hn).neg
  have hsum : toRat p - toRat (1 : Float32) = -(n + 1 : ℕ) := by
    rw [h.eq, one_within.eq, Nat.cast_succ]
    ring
  exact sub_within h.finite one_within.finite hsum.ge hsum.le ⟨hshort, hshort⟩

/-- Adding one to `2 ^ 24` gives it back. -/
theorem add_one_stuck {p : Float32} (h : Within p (2 ^ 24 : ℕ) (2 ^ 24 : ℕ)) : p + 1 = p := by
  have hlast : Within (16777216 : Float32) (2 ^ 24 : ℕ) (2 ^ 24 : ℕ) := by with_unfolding_all decide
  have hp : p = 16777216 := eq_of_toRat_eq (h.eq.trans hlast.eq.symm) (by rw [h.eq]; norm_num)
  rw [hp]
  with_unfolding_all decide

theorem sub_one_stuck {p : Float32} (h : Within p (-(2 ^ 24 : ℕ)) (-(2 ^ 24 : ℕ))) : p - 1 = p := by
  have hlast : Within (-16777216 : Float32) (-(2 ^ 24 : ℕ)) (-(2 ^ 24 : ℕ)) := by
    with_unfolding_all decide
  have hp : p = -16777216 := eq_of_toRat_eq (h.eq.trans hlast.eq.symm) (by rw [h.eq]; norm_num)
  rw [hp]
  with_unfolding_all decide

/-- The number after `n` steps up from zero. -/
def countUp (n : ℕ) : Float32 :=
  (· + 1)^[n] 0

/-- The number after `n` steps down from minus one. -/
def countDown (n : ℕ) : Float32 :=
  (· - 1)^[n] (-1)

theorem countUp_within {n : ℕ} (hn : n ≤ 2 ^ 24) : Within (countUp n) n n := by
  induction n with
  | zero => with_unfolding_all decide
  | succ n ih =>
    rw [countUp, Function.iterate_succ_apply']
    exact add_one_within (ih (Nat.le_of_succ_le hn)) hn

theorem countDown_within {n : ℕ} (hn : n < 2 ^ 24) :
    Within (countDown n) (-(n + 1 : ℕ)) (-(n + 1 : ℕ)) := by
  induction n with
  | zero => with_unfolding_all decide
  | succ n ih =>
    rw [countDown, Function.iterate_succ_apply']
    exact sub_one_within (ih (Nat.lt_of_succ_lt hn)) hn

theorem countUp_stuck : countUp (2 ^ 24) + 1 = countUp (2 ^ 24) :=
  add_one_stuck (countUp_within le_rfl)

theorem countDown_stuck : countDown (2 ^ 24 - 1) - 1 = countDown (2 ^ 24 - 1) :=
  sub_one_stuck (countDown_within (by norm_num))

/-- The count up and where it stays. -/
theorem countUp_min (n : ℕ) : Within (countUp n) (min n (2 ^ 24) : ℕ) (min n (2 ^ 24) : ℕ) := by
  rcases le_or_gt n (2 ^ 24) with hle | hlt
  · rw [min_eq_left hle]
    exact countUp_within hle
  · have hsame : countUp n = countUp (2 ^ 24) := iterate_stuck countUp_stuck hlt.le
    rw [min_eq_right hlt.le, hsame]
    exact countUp_within le_rfl

/-- The count down and where it stays. -/
theorem countDown_min (n : ℕ) :
    Within (countDown n) (-(min (n + 1) (2 ^ 24) : ℕ)) (-(min (n + 1) (2 ^ 24) : ℕ)) := by
  rcases Nat.lt_or_ge n (2 ^ 24) with hlt | hge
  · rw [min_eq_left hlt]
    exact countDown_within hlt
  · have hsame : countDown n = countDown (2 ^ 24 - 1) :=
      iterate_stuck countDown_stuck ((Nat.sub_le _ _).trans hge)
    rw [min_eq_right (hge.trans (Nat.le_succ n)), hsame]
    exact countDown_within (by norm_num)

end Single

end PanZoom
