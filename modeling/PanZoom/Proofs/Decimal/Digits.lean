import PanZoom.Decimal.Fixed

namespace PanZoom.Decimal

variable {ds done : List Digit} {rest : List Char} {n : Nat}

theorem foldl_digitsBefore (n : Nat) (done : List Digit) :
    (digitsBefore n done).foldl (fun n (d : Digit) => 10 * n + d.val) 0 =
      done.foldl (fun n (d : Digit) => 10 * n + d.val) n := by
  fun_induction digitsBefore n done with
  | case1 n done h => simp
  | case2 n done h ih =>
    have hback : 10 * (n / 10) + n % 10 = n := Nat.div_add_mod n 10
    simp only [ih, List.foldl_cons, hback]

/-- The digits of a number give the number back. -/
theorem ofDigits_digitsOf (n : Nat) : ofDigits (digitsOf n) = n :=
  foldl_digitsBefore n []

/-- There is a digit, and zero is the first one only if it is the only one. -/
structure IsPlain (ds : List Digit) : Prop where
  nonempty : ds ≠ []
  leading : ds.head? = some Digit.zero → ds.length = 1

theorem isPlain_singleton (d : Digit) : IsPlain [d] :=
  ⟨List.cons_ne_nil d [], fun _ => rfl⟩

/-- The first digit of a number other than zero is not zero. -/
theorem digitsBefore_eq_cons (n : Nat) (done : List Digit) :
    ∃ d ds, digitsBefore n done = d :: ds ∧ (d = Digit.zero → n = 0 ∧ ds = done) := by
  fun_induction digitsBefore n done with
  | case1 n done h => exact ⟨⟨n, h⟩, done, rfl, fun hzero => ⟨congrArg Fin.val hzero, rfl⟩⟩
  | case2 n done h ih =>
    obtain ⟨d, ds, hdigits, hzero⟩ := ih
    exact ⟨d, ds, hdigits, fun hd => by have := (hzero hd).1; omega⟩

theorem isPlain_digitsOf (n : Nat) : IsPlain (digitsOf n) := by
  obtain ⟨d, ds, hdigits, hzero⟩ := digitsBefore_eq_cons n []
  rw [digitsOf, hdigits]
  refine ⟨List.cons_ne_nil d ds, fun hhead => ?_⟩
  rw [(hzero (Option.some_inj.mp hhead)).2]
  rfl

/-- The whole part of a decimal has no zero in front. -/
theorem isPlain_parts (s : Scientific) : IsPlain s.parts.1 := by
  have hplain := isPlain_digitsOf (s.coefficient * Nat.pow 10 s.exponent.toNat)
  unfold Scientific.parts split
  generalize digitsOf (s.coefficient * Nat.pow 10 s.exponent.toNat) = digits at hplain
  generalize (-s.exponent).toNat = places
  have hlength : 0 < digits.length := List.length_pos_iff.mpr hplain.nonempty
  dsimp only
  rcases Nat.lt_or_ge places digits.length with hmany | hfew
  · -- No zeros are put in front, so the whole part begins like the number.
    have hpad : places + 1 - digits.length = 0 := by omega
    simp only [hpad, List.replicate_zero, List.nil_append]
    have hkept : (digits.take (digits.length - places)).length = digits.length - places := by
      simp
    constructor
    · intro hnil
      rw [hnil, List.length_nil] at hkept
      omega
    · intro hhead
      rw [List.head?_take, if_neg (by omega)] at hhead
      have hone := hplain.leading hhead
      omega
  · -- With zeros in front the whole part is one of them.
    have hone : (List.replicate (places + 1 - digits.length) Digit.zero ++ digits).length - places =
        1 := by
      simp only [List.length_append, List.length_replicate]
      omega
    have hpad : places + 1 - digits.length = (places - digits.length) + 1 := by omega
    rw [hone, hpad, List.replicate_succ, List.cons_append]
    exact isPlain_singleton _

theorem digit?_digitChar : ∀ d : Digit, digit? (digitChar d) = some d := by
  decide

def NoDigit (rest : List Char) : Prop :=
  ∀ c ∈ rest.head?, digit? c = none

theorem takeDigits_of_noDigit (h : NoDigit rest) : takeDigits rest = ([], rest) := by
  cases rest with
  | nil => rfl
  | cons c rest =>
    have hc : digit? c = none := h c rfl
    simp only [takeDigits, hc]

/-- Digits are read up to where none comes next. -/
theorem takeDigits_append (ds : List Digit) (h : NoDigit rest) :
    takeDigits (digitText ds ++ rest) = (ds, rest) := by
  induction ds with
  | nil => exact takeDigits_of_noDigit h
  | cons d ds ih =>
    show takeDigits (digitChar d :: (digitText ds ++ rest)) = _
    simp only [takeDigits, digit?_digitChar, ih]

end PanZoom.Decimal
