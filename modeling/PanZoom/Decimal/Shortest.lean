import PanZoom.Binary.Number
import PanZoom.Decimal.Digits

/-!
# The fewest digits that read back

Every number between two midpoints reads back as the same machine number. Among the decimals in
that interval the shortest is chosen, and of several shortest ones the nearest to the number:

* `Interval.ofMagnitude`: the interval, its ends included when the significand is even;
* `shortest`: the chosen decimal.

A decimal with `n` digits is looked for only next to the number: if any decimal of the grid lies in
the interval, one of the number's two neighbours on the grid does.
-/

namespace PanZoom.Decimal

open Binary

/-- The number `coefficient * 10 ^ exponent`. -/
structure Scientific where
  coefficient : Nat
  exponent : Int
  deriving DecidableEq, Repr

/-- Which of two equally near neighbours is taken. -/
inductive Tie where
  | toEven
  | up
  deriving DecidableEq, Repr

/-- A number and the interval that rounds to it, all in units of `num / den`: the number is `size`
units, the interval reaches `below` units down and `above` units up. -/
structure Interval where
  size : Nat
  below : Nat
  above : Nat
  num : Nat
  den : Nat
  closed : Bool
  deriving DecidableEq, Repr

/-- The interval of a positive magnitude, in quarters of its last place. Just above a power of two
the numbers below lie twice as dense. -/
def Interval.ofMagnitude (f : Format) (m : Magnitude) : Interval :=
  { size := 4 * m.significand
    below :=
      if m.significand = Nat.pow 2 f.fractionBits ∧ f.leastExponent < m.exponent then 1 else 2
    above := 2
    num := Nat.pow 2 (m.exponent - 2).toNat
    den := Nat.pow 2 (2 - m.exponent).toNat
    closed := m.significand % 2 = 0 }

namespace Interval

/-- Compares, allowing equality only if the interval holds its ends. -/
def precedes (i : Interval) (a b : Nat) : Bool :=
  if i.closed then a ≤ b else a < b

def leadingExponent (i : Interval) : Int :=
  let num := i.size * i.num
  if i.den ≤ num then (digitsOf (num / i.den)).length - 1
  else
    let places := (digitsOf (i.den / num)).length
    if i.den ≤ num * Nat.pow 10 (places - 1) then -(places - 1) else -places

/-- The neighbour of the number on the grid `10 ^ exponent` that lies in the interval; the nearer
one if both do. -/
def onGrid? (i : Interval) (tie : Tie) (exponent : Int) : Option Scientific :=
  let unit := i.num * Nat.pow 10 (-exponent).toNat
  let step := i.den * Nat.pow 10 exponent.toNat
  let number := i.size * unit
  let lower := number / step
  let rest := number % step
  let lowerHits := i.precedes ((i.size - i.below) * unit) (lower * step)
  let upperHits := i.precedes ((lower + 1) * step) ((i.size + i.above) * unit)
  let nearer :=
    match compare (2 * rest) step with
    | .lt => lower
    | .gt => lower + 1
    | .eq => if tie = .up ∨ lower % 2 = 1 then lower + 1 else lower
  match lowerHits, upperHits with
  | true, true => some ⟨nearer, exponent⟩
  | true, false => some ⟨lower, exponent⟩
  | false, true => some ⟨lower + 1, exponent⟩
  | false, false => none

end Interval

/-- The number of digits that always suffice: seventeen for double precision, nine for single. -/
def digitBound : Nat :=
  17

def exact (m : Magnitude) : Scientific :=
  if 0 ≤ m.exponent then ⟨m.significand * Nat.pow 2 m.exponent.toNat, 0⟩
  else ⟨m.significand * Nat.pow 5 (-m.exponent).toNat, m.exponent⟩

/-- The same number with no zero at the end of its coefficient; at most `count` zeros are taken. -/
def Scientific.trim (s : Scientific) : (count : Nat) → Scientific
  | 0 => s
  | count + 1 =>
    if s.coefficient % 10 = 0 then trim ⟨s.coefficient / 10, s.exponent + 1⟩ count else s

/-- The shortest decimal that reads back as the magnitude, and the nearest to it of those. -/
def shortest (f : Format) (tie : Tie) (m : Magnitude) : Scientific :=
  if m.significand = 0 then ⟨0, 0⟩
  else
    let i := Interval.ofMagnitude f m
    let top := i.leadingExponent
    let found := (List.range digitBound).findSome? fun (n : Nat) => i.onGrid? tie (top - n)
    (found.getD (exact m)).trim digitBound

end PanZoom.Decimal
