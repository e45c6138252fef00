import PanZoom.Decimal.Fixed

/-!
# JSON numerals

A numeral is kept as it is written. What it is worth depends on who reads it:

* `Numeral.toNat?`: a count, which has neither a sign nor a fraction nor an exponent;
* `Numeral.toDouble?`, `Numeral.toSingle?`: a number of the two precisions;
* `Numeral.ofMagnitude`: the numeral that is written for a number.

Reading a fraction or an exponent takes two roundings: the digits, as many as fit in 64 bits, are
rounded to double precision, and the result is multiplied or divided by a rounded power of ten.
-/

namespace PanZoom

open Binary Decimal

/-- A numeral as written: no fraction digits stand for no point. -/
structure Numeral where
  negative : Bool
  whole : List Digit
  fraction : List Digit
  exponent : Option Int
  deriving DecidableEq, Repr

namespace Numeral

def isWhole (n : Numeral) : Bool :=
  n.fraction.isEmpty && n.exponent.isNone

/-- The greatest significand that reading collects digits into. -/
def greatestSignificand : Nat :=
  UInt64.size - 1

/-- Appends the digits of a whole part to a significand while there is room. The digits left over
are counted. -/
def appendWhole : List Digit → Nat → Nat × Nat
  | [], n => (n, 0)
  | d :: ds, n =>
    if 10 * n + d.val ≤ greatestSignificand then appendWhole ds (10 * n + d.val)
    else (n, ds.length + 1)

/-- Appends the digits of a fraction to a significand while there is room. The digits appended are
counted. -/
def appendFraction : List Digit → Nat → Nat × Nat
  | [], n => (n, 0)
  | d :: ds, n =>
    if 10 * n + d.val ≤ greatestSignificand then
      let (n, used) := appendFraction ds (10 * n + d.val)
      (n, used + 1)
    else (n, 0)

/-- The collected digits and the power of ten they are to be multiplied by. -/
def scientific (n : Numeral) : Scientific :=
  let (significand, left) := appendWhole n.whole 0
  let (significand, used) := appendFraction n.fraction significand
  ⟨significand, (left : Int) - used + n.exponent.getD 0⟩

/-- The power of ten nearest to `10 ^ n` in double precision. -/
def powerOfTen (n : Nat) : Float :=
  Double.ofRatio false (Nat.pow 10 n) 1

def greatestPower : Int :=
  308

/-- The product of a significand and a power of ten, rounded twice. There is none if it is too
large. A division by more than the greatest power is done in two; after the second no significand
is left. -/
def scale? (s : Scientific) : Option Float :=
  let start := Double.ofRatio false s.coefficient 1
  if 0 ≤ s.exponent then
    if s.exponent ≤ greatestPower then
      let scaled := start * powerOfTen s.exponent.toNat
      if scaled.isInf then none else some scaled
    else if s.coefficient = 0 then some start
    else none
  else if -greatestPower ≤ s.exponent then
    some (start / powerOfTen (-s.exponent).toNat)
  else if -(2 * greatestPower) ≤ s.exponent then
    some (start / powerOfTen greatestPower.toNat / powerOfTen (-s.exponent - greatestPower).toNat)
  else some (.ofBits 0)

/-- The numeral as a whole number that fits the machine: unsigned up to 64 bits, or negative down to
`-2 ^ 63`. The negative zero is none of them. -/
def toMachineWhole? (n : Numeral) : Option Int :=
  let s := n.scientific
  if n.isWhole ∧ s.exponent = 0 then
    if n.negative then
      if 0 < s.coefficient ∧ s.coefficient ≤ Nat.pow 2 63 then some (-s.coefficient) else none
    else some s.coefficient
  else none

def toDouble? (n : Numeral) : Option Float :=
  match n.toMachineWhole? with
  | some i => some (Double.ofRatio (i < 0) i.natAbs 1)
  | none => (scale? n.scientific).map fun x => if n.negative then -x else x

/-- The numeral in single precision, if it is in the range of double precision. A whole number is
rounded once, any other number by way of double precision. -/
def toSingle? (n : Numeral) : Option Float32 :=
  match n.toMachineWhole? with
  | some i => some (Single.ofRatio (i < 0) i.natAbs 1)
  | none => n.toDouble?.map Single.ofDouble

def toNat? (bound : Nat) (n : Numeral) : Option Nat :=
  match n.toMachineWhole? with
  | some (.ofNat i) => if i ≤ bound then some i else none
  | _ => none

def ofNat (n : Nat) : Numeral :=
  ⟨false, digitsOf n, [], none⟩

/-- The leading exponents that are written without an exponent. -/
structure Style where
  least : Int
  greatest : Int
  deriving DecidableEq, Repr

/-- Single precision is written plainly from a millionth up to below ten million millions. -/
def singleStyle : Style :=
  ⟨-6, 12⟩

/-- Double precision is written plainly from a hundred-thousandth up to below ten quadrillions. -/
def doubleStyle : Style :=
  ⟨-5, 15⟩

def atLeastOne (fraction : List Digit) : List Digit :=
  if fraction.isEmpty then [Digit.zero] else fraction

/-- The numeral of a decimal. A plain one has a fraction even if it is whole. -/
def ofScientific (style : Style) (negative : Bool) (s : Scientific) : Numeral :=
  let digits := digitsOf s.coefficient
  let leading := s.exponent + (digits.length - 1)
  if style.least ≤ leading ∧ leading ≤ style.greatest then
    ⟨negative, s.parts.1, atLeastOne s.parts.2, none⟩
  else ⟨negative, digits.take 1, digits.drop 1, some leading⟩

/-- The numeral with the shortest digits of a number. Of two equally near ones the even is taken. -/
def ofMagnitude (f : Format) (style : Style) (negative : Bool) (m : Magnitude) : Numeral :=
  ofScientific style negative (shortest f .toEven m)

def exponentText (e : Int) : List Char :=
  (if e < 0 then '-' else '+') :: natText e.natAbs

def text (n : Numeral) : List Char :=
  sign n.negative ++ pointed (n.whole, n.fraction) ++
    match n.exponent with
    | none => []
    | some e => 'e' :: exponentText e

end Numeral

end PanZoom
