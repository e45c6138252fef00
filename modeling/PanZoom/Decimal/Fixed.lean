import PanZoom.Decimal.Shortest

/-!
# Numbers as people read them

Two forms that never use an exponent, for status lines and reports:

* `plain`: the shortest digits that read back, no point in a whole number;
* `fixed`: a given number of places, the exact value rounded with halves to even.

A number below zero keeps its sign even where it shows as zero.
-/

namespace PanZoom.Decimal

open Binary

def undefinedText : List Char :=
  "NaN".toList

def infinityText : List Char :=
  "inf".toList

def sign (negative : Bool) : List Char :=
  if negative then ['-'] else []

/-- The digits of the whole part and of the fraction, at least `places` of them. -/
def split (digits : List Digit) (places : Nat) : List Digit × List Digit :=
  let padded := List.replicate (places + 1 - digits.length) Digit.zero ++ digits
  (padded.take (padded.length - places), padded.drop (padded.length - places))

/-- A decimal without an exponent: its whole part and its fraction, which may be empty. -/
def Scientific.parts (s : Scientific) : List Digit × List Digit :=
  split (digitsOf (s.coefficient * Nat.pow 10 s.exponent.toNat)) (-s.exponent).toNat

/-- A whole part, and a fraction after a point if there is any. -/
def pointed (parts : List Digit × List Digit) : List Char :=
  digitText parts.1 ++ if parts.2.isEmpty then [] else '.' :: digitText parts.2

/-- The number with its shortest digits. Of two equally near ones the larger is taken. -/
def plain (f : Format) : Value → List Char
  | .undefined => undefinedText
  | .infinite negative => sign negative ++ infinityText
  | .finite negative m => sign negative ++ pointed (shortest f .up m).parts

/-- The nearest multiple of `10 ^ -places`, counted in that unit. -/
def roundedUnits (m : Magnitude) (places : Nat) : Nat :=
  roundRatio (m.significand * Nat.pow 2 m.exponent.toNat * Nat.pow 10 places)
    (Nat.pow 2 (-m.exponent).toNat)

/-- The number with exactly the given number of places. -/
def fixed (places : Nat) : Value → List Char
  | .undefined => undefinedText
  | .infinite negative => sign negative ++ infinityText
  | .finite negative m =>
      sign negative ++ pointed (split (digitsOf (roundedUnits m places)) places)

def padLeft (width : Nat) (text : List Char) : List Char :=
  List.replicate (width - text.length) ' ' ++ text

end PanZoom.Decimal
