/-!
# Binary floating-point formats

A finite magnitude of a format is `significand * 2 ^ exponent`, with a bounded significand and an
exponent that never falls below the format's least one:

* `roundRatio`: the natural number nearest to a quotient, a tie going to the even neighbour;
* `Format.nearest`: the word of the magnitude nearest to a quotient of natural numbers;
* `Format.magnitude`: the significand and the exponent that a finite word stands for;
* `Format.value`: what a word with its sign bit stands for.
-/

namespace PanZoom.Binary

/-- The natural number nearest to `num / den`; a half goes to the even neighbour. -/
def roundRatio (num den : Nat) : Nat :=
  let whole := num / den
  match compare (2 * (num % den)) den with
  | .lt => whole
  | .gt => whole + 1
  | .eq => whole + whole % 2

/-- The number of bits of the two fields of a word. -/
structure Format where
  fractionBits : Nat
  exponentBits : Nat
  deriving DecidableEq, Repr

/-- A significand and the power of two it is multiplied by. -/
structure Magnitude where
  significand : Nat
  exponent : Int
  deriving DecidableEq, Repr

def single : Format := ⟨23, 8⟩

def double : Format := ⟨52, 11⟩

namespace Format

/-- The exponent of the least positive magnitude, and of every magnitude below the normal ones. -/
def leastExponent (f : Format) : Int :=
  2 - Nat.pow 2 (f.exponentBits - 1) - f.fractionBits

/-- The word of infinity: all exponent bits set, no fraction. -/
def infinity (f : Format) : Nat :=
  (Nat.pow 2 f.exponentBits - 1) * Nat.pow 2 f.fractionBits

/-- The greatest `e` with `2 ^ e ≤ num / den`, for positive `num` and `den`. -/
def floorLog2 (num den : Nat) : Int :=
  let guess : Int := (num.log2 : Int) - (den.log2 : Int)
  if num <<< (-guess).toNat < den <<< guess.toNat then guess - 1 else guess

/-- The word of the magnitude nearest to `num / den`; a tie goes to the even significand, and what
is too large for the format becomes infinity.

The exponent is the least one that leaves room for the leading bit. Adding the significand to the
exponent's offset carries into the exponent field exactly when a leading bit is present. -/
def nearest (f : Format) (num den : Nat) : Nat :=
  if num = 0 then 0
  else
    let exponent := max (floorLog2 num den - f.fractionBits) f.leastExponent
    let significand := roundRatio (num <<< (-exponent).toNat) (den <<< exponent.toNat)
    min ((exponent - f.leastExponent).toNat * Nat.pow 2 f.fractionBits + significand) f.infinity

/-- The value of a finite word: below the normal words the leading bit is absent. -/
def magnitude (f : Format) (word : Nat) : Magnitude :=
  let fraction := word % Nat.pow 2 f.fractionBits
  let field := word / Nat.pow 2 f.fractionBits
  if field = 0 then ⟨fraction, f.leastExponent⟩
  else ⟨Nat.pow 2 f.fractionBits + fraction, f.leastExponent + (field - 1)⟩

def signBit (f : Format) : Nat :=
  Nat.pow 2 (f.fractionBits + f.exponentBits)

def signed (f : Format) (negative : Bool) (word : Nat) : Nat :=
  if negative then f.signBit + word else word

end Format

/-- What a word stands for. Zero keeps its sign. -/
inductive Value where
  | undefined
  | infinite (negative : Bool)
  | finite (negative : Bool) (magnitude : Magnitude)
  deriving DecidableEq, Repr

def Format.value (f : Format) (word : Nat) : Value :=
  let negative := f.signBit ≤ word
  let rest := word % f.signBit
  if rest < f.infinity then .finite negative (f.magnitude rest)
  else if rest = f.infinity then .infinite negative
  else .undefined

end PanZoom.Binary
