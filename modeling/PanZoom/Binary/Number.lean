import PanZoom.Binary.Format

namespace PanZoom

open Binary

namespace Single

def value (x : Float32) : Value :=
  single.value x.toBits.toNat

/-- The single-precision number nearest to `± num / den`. -/
def ofRatio (negative : Bool) (num den : Nat) : Float32 :=
  .ofBits (.ofNat (single.signed negative (single.nearest num den)))

/-- The greatest whole number that is no greater than `x`. A number that is whole or has no finite
value is its own floor, with its sign. -/
def floor (x : Float32) : Float32 :=
  match value x with
  | .finite negative m =>
      if 0 ≤ m.exponent ∨ m.significand = 0 then x
      else
        let unit := Nat.pow 2 (-m.exponent).toNat
        let whole := m.significand / unit
        ofRatio negative (if negative ∧ m.significand % unit ≠ 0 then whole + 1 else whole) 1
  | _ => x

/-- One and a half times `2 ^ (-97)`, whose last place is the least step of single precision. Adding
it rounds a smaller number to a multiple of that, and the sum's word counts the steps. -/
def countingBase : UInt64 :=
  0x39e8000000000000

/-- The word of the magnitude nearest to one whose double-precision word is given. In the normal
range the exponent's offset is exchanged and the last 29 bits are rounded away, a tie to even, with
any carry going into the exponent; below it the steps are counted. An undefined number stays one. -/
def nearestWord (size : UInt64) : UInt64 :=
  if 0x7ff0000000000000 < size then 0x7fc00000
  else if 0x47f0000000000000 ≤ size then 0x7f800000
  else if 0x3810000000000000 ≤ size then
    let moved := size - 0x3800000000000000
    (moved + 0xfffffff + moved / 0x20000000 % 2) / 0x20000000
  else (Float.ofBits size + .ofBits countingBase).toBits - countingBase

/-- The single-precision number nearest to a double-precision one. -/
def ofDouble (x : Float) : Float32 :=
  let word := x.toBits
  .ofBits (((word >>> 63) <<< 31) ||| nearestWord (word &&& 0x7fffffffffffffff)).toUInt32

/-- The least positive number of single precision, in double precision. -/
def leastStep : Float :=
  .ofBits 0x36a0000000000000

/-- The double-precision number with the same value. The fields move to their places in the longer
word, with the exponent's offset made up for; below the normal numbers the fraction is counted. -/
def toDouble (x : Float32) : Float :=
  let word := x.toBits.toUInt64
  let fraction := word &&& 0x7fffff
  let field := (word >>> 23) &&& 0xff
  let size : Float :=
    if field = 0 then fraction.toFloat * leastStep
    else
      let widened : UInt64 := if field = 0xff then 0x7ff else field + 896
      .ofBits ((widened <<< 52) ||| (fraction <<< 29))
  if word >>> 31 = 0 then size else -size

end Single

namespace Double

def value (x : Float) : Value :=
  double.value x.toBits.toNat

def ofRatio (negative : Bool) (num den : Nat) : Float :=
  .ofBits (.ofNat (double.signed negative (double.nearest num den)))

def signed (negative : Bool) (size : Nat) : Int :=
  if negative then -size else size

/-- The product of two numbers with a third one added, rounded once. -/
def multiplyAdd (a b c : Float) : Float :=
  match value a, value b, value c with
  | .finite aSign aSize, .finite bSign bSize, .finite cSign cSize =>
      let exponent := aSize.exponent + bSize.exponent
      let least := min exponent cSize.exponent
      let product := signed (aSign != bSign) (aSize.significand * bSize.significand)
      let sum := product * Nat.pow 2 (exponent - least).toNat
        + signed cSign cSize.significand * Nat.pow 2 (cSize.exponent - least).toNat
      if sum = 0 then a * b + c
      else ofRatio (sum < 0) (sum.natAbs <<< least.toNat) (1 <<< (-least).toNat)
  | _, _, _ => a * b + c

end Double

end PanZoom
