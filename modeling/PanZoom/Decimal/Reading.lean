import PanZoom.Binary.Number
import PanZoom.Decimal.Digits

namespace PanZoom.Decimal

inductive ReadError where
  | empty
  | malformed
  deriving DecidableEq, Repr

def ReadError.message : ReadError → String
  | empty => "cannot parse float from empty string"
  | malformed => "invalid float literal"

/-- The number nearest to `digits * 10 ^ exponent`. Powers of ten beyond the format's range are not
worked out: the number of digits and the exponent tell that the result is infinite or zero. -/
def nearestSingle (negative : Bool) (digits : Nat) (exponent : Int) : Float32 :=
  let leading := exponent + (digitsOf digits).length
  if digits = 0 ∨ leading < -60 then Single.ofRatio negative 0 1
  else if 60 < leading then Single.ofRatio negative (Nat.pow 10 60) 1
  else
    Single.ofRatio negative (digits * Nat.pow 10 exponent.toNat) (Nat.pow 10 (-exponent).toNat)

/-- The exponent after the digits, if nothing else follows. -/
def typedExponent? : List Char → Option Int
  | [] => some 0
  | c :: rest =>
    if c = 'e' ∨ c = 'E' then
      let (negative, rest) :=
        match rest with
        | '-' :: rest => (true, rest)
        | '+' :: rest => (false, rest)
        | rest => (false, rest)
      match takeDigits rest with
      | (d :: ds, []) => some (if negative then -(ofDigits (d :: ds)) else ofDigits (d :: ds))
      | _ => none
    else none

/-- A decimal without its sign. At least one digit comes before or after the point. -/
def typedDecimal? (negative : Bool) (text : List Char) : Option Float32 :=
  let (whole, rest) := takeDigits text
  let (fraction, rest) :=
    match rest with
    | '.' :: rest => takeDigits rest
    | rest => ([], rest)
  if whole.isEmpty && fraction.isEmpty then none
  else
    (typedExponent? rest).map fun exponent =>
      nearestSingle negative (ofDigits (whole ++ fraction)) (exponent - fraction.length)

/-- The words for numbers without a finite value, in lower case. -/
def typedWord? (negative : Bool) (text : List Char) : Option Float32 :=
  let word := String.ofList (text.map Char.toLower)
  if word = "inf" ∨ word = "infinity" then
    some (.ofBits (.ofNat (Binary.single.signed negative Binary.single.infinity)))
  else if word = "nan" then some (.ofBits (.ofNat (Binary.single.infinity + 1)))
  else none

def readSingle (text : String) : Except ReadError Float32 :=
  match text.toList with
  | [] => .error .empty
  | c :: rest =>
    let negative := c = '-'
    let body := if c = '-' ∨ c = '+' then rest else c :: rest
    match typedDecimal? negative body with
    | some x => .ok x
    | none =>
      match typedWord? negative body with
      | some x => .ok x
      | none => .error .malformed

end PanZoom.Decimal
