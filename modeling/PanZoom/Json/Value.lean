import PanZoom.Json.Numeral

namespace PanZoom

/-- The text of a JSON string. A string with half of a surrogate pair has none; it can be passed
over but not read. -/
abbrev Word := Option String

inductive Json where
  | null
  | bool (b : Bool)
  | number (n : Numeral)
  | word (w : Word)
  | array (items : List Json)
  | object (members : List (Word × Json))

namespace Json

def ofString (s : String) : Json :=
  word (some s)

def ofMembers (members : List (String × Json)) : Json :=
  object (members.map fun m => (some m.1, m.2))

def ofNat (n : Nat) : Json :=
  number (.ofNat n)

/-- The number a value stands for, as it is written. A value that is not finite is written as
null. -/
def ofValue (f : Binary.Format) (style : Numeral.Style) : Binary.Value → Json
  | .finite negative m => number (.ofMagnitude f style negative m)
  | _ => null

def ofSingle (x : Float32) : Json :=
  ofValue Binary.single Numeral.singleStyle (Single.value x)

def ofDouble (x : Float) : Json :=
  ofValue Binary.double Numeral.doubleStyle (Double.value x)

end Json

end PanZoom
