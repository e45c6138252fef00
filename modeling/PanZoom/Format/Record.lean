import PanZoom.Json.Parse

/-!
# Records and choices in JSON

A record is an object with named fields, in any order, or an array of the fields in their fixed
order. Members with other names are passed over, but a field may be given only once. An array may
stop short of fields that can be left out, and may not be longer than the record.

A choice is a name, or an object whose only member has that name and holds what the choice carries.
-/

namespace PanZoom.Json

def valuesOf (members : List (Word × Json)) (name : String) : List Json :=
  (members.filter fun m => m.1 = some name).map Prod.snd

/-- The only value in a list, if there is one. Two values are refused. -/
def atMostOne? : List Json → Option (Option Json)
  | [] => some none
  | [v] => some (some v)
  | _ => none

def fields? (names : List String) : Json → Option (List (Option Json))
  | object members =>
      if members.all (·.1.isSome) then names.mapM fun name => atMostOne? (valuesOf members name)
      else none
  | array items =>
      if items.length ≤ names.length then
        some (items.map some ++ List.replicate (names.length - items.length) none)
      else none
  | _ => none

def required {α : Type} (read : Json → Option α) (field : Option Json) : Option α :=
  field.bind read

def optional {α : Type} (read : Json → Option α) (default : α) : Option Json → Option α
  | none => some default
  | some v => read v

/-- What stands where nothing is carried: null or, where `emptyObject` says so, an object without
members. -/
def isNothing (emptyObject : Bool) : Json → Bool
  | null => true
  | object [] => emptyObject
  | _ => false

/-- The name of a choice and what it carries, if that is given. -/
def choice? : Json → Option (String × Option Json)
  | word (some name) => some (name, none)
  | object [(some name, v)] => some (name, some v)
  | _ => none

/-- A choice among names that carry nothing. -/
def named? {α : Type} (emptyObject : Bool) (ofName? : String → Option α) (v : Json) : Option α :=
  match choice? v with
  | some (name, none) => ofName? name
  | some (name, some carried) => if isNothing emptyObject carried then ofName? name else none
  | none => none

def toBool? : Json → Option Bool
  | bool b => some b
  | _ => none

def toNat? (bound : Nat) : Json → Option Nat
  | number n => n.toNat? bound
  | _ => none

def toCount? (v : Json) : Option UInt32 :=
  (v.toNat? (UInt32.size - 1)).map UInt32.ofNat

def toSingle? : Json → Option Float32
  | number n => n.toSingle?
  | _ => none

def toDouble? : Json → Option Float
  | number n => n.toDouble?
  | _ => none

/-- A string of exactly one character. -/
def toChar? : Json → Option Char
  | word (some s) =>
    match s.toList with
    | [c] => some c
    | _ => none
  | _ => none

end PanZoom.Json
