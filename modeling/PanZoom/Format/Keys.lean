import PanZoom.Format.Record
import PanZoom.Input.Bindings

/-!
# Keys and bindings in JSON

A key, a modifier or a mouse button is written as its name, or with what it carries as an object:
`{"char":"i"}`, `{"other":7}`. In the readers `emptyObject` says whether an empty object passes for
null.
-/

namespace PanZoom

namespace Key

/-- The name of a key; all characters have one name. -/
def name : Key → String
  | char _ => "char"
  | plus => "plus"
  | minus => "minus"
  | enter => "enter"
  | escape => "escape"
  | space => "space"
  | up => "up"
  | down => "down"
  | left => "left"
  | right => "right"
  | home => "home"
  | «end» => "end"
  | pageUp => "page_up"
  | pageDown => "page_down"

def plain : List Key :=
  [plus, minus, enter, escape, space, up, down, left, right, home, «end», pageUp, pageDown]

def ofName? (s : String) : Option Key :=
  plain.find? (·.name = s)

def toJson : Key → Json
  | char c => .ofMembers [("char", .ofString (String.singleton c))]
  | k => .ofString k.name

def ofJson? (emptyObject : Bool) (v : Json) : Option Key :=
  match v.choice? with
  | some ("char", some carried) => carried.toChar?.map char
  | _ => v.named? emptyObject ofName?

end Key

namespace ModifierKey

def name : ModifierKey → String
  | control => "control"
  | shift => "shift"
  | alt => "alt"
  | .meta => "meta"

def every : List ModifierKey :=
  [control, shift, alt, .meta]

def ofName? (s : String) : Option ModifierKey :=
  every.find? (·.name = s)

def toJson (k : ModifierKey) : Json :=
  .ofString k.name

def ofJson? (v : Json) : Option ModifierKey :=
  v.named? false ofName?

end ModifierKey

namespace MouseButton

/-- The name of a button; all numbered ones have one name. -/
def name : MouseButton → String
  | left => "left"
  | right => "right"
  | middle => "middle"
  | other _ => "other"

def plain : List MouseButton :=
  [left, right, middle]

def ofName? (s : String) : Option MouseButton :=
  plain.find? (·.name = s)

def toJson : MouseButton → Json
  | other code => .ofMembers [("other", .ofNat code.toNat)]
  | b => .ofString b.name

def ofJson? (emptyObject : Bool) (v : Json) : Option MouseButton :=
  match v.choice? with
  | some ("other", some carried) =>
      (carried.toNat? (UInt16.size - 1)).map fun code => other (UInt16.ofNat code)
  | _ => v.named? emptyObject ofName?

end MouseButton

namespace Bindings

def fieldNames : List String :=
  ["modifier", "zoom_in", "zoom_out", "recenter"]

def toJson (b : Bindings) : Json :=
  .ofMembers
    [("modifier", b.modifier.toJson), ("zoom_in", b.zoomIn.toJson),
     ("zoom_out", b.zoomOut.toJson), ("recenter", b.recenter.toJson)]

/-- The bindings that a record stands for. A field left out has its default. -/
def ofJson? (v : Json) : Option Bindings :=
  match v.fields? fieldNames with
  | some [modifier, zoomIn, zoomOut, recenter] => do
      let modifier ← Json.optional ModifierKey.ofJson? default.modifier modifier
      let zoomIn ← Json.optional (Key.ofJson? false) default.zoomIn zoomIn
      let zoomOut ← Json.optional (Key.ofJson? false) default.zoomOut zoomOut
      let recenter ← Json.optional (Key.ofJson? false) default.recenter recenter
      return ⟨modifier, zoomIn, zoomOut, recenter⟩
  | _ => none

end Bindings

end PanZoom
