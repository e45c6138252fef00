import PanZoom.Format.Keys
import PanZoom.Input.Event
import PanZoom.Json.Render

/-!
# Events in JSON

An event is an object whose member `type` names its kind, beside the fields of that kind, or an
array that begins with the kind and goes on with the fields. The kind may stand anywhere among the
members, so the whole value is held before it is read:

* `Event.toJson`, `Event.ofJson?`: between events and values;
* `Event.read?`, `Event.readScript?`: events from texts, which must be sound throughout.
-/

namespace PanZoom

namespace Point

def fieldNames : List String :=
  ["x", "y"]

def toJson (p : Point Float32) : Json :=
  .ofMembers [("x", .ofSingle p.x), ("y", .ofSingle p.y)]

def ofJson? (v : Json) : Option (Point Float32) :=
  match v.fields? fieldNames with
  | some [x, y] => do
      let x ← Json.required Json.toSingle? x
      let y ← Json.required Json.toSingle? y
      return ⟨x, y⟩
  | _ => none

end Point

namespace Modifiers

def fieldNames : List String :=
  ["shift", "ctrl", "alt", "meta"]

def toJson (m : Modifiers) : Json :=
  .ofMembers
    [("shift", .bool m.shift), ("ctrl", .bool m.ctrl), ("alt", .bool m.alt), ("meta", .bool m.meta)]

/-- The modifiers that a record stands for. One left out is not held. -/
def ofJson? (v : Json) : Option Modifiers :=
  match v.fields? fieldNames with
  | some [shift, ctrl, alt, command] => do
      let shift ← Json.optional Json.toBool? false shift
      let ctrl ← Json.optional Json.toBool? false ctrl
      let alt ← Json.optional Json.toBool? false alt
      let command ← Json.optional Json.toBool? false command
      return ⟨shift, ctrl, alt, command⟩
  | _ => none

end Modifiers

namespace Event

inductive Kind where
  | resized
  | mousePressed
  | mouseReleased
  | mouseMoved
  | mouseWheel
  | keyPressed
  | keyReleased
  deriving DecidableEq, Repr

def Kind.name : Kind → String
  | resized => "resized"
  | mousePressed => "mouse_pressed"
  | mouseReleased => "mouse_released"
  | mouseMoved => "mouse_moved"
  | mouseWheel => "mouse_wheel"
  | keyPressed => "key_pressed"
  | keyReleased => "key_released"

def Kind.every : List Kind :=
  [resized, mousePressed, mouseReleased, mouseMoved, mouseWheel, keyPressed, keyReleased]

def Kind.ofName? (s : String) : Option Kind :=
  every.find? (·.name = s)

def Kind.fieldNames : Kind → List String
  | resized => ["width", "height"]
  | mousePressed => ["button", "position"]
  | mouseReleased => ["button", "position"]
  | mouseMoved => ["position"]
  | mouseWheel => ["delta", "position"]
  | keyPressed => ["key", "modifiers"]
  | keyReleased => ["key", "modifiers"]

def kindName : String :=
  "type"

def kind {α : Type} : Event α → Kind
  | .resized _ => .resized
  | .mousePressed _ _ => .mousePressed
  | .mouseReleased _ _ => .mouseReleased
  | .mouseMoved _ => .mouseMoved
  | .mouseWheel _ _ => .mouseWheel
  | .keyPressed _ _ => .keyPressed
  | .keyReleased _ _ => .keyReleased

def fieldValues : Event Float32 → List Json
  | .resized size => [.ofNat size.width.toNat, .ofNat size.height.toNat]
  | .mousePressed button position => [button.toJson, position.toJson]
  | .mouseReleased button position => [button.toJson, position.toJson]
  | .mouseMoved position => [position.toJson]
  | .mouseWheel delta position => [.ofSingle delta, position.toJson]
  | .keyPressed key modifiers => [key.toJson, modifiers.toJson]
  | .keyReleased key modifiers => [key.toJson, modifiers.toJson]

/-- The event as JSON, its kind first. -/
def toJson (e : Event Float32) : Json :=
  .ofMembers ((kindName, .ofString e.kind.name) :: e.kind.fieldNames.zip e.fieldValues)

def ofFields? : Kind → List (Option Json) → Option (Event Float32)
  | .resized, [width, height] => do
      let width ← Json.required Json.toCount? width
      let height ← Json.required Json.toCount? height
      return resized ⟨width, height⟩
  | .mousePressed, [button, position] => do
      let button ← Json.required (MouseButton.ofJson? true) button
      let position ← Json.required Point.ofJson? position
      return mousePressed button position
  | .mouseReleased, [button, position] => do
      let button ← Json.required (MouseButton.ofJson? true) button
      let position ← Json.required Point.ofJson? position
      return mouseReleased button position
  | .mouseMoved, [position] => do
      let position ← Json.required Point.ofJson? position
      return mouseMoved position
  | .mouseWheel, [delta, position] => do
      let delta ← Json.required Json.toSingle? delta
      let position ← Json.required Point.ofJson? position
      return mouseWheel delta position
  | .keyPressed, [key, modifiers] => do
      let key ← Json.required (Key.ofJson? true) key
      let modifiers ← Json.optional Modifiers.ofJson? .released modifiers
      return keyPressed key modifiers
  | .keyReleased, [key, modifiers] => do
      let key ← Json.required (Key.ofJson? true) key
      let modifiers ← Json.optional Modifiers.ofJson? .released modifiers
      return keyReleased key modifiers
  | _, _ => none

def ofKindAndRecord? (kind record : Json) : Option (Event Float32) :=
  match kind with
  | .word (some name) => do
      let kind ← Kind.ofName? name
      let fields ← record.fields? kind.fieldNames
      ofFields? kind fields
  | _ => none

def ofJson? : Json → Option (Event Float32)
  | .object members =>
    match Json.valuesOf members kindName with
    | [kind] => ofKindAndRecord? kind (.object members)
    | _ => none
  | .array (kind :: rest) => ofKindAndRecord? kind (.array rest)
  | _ => none

def scriptOfJson? : Json → Option (List (Event Float32))
  | .array items => items.mapM ofJson?
  | _ => none

def scriptToJson (events : List (Event Float32)) : Json :=
  .array (events.map toJson)

def read? (text : String) : Option (Event Float32) :=
  (Json.parseStrict? text).bind ofJson?

def readScript? (text : String) : Option (List (Event Float32)) :=
  (Json.parseStrict? text).bind scriptOfJson?

end Event

end PanZoom
