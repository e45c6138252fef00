import PanZoom.Json.Token

/-!
# From tokens to values

The tokens are read one by one. What is still open around the place of reading is a stack, so a
value may nest as deeply as it likes:

* `Place`: what may come next;
* `Place.read?`: the place after one more token;
* `Json.parse?`: the value of a text, if the text is one value;
* `Json.parseStrict?`: the same for texts that must be sound throughout, even where no one will
  look.
-/

namespace PanZoom

/-- A container that is open: an array with its items so far, or an object with its members so far
and the name of the member being read. The last item or member comes first. -/
inductive Frame where
  | array (items : List Json)
  | object (members : List (Word × Json)) (name : Word)

/-- What may come next. -/
inductive Place where
  /-- A value must come. -/
  | value (stack : List Frame)
  /-- An array has just been opened: its first item or its end must come. -/
  | firstItem (stack : List Frame)
  /-- An object has just been opened: its first name or its end must come. -/
  | firstName (stack : List Frame)
  /-- Another name must come. -/
  | name (members : List (Word × Json)) (stack : List Frame)
  /-- The colon after a name must come. -/
  | colon (members : List (Word × Json)) (name : Word) (stack : List Frame)
  /-- A value is complete: a comma or the end of its container must come, or the text must end. -/
  | done (v : Json) (stack : List Frame)

namespace Place

/-- The place after a token that begins or is a value. -/
def beginValue? (stack : List Frame) : Token → Option Place
  | .openBrace => some (firstName stack)
  | .openBracket => some (firstItem stack)
  | .null => some (done .null stack)
  | .bool b => some (done (.bool b) stack)
  | .number n => some (done (.number n) stack)
  | .word w => some (done (.word w) stack)
  | _ => none

/-- The place after one more token. -/
def read? : Place → Token → Option Place
  | value stack, t => beginValue? stack t
  | firstItem stack, .closeBracket => some (done (.array []) stack)
  | firstItem stack, t => beginValue? (.array [] :: stack) t
  | firstName stack, .closeBrace => some (done (.object []) stack)
  | firstName stack, .word w => some (colon [] w stack)
  | name members stack, .word w => some (colon members w stack)
  | colon members w stack, .colon => some (value (.object members w :: stack))
  | done v (.array items :: stack), .comma => some (value (.array (v :: items) :: stack))
  | done v (.array items :: stack), .closeBracket =>
      some (done (.array (v :: items).reverse) stack)
  | done v (.object members w :: stack), .comma => some (name ((w, v) :: members) stack)
  | done v (.object members w :: stack), .closeBrace =>
      some (done (.object ((w, v) :: members).reverse) stack)
  | _, _ => none

def result? : Place → Option Json
  | done v [] => some v
  | _ => none

end Place

namespace Json

def ofTokens? (tokens : List Token) : Option Json :=
  (tokens.foldlM Place.read? (.value [])).bind Place.result?

def parse? (text : String) : Option Json :=
  (Token.scan? text.toList).bind ofTokens?

/-- The deepest nesting of a sound text. -/
def depthBound : Nat :=
  127

def nestingAfter (depth : Nat) : Token → Nat
  | .openBrace => depth + 1
  | .openBracket => depth + 1
  | .closeBrace => depth - 1
  | .closeBracket => depth - 1
  | _ => depth

/-- From the given nesting on, no token nests too deeply. -/
def isShallow : (depth : Nat) → List Token → Bool
  | _, [] => true
  | depth, t :: rest => nestingAfter depth t ≤ depthBound && isShallow (nestingAfter depth t) rest

/-- A token that can be read: a numeral is in range, a string has a text. -/
def isReadable : Token → Bool
  | .number n => n.toDouble?.isSome
  | .word w => w.isSome
  | _ => true

/-- The value of a text that is sound throughout. -/
def parseStrict? (text : String) : Option Json :=
  match Token.scan? text.toList with
  | none => none
  | some tokens =>
    if tokens.all isReadable && isShallow 0 tokens then ofTokens? tokens else none

end Json

end PanZoom
