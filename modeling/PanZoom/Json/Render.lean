import PanZoom.Json.Value

namespace PanZoom.Json

open Decimal

def hexChar (n : Nat) : Char :=
  if n < 10 then Char.ofNat (48 + n) else Char.ofNat (87 + n)

def escape (c : Char) : List Char :=
  if c = '"' then ['\\', '"']
  else if c = '\\' then ['\\', '\\']
  else if c = '\x08' then ['\\', 'b']
  else if c = '\x0c' then ['\\', 'f']
  else if c = '\n' then ['\\', 'n']
  else if c = '\r' then ['\\', 'r']
  else if c = '\t' then ['\\', 't']
  else if c < ' ' then ['\\', 'u', '0', '0', hexChar (c.toNat / 16), hexChar (c.toNat % 16)]
  else [c]

def quoted (s : String) : List Char :=
  '"' :: s.toList.flatMap escape ++ ['"']

/-- The text of a string. One that has no text is left empty. -/
def wordText (w : Word) : List Char :=
  quoted (w.getD "")

def boolText (b : Bool) : List Char :=
  if b then ['t', 'r', 'u', 'e'] else ['f', 'a', 'l', 's', 'e']

mutual

def compactText : Json → List Char
  | null => ['n', 'u', 'l', 'l']
  | bool b => boolText b
  | number n => n.text
  | word w => wordText w
  | array items => '[' :: compactItems items ++ [']']
  | object members => '\x7b' :: compactMembers members ++ ['\x7d']

def compactItems : List Json → List Char
  | [] => []
  | [v] => compactText v
  | v :: rest => compactText v ++ ',' :: compactItems rest

def compactMembers : List (Word × Json) → List Char
  | [] => []
  | [(w, v)] => wordText w ++ ':' :: compactText v
  | (w, v) :: rest => wordText w ++ ':' :: compactText v ++ ',' :: compactMembers rest

end

def newline (level : Nat) : List Char :=
  '\n' :: List.replicate (2 * level) ' '

mutual

/-- The value with one member or item a line, inside containers of the given number. -/
def prettyText (level : Nat) : Json → List Char
  | null => ['n', 'u', 'l', 'l']
  | bool b => boolText b
  | number n => n.text
  | word w => wordText w
  | array [] => ['[', ']']
  | array items => '[' :: prettyItems (level + 1) items ++ newline level ++ [']']
  | object [] => ['\x7b', '\x7d']
  | object members => '\x7b' :: prettyMembers (level + 1) members ++ newline level ++ ['\x7d']

def prettyItems (level : Nat) : List Json → List Char
  | [] => []
  | [v] => newline level ++ prettyText level v
  | v :: rest => newline level ++ prettyText level v ++ ',' :: prettyItems level rest

def prettyMembers (level : Nat) : List (Word × Json) → List Char
  | [] => []
  | [(w, v)] => newline level ++ wordText w ++ ':' :: ' ' :: prettyText level v
  | (w, v) :: rest =>
      newline level ++ wordText w ++ ':' :: ' ' :: prettyText level v ++
        ',' :: prettyMembers level rest

end

def compact (v : Json) : String :=
  String.ofList (compactText v)

def pretty (v : Json) : String :=
  String.ofList (prettyText 0 v)

end PanZoom.Json
