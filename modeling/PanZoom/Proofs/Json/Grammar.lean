import PanZoom.Json.Render
import PanZoom.Proofs.Decimal.Digits

/-!
# The texts of a JSON value

A value has many texts: blanks may stand around every part, a string may be escaped in several ways,
an exponent has a sign or none. This is the grammar, said without a reader:

* `Numeral.Spells`: the texts of a numeral;
* `Json.SpellsString`: the texts of a string, with or without halves of surrogate pairs that stand
  alone;
* `Json.Spells`: the texts of values, and of what stands between brackets;
* `Json.IsTextOf`: the texts of a value on its own;
* `Json.spells_prettyText`, `Json.spells_compactText`: what is written belongs to the grammar.
-/

namespace PanZoom

open Decimal

/-- Spaces, tabs, line feeds and carriage returns, in any number. -/
def AreBlanks (text : List Char) : Prop :=
  ∀ c ∈ text, c = ' ' ∨ c = '\t' ∨ c = '\n' ∨ c = '\r'

theorem areBlanks_nil : AreBlanks [] := by
  rintro c ⟨⟩

theorem areBlanks_blank : AreBlanks [' '] := by
  simp [AreBlanks]

theorem areBlanks_newline (level : Nat) : AreBlanks (Json.newline level) := by
  intro c hc
  rcases List.mem_cons.mp hc with rfl | hc
  · simp
  · exact .inl (List.eq_of_mem_replicate hc)

namespace Numeral

/-- The whole part has no zero in front. -/
def IsProper (n : Numeral) : Prop :=
  IsPlain n.whole

/-- The texts of an exponent: a letter, at most one sign, and at least one digit. -/
inductive SpellsExponent : Option Int → List Char → Prop
  | absent : SpellsExponent none []
  | unsigned {letter : Char} {ds : List Digit} : letter = 'e' ∨ letter = 'E' → ds ≠ [] →
      SpellsExponent (some (ofDigits ds)) (letter :: digitText ds)
  | plus {letter : Char} {ds : List Digit} : letter = 'e' ∨ letter = 'E' → ds ≠ [] →
      SpellsExponent (some (ofDigits ds)) (letter :: '+' :: digitText ds)
  | minus {letter : Char} {ds : List Digit} : letter = 'e' ∨ letter = 'E' → ds ≠ [] →
      SpellsExponent (some (-(ofDigits ds))) (letter :: '-' :: digitText ds)

/-- The texts of a numeral: a sign if it is negative, the whole part, the fraction after a point if
there is any, and the exponent. -/
def Spells (n : Numeral) (text : List Char) : Prop :=
  n.IsProper ∧ ∃ exponent, SpellsExponent n.exponent exponent ∧
    text = sign n.negative ++ pointed (n.whole, n.fraction) ++ exponent

/-- A numeral with a proper whole part is written as one of its texts. -/
theorem spells_text {n : Numeral} (h : n.IsProper) : n.Spells n.text := by
  refine ⟨h, _, ?_, rfl⟩
  cases n.exponent with
  | none => exact .absent
  | some e =>
    have hdigits : digitsOf e.natAbs ≠ [] := (isPlain_digitsOf _).nonempty
    have hvalue := ofDigits_digitsOf e.natAbs
    by_cases hneg : e < 0
    · have hspelled := SpellsExponent.minus (.inl rfl : 'e' = 'e' ∨ 'e' = 'E') hdigits
      rw [hvalue, show -(e.natAbs : Int) = e by omega] at hspelled
      simpa [exponentText, hneg, natText] using hspelled
    · have hspelled := SpellsExponent.plus (.inl rfl : 'e' = 'e' ∨ 'e' = 'E') hdigits
      rw [hvalue, show (e.natAbs : Int) = e by omega] at hspelled
      simpa [exponentText, hneg, natText] using hspelled

end Numeral

namespace Json

/-! ## Strings -/

/-- The letters that have a meaning after a backslash, and the characters they stand for. -/
def escapeLetters : List (Char × Char) :=
  [('"', '"'), ('\\', '\\'), ('/', '/'), ('b', '\x08'), ('f', '\x0c'), ('n', '\n'), ('r', '\r'),
    ('t', '\t')]

def IsHexDigit (n : Fin 16) (c : Char) : Prop :=
  c = hexChar n ∨ c = (hexChar n).toUpper

def SpellsUnit (unit : Nat) (a b c d : Char) : Prop :=
  ∃ i j k l : Fin 16, IsHexDigit i a ∧ IsHexDigit j b ∧ IsHexDigit k c ∧ IsHexDigit l d ∧
    unit = ((i.val * 16 + j) * 16 + k) * 16 + l

def IsHighHalf (unit : Nat) : Prop :=
  0xD800 ≤ unit ∧ unit < 0xDC00

def IsLowHalf (unit : Nat) : Prop :=
  0xDC00 ≤ unit ∧ unit < 0xE000

/-- What a string is made of: characters, and halves of pairs that stand alone. -/
inductive Piece where
  | char (c : Char)
  | highHalf
  | lowHalf
  deriving DecidableEq

def Piece.char? : Piece → Option Char
  | char c => some c
  | _ => none

/-- The text that the pieces make up, if none of them is a half. -/
def wordOf (pieces : List Piece) : Word :=
  (pieces.mapM Piece.char?).map String.ofList

/-- The texts of a string's pieces. A first half that is followed by a second one does not stand
alone. -/
inductive SpellsPieces : List Piece → List Char → Prop
  | nil : SpellsPieces [] []
  | plain {c : Char} {ps : List Piece} {text : List Char} : ¬c < ' ' → c ≠ '"' → c ≠ '\\' →
      SpellsPieces ps text → SpellsPieces (.char c :: ps) (c :: text)
  | letter {l c : Char} {ps : List Piece} {text : List Char} : (l, c) ∈ escapeLetters →
      SpellsPieces ps text → SpellsPieces (.char c :: ps) ('\\' :: l :: text)
  | unit {u : Nat} {a b c d : Char} {ps : List Piece} {text : List Char} : SpellsUnit u a b c d →
      ¬IsHighHalf u → ¬IsLowHalf u → SpellsPieces ps text →
      SpellsPieces (.char (.ofNat u) :: ps) ('\\' :: 'u' :: a :: b :: c :: d :: text)
  | pair {high low : Nat} {a b c d e f g h : Char} {ps : List Piece} {text : List Char} :
      SpellsUnit high a b c d → IsHighHalf high → SpellsUnit low e f g h → IsLowHalf low →
      SpellsPieces ps text →
      SpellsPieces (.char (.ofNat (0x10000 + (high - 0xD800) * 0x400 + (low - 0xDC00))) :: ps)
        ('\\' :: 'u' :: a :: b :: c :: d :: '\\' :: 'u' :: e :: f :: g :: h :: text)
  | loneHigh {u : Nat} {a b c d : Char} {ps : List Piece} {text : List Char} :
      SpellsUnit u a b c d → IsHighHalf u → ps.head? ≠ some .lowHalf → SpellsPieces ps text →
      SpellsPieces (.highHalf :: ps) ('\\' :: 'u' :: a :: b :: c :: d :: text)
  | loneLow {u : Nat} {a b c d : Char} {ps : List Piece} {text : List Char} :
      SpellsUnit u a b c d → IsLowHalf u → SpellsPieces ps text →
      SpellsPieces (.lowHalf :: ps) ('\\' :: 'u' :: a :: b :: c :: d :: text)

/-- The texts of a string: its pieces in quotes. -/
def SpellsString (w : Word) (text : List Char) : Prop :=
  ∃ pieces inner, SpellsPieces pieces inner ∧ w = wordOf pieces ∧ text = '"' :: inner ++ ['"']

theorem wordOf_chars (cs : List Char) : wordOf (cs.map .char) = some (String.ofList cs) := by
  have hchars : (cs.map Piece.char).mapM Piece.char? = some cs := by
    induction cs with
    | nil => rfl
    | cons c cs ih => simp [Piece.char?, ih]
  rw [wordOf, hchars, Option.map_some]

/-- A character is written with a letter that stands for it, by its code, or as it is. -/
theorem escape_cases (c : Char) :
    (∃ l, (l, c) ∈ escapeLetters ∧ escape c = ['\\', l]) ∨
    (c.toNat < 32 ∧ escape c =
      ['\\', 'u', '0', '0', hexChar (c.toNat / 16), hexChar (c.toNat % 16)]) ∨
    (c ≠ '"' ∧ c ≠ '\\' ∧ ¬c < ' ' ∧ escape c = [c]) := by
  unfold escape
  -- The seven characters with letters of their own come first.
  iterate 7
    split
    · subst_vars
      exact .inl ⟨_, by decide, rfl⟩
  split
  · rename_i hcontrol
    exact .inr (.inl ⟨hcontrol, rfl⟩)
  · rename_i hquote hslash _ _ _ _ _ hplain
    exact .inr (.inr ⟨hquote, hslash, hplain, rfl⟩)

theorem SpellsPieces.escape {ps : List Piece} {text : List Char} (h : SpellsPieces ps text)
    (c : Char) : SpellsPieces (.char c :: ps) (Json.escape c ++ text) := by
  rcases escape_cases c with ⟨l, hl, hescape⟩ | ⟨hsmall, hescape⟩ |
    ⟨hquote, hslash, hplain, hescape⟩
  · rw [hescape]
    exact h.letter hl
  · have hunit : SpellsUnit c.toNat '0' '0' (hexChar (c.toNat / 16)) (hexChar (c.toNat % 16)) :=
      ⟨0, 0, ⟨c.toNat / 16, by omega⟩, ⟨c.toNat % 16, by omega⟩, .inl rfl, .inl rfl, .inl rfl,
        .inl rfl, by simp; omega⟩
    have hspelled := h.unit hunit (fun hhigh => by have := hhigh.1; omega)
      fun hlow => by have := hlow.1; omega
    rw [hescape]
    rwa [Char.ofNat_toNat] at hspelled
  · rw [hescape]
    exact h.plain hplain hquote hslash

/-- A string is written as one of its texts. -/
theorem spells_quoted (s : String) : SpellsString (some s) (quoted s) := by
  have hpieces (cs : List Char) : SpellsPieces (cs.map .char) (cs.flatMap escape) := by
    induction cs with
    | nil => exact .nil
    | cons c cs ih => exact ih.escape c
  refine ⟨s.toList.map .char, _, hpieces s.toList, ?_, rfl⟩
  rw [wordOf_chars, String.ofList_toList]

/-! ## Values -/

/-- What a text can stand for: a value, with blanks around it or without, or what is between the
brackets of one. -/
inductive Phrase where
  | value (v : Json)
  | spaced (v : Json)
  | items (vs : List Json)
  | members (ms : List (Word × Json))

/-- A name with blanks around it. -/
def SpellsName (w : Word) (text : List Char) : Prop :=
  ∃ before name after, AreBlanks before ∧ SpellsString w name ∧ AreBlanks after ∧
    text = before ++ name ++ after

inductive Spells : Phrase → List Char → Prop
  | null : Spells (.value .null) ['n', 'u', 'l', 'l']
  | bool (b : Bool) : Spells (.value (.bool b)) (boolText b)
  | number {n : Numeral} {text : List Char} : n.Spells text → Spells (.value (.number n)) text
  | word {w : Word} {text : List Char} : SpellsString w text → Spells (.value (.word w)) text
  | array {vs : List Json} {text : List Char} : Spells (.items vs) text →
      Spells (.value (.array vs)) ('[' :: text ++ [']'])
  | object {ms : List (Word × Json)} {text : List Char} : Spells (.members ms) text →
      Spells (.value (.object ms)) ('\x7b' :: text ++ ['\x7d'])
  | spaced {v : Json} {before text after : List Char} : AreBlanks before → Spells (.value v) text →
      AreBlanks after → Spells (.spaced v) (before ++ text ++ after)
  | noItems {text : List Char} : AreBlanks text → Spells (.items []) text
  | lastItem {v : Json} {text : List Char} : Spells (.spaced v) text → Spells (.items [v]) text
  | item {v w : Json} {vs : List Json} {text rest : List Char} : Spells (.spaced v) text →
      Spells (.items (w :: vs)) rest → Spells (.items (v :: w :: vs)) (text ++ ',' :: rest)
  | noMembers {text : List Char} : AreBlanks text → Spells (.members []) text
  | lastMember {w : Word} {v : Json} {name text : List Char} : SpellsName w name →
      Spells (.spaced v) text → Spells (.members [(w, v)]) (name ++ ':' :: text)
  | member {w : Word} {v : Json} {m : Word × Json} {ms : List (Word × Json)}
      {name text rest : List Char} : SpellsName w name → Spells (.spaced v) text →
      Spells (.members (m :: ms)) rest →
      Spells (.members ((w, v) :: m :: ms)) (name ++ ':' :: (text ++ ',' :: rest))

def IsTextOf (text : String) (v : Json) : Prop :=
  Spells (.spaced v) text.toList

/-! ## What is written -/

mutual

/-- Every string has a text and no numeral has a zero in front. -/
def IsWritable : Json → Prop
  | null => True
  | bool _ => True
  | number n => n.IsProper
  | word w => w.isSome = true
  | array items => AreWritable items
  | object members => HaveWritable members

def AreWritable : List Json → Prop
  | [] => True
  | v :: rest => v.IsWritable ∧ AreWritable rest

def HaveWritable : List (Word × Json) → Prop
  | [] => True
  | (w, v) :: rest => w.isSome = true ∧ v.IsWritable ∧ HaveWritable rest

end

theorem isWritable_array {items : List Json} (h : ∀ v ∈ items, v.IsWritable) :
    (array items).IsWritable := by
  show AreWritable items
  induction items with
  | nil => trivial
  | cons v items ih =>
    exact ⟨h v List.mem_cons_self, ih fun w hw => h w (List.mem_cons_of_mem v hw)⟩

theorem isWritable_ofMembers {members : List (String × Json)}
    (h : ∀ m ∈ members, m.2.IsWritable) : (ofMembers members).IsWritable := by
  show HaveWritable (members.map fun m => (some m.1, m.2))
  induction members with
  | nil => trivial
  | cons m members ih =>
    exact ⟨rfl, h m List.mem_cons_self, ih fun m hm => h m (List.mem_cons_of_mem _ hm)⟩

variable {v : Json} {w : Word} {text : List Char}

theorem spells_wordText (h : w.isSome = true) : SpellsString w (wordText w) := by
  obtain ⟨s, rfl⟩ := Option.isSome_iff_exists.mp h
  exact spells_quoted s

/-- A value needs no blanks around it. -/
theorem Spells.bare (h : Spells (.value v) text) : Spells (.spaced v) text := by
  simpa using Spells.spaced areBlanks_nil h areBlanks_nil

theorem spells_name {before after : List Char} (hbefore : AreBlanks before) (h : w.isSome = true)
    (hafter : AreBlanks after) : SpellsName w (before ++ wordText w ++ after) :=
  ⟨before, _, after, hbefore, spells_wordText h, hafter, rfl⟩

mutual

/-- The compact text of a value is one of its texts. -/
theorem spells_compactText : ∀ v : Json, v.IsWritable → Spells (.value v) (compactText v)
  | null, _ => .null
  | bool b, _ => .bool b
  | number _, h => .number (Numeral.spells_text h)
  | word _, h => .word (spells_wordText h)
  | array items, h => .array (spells_compactItems items h)
  | object members, h => .object (spells_compactMembers members h)

theorem spells_compactItems :
    ∀ items : List Json, AreWritable items → Spells (.items items) (compactItems items)
  | [], _ => .noItems areBlanks_nil
  | [v], h => .lastItem (spells_compactText v h.1).bare
  | v :: w :: rest, h => .item (spells_compactText v h.1).bare (spells_compactItems (w :: rest) h.2)

theorem spells_compactMembers : ∀ members : List (Word × Json), HaveWritable members →
    Spells (.members members) (compactMembers members)
  | [], _ => .noMembers areBlanks_nil
  | [(w, v)], h => by
    have hname := spells_name areBlanks_nil h.1 areBlanks_nil
    rw [List.nil_append, List.append_nil] at hname
    exact .lastMember hname (spells_compactText v h.2.1).bare
  | (w, v) :: m :: rest, h => by
    have hname := spells_name areBlanks_nil h.1 areBlanks_nil
    rw [List.nil_append, List.append_nil] at hname
    have hmember := Spells.member hname (spells_compactText v h.2.1).bare
      (spells_compactMembers (m :: rest) h.2.2)
    simpa only [compactMembers, List.append_assoc, List.cons_append] using hmember

end

mutual

/-- The text of a value on lines of its own is one of its texts, at any level. -/
theorem spells_prettyText (level : Nat) :
    ∀ v : Json, v.IsWritable → Spells (.value v) (prettyText level v)
  | null, _ => .null
  | bool b, _ => .bool b
  | number _, h => .number (Numeral.spells_text h)
  | word _, h => .word (spells_wordText h)
  | array [], _ => .array (.noItems areBlanks_nil)
  | array (v :: rest), h =>
    .array (spells_prettyItems (level + 1) (areBlanks_newline level) (v :: rest) h)
  | object [], _ => .object (.noMembers areBlanks_nil)
  | object (m :: rest), h =>
    .object (spells_prettyMembers (level + 1) (areBlanks_newline level) (m :: rest) h)

/-- The blanks after the last item belong to it. -/
theorem spells_prettyItems (level : Nat) {after : List Char} (hafter : AreBlanks after) :
    ∀ items : List Json, AreWritable items →
      Spells (.items items) (prettyItems level items ++ after)
  | [], _ => .noItems hafter
  | [v], h => .lastItem (.spaced (areBlanks_newline level) (spells_prettyText level v h.1) hafter)
  | v :: w :: rest, h => by
    have hfirst := Spells.spaced (areBlanks_newline level) (spells_prettyText level v h.1)
      areBlanks_nil
    have hitem := hfirst.item (spells_prettyItems level hafter (w :: rest) h.2)
    simpa only [prettyItems, List.append_assoc, List.cons_append, List.nil_append] using hitem

/-- The blanks after the last member belong to its value. -/
theorem spells_prettyMembers (level : Nat) {after : List Char} (hafter : AreBlanks after) :
    ∀ members : List (Word × Json), HaveWritable members →
      Spells (.members members) (prettyMembers level members ++ after)
  | [], _ => .noMembers hafter
  | [(w, v)], h => by
    have hname := spells_name (areBlanks_newline level) h.1 areBlanks_nil
    have hvalue := Spells.spaced areBlanks_blank (spells_prettyText level v h.2.1) hafter
    simpa only [prettyMembers, List.append_assoc, List.cons_append, List.nil_append] using
      Spells.lastMember hname hvalue
  | (w, v) :: m :: rest, h => by
    have hname := spells_name (areBlanks_newline level) h.1 areBlanks_nil
    have hvalue := Spells.spaced areBlanks_blank (spells_prettyText level v h.2.1) areBlanks_nil
    have hmember := Spells.member hname hvalue (spells_prettyMembers level hafter (m :: rest) h.2.2)
    simpa only [prettyMembers, List.append_assoc, List.cons_append, List.nil_append] using hmember

end

theorem isTextOf_compact (h : v.IsWritable) : IsTextOf v.compact v := by
  rw [IsTextOf, compact, String.toList_ofList]
  exact (spells_compactText v h).bare

theorem isTextOf_pretty (h : v.IsWritable) : IsTextOf v.pretty v := by
  rw [IsTextOf, pretty, String.toList_ofList]
  exact (spells_prettyText 0 v h).bare

end Json

end PanZoom
