import PanZoom.Json.Value

/-!
# JSON tokens

A text is cut into brackets, marks, literals, numerals and strings. `Token.scan?` fails where no
token can begin or one is cut short; whether the tokens make up a value is another matter. Every
token takes at least one character, so the cutting comes to an end.

Two values that follow each other without a mark are two tokens here, as in `truefalse` or `01`. No
value has two values side by side, so such texts are refused later.
-/

namespace PanZoom

open Decimal

/-- One piece of a JSON text. -/
inductive Token where
  | openBrace
  | closeBrace
  | openBracket
  | closeBracket
  | comma
  | colon
  | null
  | bool (b : Bool)
  | number (n : Numeral)
  | word (w : Word)
  deriving DecidableEq, Repr

namespace Token

/-- The blanks of JSON: space, tab, line feed and carriage return. -/
def isBlank (c : Char) : Bool :=
  c = ' ' || c = '\t' || c = '\n' || c = '\r'

def hexDigit? (c : Char) : Option Nat :=
  if '0' ≤ c ∧ c ≤ '9' then some (c.toNat - 48)
  else if 'a' ≤ c ∧ c ≤ 'f' then some (c.toNat - 87)
  else if 'A' ≤ c ∧ c ≤ 'F' then some (c.toNat - 55)
  else none

/-- The sixteen-bit unit that four hexadecimal digits stand for. -/
def unit? (a b c d : Char) : Option Nat :=
  match hexDigit? a, hexDigit? b, hexDigit? c, hexDigit? d with
  | some a, some b, some c, some d => some (((a * 16 + b) * 16 + c) * 16 + d)
  | _, _, _, _ => none

/-- The first half of a surrogate pair. -/
def isHighHalf (unit : Nat) : Bool :=
  0xD800 ≤ unit && unit < 0xDC00

/-- The second half of a surrogate pair. -/
def isLowHalf (unit : Nat) : Bool :=
  0xDC00 ≤ unit && unit < 0xE000

/-- The character of a surrogate pair. -/
def joinHalves (high low : Nat) : Char :=
  Char.ofNat (0x10000 + (high - 0xD800) * 0x400 + (low - 0xDC00))

def escaped? (c : Char) : Option Char :=
  match c with
  | '"' => some '"'
  | '\\' => some '\\'
  | '/' => some '/'
  | 'b' => some '\x08'
  | 'f' => some '\x0c'
  | 'n' => some '\n'
  | 'r' => some '\r'
  | 't' => some '\t'
  | _ => none

/-- The second half of a pair, if an escape with one comes next. -/
def lowHalf? : List Char → Option Nat
  | '\\' :: 'u' :: a :: b :: c :: d :: _ => (unit? a b c d).filter isLowHalf
  | _ => none

/-- The rest of a string after its opening quote, and what follows the closing one. `done` holds the
characters so far, last first; `sound` says that no half of a pair was met alone. -/
def scanWord? (done : List Char) (sound : Bool) : List Char → Option (Word × List Char)
  | '"' :: rest => some (if sound then some (String.ofList done.reverse) else none, rest)
  | '\\' :: 'u' :: a :: b :: c :: d :: rest =>
    match unit? a b c d with
    | none => none
    | some unit =>
      if isHighHalf unit then
        match lowHalf? rest with
        | some low => scanWord? (joinHalves unit low :: done) sound (rest.drop 6)
        | none => scanWord? done false rest
      else if isLowHalf unit then scanWord? done false rest
      else scanWord? (Char.ofNat unit :: done) sound rest
  | '\\' :: c :: rest =>
    match escaped? c with
    | none => none
    | some c => scanWord? (c :: done) sound rest
  | c :: rest => if c < ' ' ∨ c = '\\' then none else scanWord? (c :: done) sound rest
  | [] => none
  termination_by text => text.length
  decreasing_by all_goals simp only [List.length_cons, List.length_drop]; omega

/-- The rest after a string is a later part of the text. -/
theorem length_scanWord? {done : List Char} {sound : Bool} {text after : List Char} {w : Word}
    (h : scanWord? done sound text = some (w, after)) : after.length ≤ text.length := by
  fun_induction scanWord? done sound text <;> simp_all <;> omega

/-- A fraction after a numeral's whole part, if a point follows. -/
def scanFraction? : List Char → Option (List Digit × List Char)
  | '.' :: rest =>
    match takeDigits rest with
    | ([], _) => none
    | (ds, after) => some (ds, after)
  | rest => some ([], rest)

/-- The rest after a fraction is a later part of the text. -/
theorem length_scanFraction? {text after : List Char} {ds : List Digit}
    (h : scanFraction? text = some (ds, after)) : after.length ≤ text.length := by
  unfold scanFraction? at h
  split at h
  · rename_i rest
    have digits := length_takeDigits rest
    split at h
    · simp at h
    · rename_i taken
      obtain ⟨-, rfl⟩ := Prod.mk.inj (Option.some.inj h)
      simp only [taken] at digits
      simp only [List.length_cons]
      omega
  · obtain ⟨-, rfl⟩ := Prod.mk.inj (Option.some.inj h)
    exact Nat.le_refl _

def scanExponentDigits? (negative : Bool) (text : List Char) : Option (Option Int × List Char) :=
  match takeDigits text with
  | ([], _) => none
  | (ds, after) => some (some (if negative then -(ofDigits ds) else ofDigits ds), after)

/-- The rest after the digits of an exponent is a later part of the text. -/
theorem length_scanExponentDigits? {negative : Bool} {text after : List Char} {e : Option Int}
    (h : scanExponentDigits? negative text = some (e, after)) : after.length ≤ text.length := by
  have digits := length_takeDigits text
  unfold scanExponentDigits? at h
  split at h
  · simp at h
  · rename_i taken
    obtain ⟨-, rfl⟩ := Prod.mk.inj (Option.some.inj h)
    simp only [taken] at digits
    omega

/-- An exponent after a numeral's digits, if its letter follows. -/
def scanExponent? : List Char → Option (Option Int × List Char)
  | c :: rest =>
    if c = 'e' ∨ c = 'E' then
      match rest with
      | '+' :: rest => scanExponentDigits? false rest
      | '-' :: rest => scanExponentDigits? true rest
      | rest => scanExponentDigits? false rest
    else some (none, c :: rest)
  | [] => some (none, [])

/-- The rest after an exponent is a later part of the text. -/
theorem length_scanExponent? {text after : List Char} {e : Option Int}
    (h : scanExponent? text = some (e, after)) : after.length ≤ text.length := by
  unfold scanExponent? at h
  split at h
  · split at h
    · split at h
      all_goals
        have shorter := length_scanExponentDigits? h
        simp only [List.length_cons] at shorter ⊢
        omega
    · obtain ⟨-, rfl⟩ := Prod.mk.inj (Option.some.inj h)
      exact Nat.le_refl _
  · obtain ⟨-, rfl⟩ := Prod.mk.inj (Option.some.inj h)
    exact Nat.le_refl _

/-- A numeral after its sign. The whole part has a digit, and begins with zero only if that is all
of it. -/
def scanNumeral? (negative : Bool) (text : List Char) : Option (Numeral × List Char) :=
  match takeDigits text with
  | ([], _) => none
  | (whole, rest) =>
    if whole.head? = some Digit.zero ∧ whole.length ≠ 1 then none
    else
      match scanFraction? rest with
      | none => none
      | some (fraction, rest) =>
        match scanExponent? rest with
        | none => none
        | some (exponent, rest) => some (⟨negative, whole, fraction, exponent⟩, rest)

/-- A numeral takes at least one character. -/
theorem length_scanNumeral? {negative : Bool} {text after : List Char} {n : Numeral}
    (h : scanNumeral? negative text = some (n, after)) : after.length < text.length := by
  have digits := length_takeDigits text
  unfold scanNumeral? at h
  split at h
  · simp at h
  · rename_i nonempty taken
    have some_digit := List.length_pos_iff.2 nonempty
    simp only [taken] at digits
    split at h
    · simp at h
    · split at h
      · simp at h
      · rename_i fraction
        split at h
        · simp at h
        · rename_i exponent
          obtain ⟨-, rfl⟩ := Prod.mk.inj (Option.some.inj h)
          have after_fraction := length_scanFraction? fraction
          have after_exponent := length_scanExponent? exponent
          omega

/-- A token with the given letters, if they come first. -/
def scanLetters? (letters : List Char) (t : Token) (text : List Char) :
    Option (Token × List Char) :=
  if letters.isPrefixOf text then some (t, text.drop letters.length) else none

/-- The rest after letters is a later part of the text. -/
theorem length_scanLetters? {letters text after : List Char} {t u : Token}
    (h : scanLetters? letters t text = some (u, after)) : after.length ≤ text.length := by
  unfold scanLetters? at h
  split at h
  · obtain ⟨-, rfl⟩ := Prod.mk.inj (Option.some.inj h)
    simp
  · simp at h

def first? (c : Char) (rest : List Char) : Option (Token × List Char) :=
  match c with
  | '\x7b' => some (openBrace, rest)
  | '\x7d' => some (closeBrace, rest)
  | '[' => some (openBracket, rest)
  | ']' => some (closeBracket, rest)
  | ',' => some (comma, rest)
  | ':' => some (colon, rest)
  | '"' => (scanWord? [] true rest).map fun (w, after) => (word w, after)
  | 'n' => scanLetters? ['u', 'l', 'l'] null rest
  | 't' => scanLetters? ['r', 'u', 'e'] (bool true) rest
  | 'f' => scanLetters? ['a', 'l', 's', 'e'] (bool false) rest
  | '-' => (scanNumeral? true rest).map fun (n, after) => (number n, after)
  | _ => (scanNumeral? false (c :: rest)).map fun (n, after) => (number n, after)

/-- The rest after a token is a later part of the text. -/
theorem length_first? {c : Char} {rest after : List Char} {t : Token}
    (h : first? c rest = some (t, after)) : after.length ≤ rest.length := by
  unfold first? at h
  split at h
  iterate 6
    obtain ⟨-, rfl⟩ := Prod.mk.inj (Option.some.inj h)
    exact Nat.le_refl _
  · obtain ⟨⟨w, a⟩, hw, he⟩ := Option.map_eq_some_iff.1 h
    obtain ⟨-, rfl⟩ := Prod.mk.inj he
    exact length_scanWord? hw
  · exact length_scanLetters? h
  · exact length_scanLetters? h
  · exact length_scanLetters? h
  · obtain ⟨⟨n, a⟩, hn, he⟩ := Option.map_eq_some_iff.1 h
    obtain ⟨-, rfl⟩ := Prod.mk.inj he
    exact Nat.le_of_lt (length_scanNumeral? hn)
  · obtain ⟨⟨n, a⟩, hn, he⟩ := Option.map_eq_some_iff.1 h
    obtain ⟨-, rfl⟩ := Prod.mk.inj he
    exact Nat.le_of_lt_succ (length_scanNumeral? hn)

/-- The tokens of a text after those of `done`, which has the last one first. -/
def scanAfter? (done : List Token) : List Char → Option (List Token)
  | [] => some done.reverse
  | c :: rest =>
    if isBlank c then scanAfter? done rest
    else
      match _h : first? c rest with
      | none => none
      | some (t, after) => scanAfter? (t :: done) after
  termination_by text => text.length
  decreasing_by
    · simp
    · have := length_first? _h
      simp only [List.length_cons]
      omega

def scan? (text : List Char) : Option (List Token) :=
  scanAfter? [] text

end Token

end PanZoom
