import PanZoom.Json.Token
import PanZoom.Proofs.Json.Grammar

namespace PanZoom

open Decimal

namespace Token

variable {rest : List Char}

/-- What follows cannot belong to a numeral. -/
def Breaks (rest : List Char) : Prop :=
  ∀ c ∈ rest.head?, digit? c = none ∧ c ≠ '.' ∧ c ≠ 'e' ∧ c ≠ 'E'

theorem Breaks.noDigit (h : Breaks rest) : NoDigit rest :=
  fun c hc => (h c hc).1

theorem breaks_nil : Breaks [] := by
  rintro c ⟨⟩

/-- Only the next character counts. -/
theorem breaks_cons {c : Char} (h : digit? c = none ∧ c ≠ '.' ∧ c ≠ 'e' ∧ c ≠ 'E')
    (rest : List Char) : Breaks (c :: rest) := by
  intro d hd
  cases hd
  exact h

def fractionText (fraction : List Digit) : List Char :=
  if fraction.isEmpty then [] else '.' :: digitText fraction

theorem scanFraction?_append (fraction : List Digit) (hdigit : NoDigit rest)
    (hpoint : rest.head? ≠ some '.') :
    scanFraction? (fractionText fraction ++ rest) = some (fraction, rest) := by
  cases fraction with
  | nil =>
    show scanFraction? rest = _
    cases rest with
    | nil => rfl
    | cons c rest =>
      have hc : c ≠ '.' := fun hc => hpoint (congrArg some hc)
      unfold scanFraction?
      split
      · rename_i heq
        exact absurd (List.cons.inj heq).1 hc
      · rfl
  | cons d ds =>
    show scanFraction? ('.' :: (digitText (d :: ds) ++ rest)) = _
    simp only [scanFraction?, takeDigits_append _ hdigit]

theorem scanExponentDigits?_append (negative : Bool) {ds : List Digit} (hds : ds ≠ [])
    (h : NoDigit rest) : scanExponentDigits? negative (digitText ds ++ rest) =
      some (some (if negative then -(ofDigits ds : Int) else ofDigits ds), rest) := by
  obtain ⟨d, more, rfl⟩ := List.exists_cons_of_ne_nil hds
  simp only [scanExponentDigits?, takeDigits_append _ h]

theorem digitChar_ne_sign : ∀ d : Digit, digitChar d ≠ '+' ∧ digitChar d ≠ '-' := by
  decide

/-- Every text of an exponent is read as that exponent. -/
theorem scanExponent?_of_spells {e : Option Int} {text : List Char}
    (h : Numeral.SpellsExponent e text) (hrest : Breaks rest) :
    scanExponent? (text ++ rest) = some (e, rest) := by
  cases h with
  | absent =>
    show scanExponent? rest = _
    cases rest with
    | nil => rfl
    | cons c rest =>
      obtain ⟨-, -, hlower, hupper⟩ := hrest c rfl
      simp only [scanExponent?, hlower, hupper, or_self, if_false]
  | @unsigned letter ds hletter hds =>
    have hdigits := scanExponentDigits?_append false hds hrest.noDigit
    obtain ⟨d, more, rfl⟩ := List.exists_cons_of_ne_nil hds
    obtain ⟨hplus, hminus⟩ := digitChar_ne_sign d
    simp only [List.cons_append, scanExponent?, hletter, if_true]
    split
    · rename_i heq
      exact absurd (List.cons.inj heq).1 hplus
    · rename_i heq
      exact absurd (List.cons.inj heq).1 hminus
    · exact hdigits
  | plus hletter hds =>
    have hdigits := scanExponentDigits?_append false hds hrest.noDigit
    simpa only [List.cons_append, scanExponent?, hletter, if_true, Bool.false_eq_true, if_false]
      using hdigits
  | minus hletter hds =>
    have hdigits := scanExponentDigits?_append true hds hrest.noDigit
    simpa only [List.cons_append, scanExponent?, hletter, if_true] using hdigits

/-- An exponent ends the digits before it. -/
theorem exponent_ends {e : Option Int} {text : List Char} (h : Numeral.SpellsExponent e text)
    (hrest : Breaks rest) : NoDigit (text ++ rest) ∧ (text ++ rest).head? ≠ some '.' := by
  have hletter {letter : Char} (h : letter = 'e' ∨ letter = 'E') (more : List Char) :
      NoDigit (letter :: more) ∧ (letter :: more).head? ≠ some '.' := by
    rcases h with rfl | rfl <;> simp [NoDigit, digit?]
  cases h with
  | absent => exact ⟨hrest.noDigit, fun hpoint => (hrest '.' hpoint).2.1 rfl⟩
  | unsigned h | plus h | minus h => exact hletter h _

/-- A point or an exponent ends the digits before it. -/
theorem fractionText_ends (fraction : List Digit) (h : NoDigit rest) :
    NoDigit (fractionText fraction ++ rest) := by
  cases fraction with
  | nil => exact h
  | cons d ds =>
    rintro c ⟨⟩
    decide

/-- Every text of a numeral is read as that numeral. Its sign is read before. -/
theorem scanNumeral?_of_spells {n : Numeral} {exponent : List Char} (hproper : n.IsProper)
    (hspells : Numeral.SpellsExponent n.exponent exponent) (h : Breaks rest) :
    scanNumeral? n.negative (pointed (n.whole, n.fraction) ++ (exponent ++ rest)) =
      some (n, rest) := by
  obtain ⟨negative, whole, fraction, e⟩ := n
  obtain ⟨hnonempty, hleading⟩ := hproper
  obtain ⟨hdigit, hpoint⟩ := exponent_ends hspells h
  have hwhole := takeDigits_append whole (fractionText_ends fraction hdigit)
  have hfraction := scanFraction?_append fraction hdigit hpoint
  have hexponent := scanExponent?_of_spells hspells h
  have hallowed : ¬(whole.head? = some Digit.zero ∧ whole.length ≠ 1) :=
    fun hzero => hzero.2 (hleading hzero.1)
  have htext : pointed (whole, fraction) ++ (exponent ++ rest) =
      digitText whole ++ (fractionText fraction ++ (exponent ++ rest)) := List.append_assoc _ _ _
  simp only [htext, scanNumeral?, hwhole]
  cases whole with
  | nil => exact absurd rfl hnonempty
  | cons d ds => simp only [hallowed, if_false, hfraction, hexponent]

/-! ## Strings -/

open Json (Piece SpellsPieces SpellsUnit)

theorem hexDigit?_of_isHexDigit {n : Fin 16} {c : Char} (h : Json.IsHexDigit n c) :
    hexDigit? c = some n.val := by
  rcases h with rfl | rfl
  · revert n
    decide
  · revert n
    decide

theorem unit?_of_spells {u : Nat} {a b c d : Char} (h : SpellsUnit u a b c d) :
    unit? a b c d = some u := by
  obtain ⟨i, j, k, l, hi, hj, hk, hl, rfl⟩ := h
  simp only [unit?, hexDigit?_of_isHexDigit hi, hexDigit?_of_isHexDigit hj,
    hexDigit?_of_isHexDigit hk, hexDigit?_of_isHexDigit hl]

theorem isHighHalf_iff {u : Nat} : isHighHalf u = true ↔ Json.IsHighHalf u := by
  simp [isHighHalf, Json.IsHighHalf]

theorem isLowHalf_iff {u : Nat} : isLowHalf u = true ↔ Json.IsLowHalf u := by
  simp [isLowHalf, Json.IsLowHalf]

/-- No half is both a first and a second one. -/
theorem isHighHalf_of_isLowHalf {u : Nat} (h : Json.IsLowHalf u) : isHighHalf u = false := by
  rw [Bool.eq_false_iff, ne_eq, isHighHalf_iff]
  exact fun hhigh => absurd hhigh.2 (Nat.not_lt.mpr h.1)

/-- The letters with a meaning are those of the table, and `u` is none of them. -/
theorem escaped?_of_mem {l c : Char} (h : (l, c) ∈ Json.escapeLetters) :
    l ≠ 'u' ∧ escaped? l = some c := by
  have hall : ∀ e ∈ Json.escapeLetters, e.1 ≠ 'u' ∧ escaped? e.1 = some e.2 := by decide
  exact hall (l, c) h

theorem lowHalf?_unit {u : Nat} {a b c d : Char} (h : SpellsUnit u a b c d) :
    lowHalf? ('\\' :: 'u' :: a :: b :: c :: d :: rest) = (some u).filter isLowHalf := by
  rw [lowHalf?, unit?_of_spells h]

/-- Only a second half that stands alone looks like one from before. -/
theorem lowHalf?_of_spells {ps : List Piece} {text : List Char} (h : SpellsPieces ps text)
    (hhead : ps.head? ≠ some .lowHalf) : lowHalf? (text ++ '"' :: rest) = none := by
  have hother {u : Nat} (hlow : ¬Json.IsLowHalf u) : (some u).filter isLowHalf = none := by
    rw [← isLowHalf_iff] at hlow
    simp [hlow]
  cases h with
  | nil => rfl
  | plain _ _ hslash =>
    rw [List.cons_append, lowHalf?]
    rintro _ _ _ _ _ heq
    exact hslash (List.cons.inj heq).1
  | letter hl =>
    rw [List.cons_append, List.cons_append, lowHalf?]
    rintro _ _ _ _ _ heq
    exact (escaped?_of_mem hl).1 (List.cons.inj (List.cons.inj heq).2).1
  | unit hunit _ hlow => exact (lowHalf?_unit hunit).trans (hother hlow)
  | pair hunit hhigh | loneHigh hunit hhigh =>
    exact (lowHalf?_unit hunit).trans (hother fun hlow => absurd hhigh.2 (Nat.not_lt.mpr hlow.1))
  | loneLow => exact absurd rfl hhead

/-- The string of the characters so far and the pieces to come, if there was no half so far. -/
def wordAfter (done : List Char) (sound : Bool) (ps : List Piece) : Word :=
  if sound then (ps.mapM Piece.char?).map fun cs => String.ofList (done.reverse ++ cs) else none

theorem wordAfter_char (done : List Char) (sound : Bool) (c : Char) (ps : List Piece) :
    wordAfter (c :: done) sound ps = wordAfter done sound (.char c :: ps) := by
  cases sound with
  | false => rfl
  | true =>
    have hmap : (Piece.char c :: ps).mapM Piece.char? =
        (ps.mapM Piece.char?).map (c :: ·) := by
      rw [List.mapM_cons]
      cases ps.mapM Piece.char? <;> rfl
    simp [wordAfter, hmap, Function.comp_def]

/-- After a half that stands alone there is no text. -/
theorem wordAfter_half (done : List Char) (sound : Bool) {p : Piece} (hp : p.char? = none)
    (ps : List Piece) : wordAfter done sound (p :: ps) = none := by
  cases sound with
  | false => rfl
  | true => simp [wordAfter, hp]

/-- Every text of a string is read as that string. -/
theorem scanWord?_of_spells {ps : List Piece} {text : List Char} (h : SpellsPieces ps text)
    (done : List Char) (sound : Bool) :
    scanWord? done sound (text ++ '"' :: rest) = some (wordAfter done sound ps, rest) := by
  induction h generalizing done sound with
  | nil => simp [scanWord?, wordAfter]
  | @plain c ps text hcontrol hquote hslash _ ih =>
    rw [← wordAfter_char, ← ih, List.cons_append, scanWord?.eq_def]
    simp [hcontrol, hslash]
  | @letter l c ps text hl _ ih =>
    obtain ⟨hu, hletter⟩ := escaped?_of_mem hl
    rw [← wordAfter_char, ← ih, List.cons_append, List.cons_append, scanWord?.eq_def]
    simp [hu, hletter]
  | @unit u a b c d ps text hunit hhigh hlow _ ih =>
    rw [← isHighHalf_iff, Bool.not_eq_true] at hhigh
    rw [← isLowHalf_iff, Bool.not_eq_true] at hlow
    rw [← wordAfter_char, ← ih]
    simp only [List.cons_append]
    rw [scanWord?]
    simp [unit?_of_spells hunit, hhigh, hlow]
  | @pair high low a b c d e f g h ps text hunit hhigh hsecond hlow _ ih =>
    -- Two escapes make one character, so the second is read together with the first.
    have hcome :
        lowHalf? ('\\' :: 'u' :: e :: f :: g :: h :: (text ++ '"' :: rest)) = some low := by
      rw [lowHalf?_unit hsecond, Option.filter_some, if_pos (isLowHalf_iff.mpr hlow)]
    rw [← wordAfter_char, ← ih]
    simp only [List.cons_append]
    rw [scanWord?]
    simp [unit?_of_spells hunit, isHighHalf_iff.mpr hhigh, hcome, joinHalves]
  | @loneHigh u a b c d ps text hunit hhigh hhead htext ih =>
    -- No second half comes next, so reading goes on right after the first one.
    rw [wordAfter_half _ _ rfl]
    simp only [List.cons_append]
    rw [scanWord?]
    simp [unit?_of_spells hunit, isHighHalf_iff.mpr hhigh, lowHalf?_of_spells htext hhead, ih,
      wordAfter]
  | @loneLow u a b c d ps text hunit hlow _ ih =>
    rw [wordAfter_half _ _ rfl]
    simp only [List.cons_append]
    rw [scanWord?]
    simp [unit?_of_spells hunit, isHighHalf_of_isLowHalf hlow, isLowHalf_iff.mpr hlow, ih,
      wordAfter]

/-! ## Texts that are cut into tokens -/

variable {text more : List Char} {t : Token} {tokens others : List Token} {c : Char}

/-- The text is cut into these tokens, if what follows cannot belong to a numeral at its end. -/
def Scans (text : List Char) (tokens : List Token) : Prop :=
  ∀ done rest, Breaks rest →
    scanAfter? done (text ++ rest) = scanAfter? (tokens.reverse ++ done) rest

theorem Scans.scan? (h : Scans text tokens) : scan? text = some tokens := by
  have hwhole := h [] [] breaks_nil
  rw [List.append_nil, List.append_nil] at hwhole
  rw [Token.scan?, hwhole, scanAfter?, List.reverse_reverse]

/-- The text ends a numeral before it, whatever comes after. -/
def Parts (text : List Char) : Prop :=
  ∀ rest, Breaks (text ++ rest)

theorem scanAfter?_blank (h : isBlank c = true) (done : List Token) (rest : List Char) :
    scanAfter? done (c :: rest) = scanAfter? done rest := by
  rw [scanAfter?, if_pos h]

theorem scanAfter?_first (hblank : isBlank c = false) {after : List Char}
    (h : first? c rest = some (t, after)) (done : List Token) :
    scanAfter? done (c :: rest) = scanAfter? (t :: done) after := by
  rw [scanAfter?, if_neg (by simp [hblank])]
  split
  · rename_i hnone
    rw [h] at hnone
    cases hnone
  · rename_i hsome
    rw [h] at hsome
    cases hsome
    rfl

theorem scans_nil : Scans [] [] :=
  fun _ _ _ => rfl

theorem Scans.append (h : Scans text tokens) (hmore : Scans more others) (hparts : Parts more) :
    Scans (text ++ more) (tokens ++ others) := by
  intro done rest hrest
  rw [List.append_assoc, h _ _ (hparts rest), hmore _ _ hrest, List.reverse_append,
    List.append_assoc]

/-- A bracket or a mark is a token by itself. -/
theorem Scans.mark (h : Scans text tokens) (hblank : isBlank c = false)
    (hmark : ∀ rest, first? c rest = some (t, rest)) : Scans (c :: text) (t :: tokens) := by
  intro done rest hrest
  rw [List.cons_append, scanAfter?_first hblank (hmark _), h _ _ hrest, List.reverse_cons,
    List.append_assoc]
  rfl

theorem Scans.comma (h : Scans text tokens) : Scans (',' :: text) (.comma :: tokens) :=
  h.mark (by decide) fun _ => rfl

theorem Scans.colon (h : Scans text tokens) : Scans (':' :: text) (.colon :: tokens) :=
  h.mark (by decide) fun _ => rfl

theorem Scans.openBracket (h : Scans text tokens) : Scans ('[' :: text) (.openBracket :: tokens) :=
  h.mark (by decide) fun _ => rfl

theorem Scans.openBrace (h : Scans text tokens) : Scans ('\x7b' :: text) (.openBrace :: tokens) :=
  h.mark (by decide) fun _ => rfl

theorem scans_closeBracket : Scans [']'] [.closeBracket] :=
  scans_nil.mark (by decide) fun _ => rfl

theorem scans_closeBrace : Scans ['\x7d'] [.closeBrace] :=
  scans_nil.mark (by decide) fun _ => rfl

theorem parts_cons (h : digit? c = none ∧ c ≠ '.' ∧ c ≠ 'e' ∧ c ≠ 'E') (text : List Char) :
    Parts (c :: text) :=
  fun rest => breaks_cons h (text ++ rest)

theorem parts_comma (text : List Char) : Parts (',' :: text) :=
  parts_cons (by decide) text

theorem parts_colon (text : List Char) : Parts (':' :: text) :=
  parts_cons (by decide) text

theorem isBlank_of_areBlanks {blanks : List Char} (h : AreBlanks blanks) :
    ∀ c ∈ blanks, isBlank c = true := by
  intro c hc
  rcases h c hc with rfl | rfl | rfl | rfl <;> decide

/-- Blanks are passed over. -/
theorem scanAfter?_blanks {blanks : List Char} (h : AreBlanks blanks) (done : List Token)
    (rest : List Char) : scanAfter? done (blanks ++ rest) = scanAfter? done rest := by
  have hblanks := isBlank_of_areBlanks h
  clear h
  induction blanks with
  | nil => rfl
  | cons c blanks ih =>
    rw [List.cons_append, scanAfter?_blank (hblanks c List.mem_cons_self)]
    exact ih fun d hd => hblanks d (List.mem_cons_of_mem c hd)

/-- A blank ends a numeral. -/
theorem Breaks.blanks {blanks : List Char} (hrest : Breaks rest) (h : AreBlanks blanks) :
    Breaks (blanks ++ rest) := by
  cases blanks with
  | nil => exact hrest
  | cons c blanks =>
    refine breaks_cons ?_ _
    rcases h c List.mem_cons_self with rfl | rfl | rfl | rfl <;> decide

/-- Blanks around a text add no tokens. -/
theorem Scans.spaced {before after : List Char} (h : Scans text tokens)
    (hbefore : AreBlanks before) (hafter : AreBlanks after) :
    Scans (before ++ text ++ after) tokens := by
  intro done rest hrest
  rw [List.append_assoc, List.append_assoc, scanAfter?_blanks hbefore, h _ _ (hrest.blanks hafter),
    scanAfter?_blanks hafter]

theorem scans_null : Scans ['n', 'u', 'l', 'l'] [null] := by
  intro done rest _
  exact scanAfter?_first (by decide) rfl done

theorem scans_bool (b : Bool) : Scans (Json.boolText b) [bool b] := by
  intro done rest _
  cases b <;> exact scanAfter?_first (by decide) rfl done

/-- Every text of a string is cut into that one token. -/
theorem scans_string {w : Word} {text : List Char} (h : Json.SpellsString w text) :
    Scans text [word w] := by
  obtain ⟨ps, inner, hspells, rfl, rfl⟩ := h
  intro done rest _
  have hword : scanWord? [] true (inner ++ '"' :: rest) = some (Json.wordOf ps, rest) :=
    scanWord?_of_spells hspells [] true
  have hfirst : first? '"' (inner ++ '"' :: rest) = some (word (Json.wordOf ps), rest) := by
    simp only [first?, hword, Option.map_some]
  simp only [List.cons_append, List.append_assoc, List.nil_append]
  exact scanAfter?_first (by decide) hfirst done

theorem first?_digitChar (d : Digit) (rest : List Char) :
    first? (digitChar d) rest =
      (scanNumeral? false (digitChar d :: rest)).map fun (n, after) => (number n, after) := by
  match d with
  | 0 | 1 | 2 | 3 | 4 | 5 | 6 | 7 | 8 | 9 => rfl

theorem isBlank_digitChar : ∀ d : Digit, isBlank (digitChar d) = false := by
  decide

/-- Every text of a numeral is cut into that one token. -/
theorem scans_numeral {n : Numeral} {text : List Char} (h : n.Spells text) :
    Scans text [number n] := by
  obtain ⟨hproper, exponent, hspells, rfl⟩ := h
  intro done rest hrest
  have hscan := scanNumeral?_of_spells hproper hspells hrest
  rw [List.append_assoc, List.append_assoc]
  cases hsign : n.negative with
  | true =>
    have hfirst : first? '-' (pointed (n.whole, n.fraction) ++ (exponent ++ rest)) =
        some (number n, rest) := by
      rw [hsign] at hscan
      simp only [first?, hscan, Option.map_some]
    exact scanAfter?_first (by decide) hfirst done
  | false =>
    obtain ⟨d, ds, hwhole⟩ := List.exists_cons_of_ne_nil hproper.nonempty
    have htext : pointed (n.whole, n.fraction) ++ (exponent ++ rest) =
        digitChar d :: (pointed (n.whole, n.fraction) ++ (exponent ++ rest)).tail := by
      simp [pointed, hwhole, digitText]
    have hfirst : first? (digitChar d)
        (pointed (n.whole, n.fraction) ++ (exponent ++ rest)).tail = some (number n, rest) := by
      rw [hsign] at hscan
      rw [first?_digitChar, ← htext, hscan]
      rfl
    show scanAfter? done (pointed (n.whole, n.fraction) ++ (exponent ++ rest)) = _
    rw [htext]
    exact scanAfter?_first (isBlank_digitChar d) hfirst done

end Token

end PanZoom
