import PanZoom.Json.Parse
import PanZoom.Proofs.Json.Scanning

namespace PanZoom.Json

open Token

mutual

def tokens : Json → List Token
  | null => [.null]
  | bool b => [.bool b]
  | number n => [.number n]
  | word w => [.word w]
  | array items => .openBracket :: itemTokens items ++ [.closeBracket]
  | object members => .openBrace :: memberTokens members ++ [.closeBrace]

def itemTokens : List Json → List Token
  | [] => []
  | [v] => v.tokens
  | v :: rest => v.tokens ++ .comma :: itemTokens rest

def memberTokens : List (Word × Json) → List Token
  | [] => []
  | [(w, v)] => .word w :: .colon :: v.tokens
  | (w, v) :: rest => .word w :: .colon :: v.tokens ++ .comma :: memberTokens rest

end

def Phrase.tokens : Phrase → List Token
  | value v => v.tokens
  | spaced v => v.tokens
  | items vs => itemTokens vs
  | members ms => memberTokens ms

theorem scans_name {w : Word} {text : List Char} (h : SpellsName w text) :
    Scans text [.word w] := by
  obtain ⟨before, name, after, hbefore, hname, hafter, rfl⟩ := h
  exact (scans_string hname).spaced hbefore hafter

theorem scans_blanks {text : List Char} (h : AreBlanks text) : Scans text [] := by
  simpa using scans_nil.spaced h areBlanks_nil

/-- Every text of a phrase is cut into its tokens. -/
theorem Spells.scans {p : Phrase} {text : List Char} (h : Spells p text) :
    Scans text p.tokens := by
  induction h with
  | null => exact scans_null
  | bool b => exact scans_bool b
  | number hnumber => exact scans_numeral hnumber
  | word hword => exact scans_string hword
  | array _ ih => exact (ih.append scans_closeBracket (parts_cons (by decide) [])).openBracket
  | object _ ih => exact (ih.append scans_closeBrace (parts_cons (by decide) [])).openBrace
  | spaced hbefore _ hafter ih => exact ih.spaced hbefore hafter
  | noItems hblanks => exact scans_blanks hblanks
  | lastItem _ ih => exact ih
  | item _ _ ihFirst ihRest => exact ihFirst.append ihRest.comma (parts_comma _)
  | noMembers hblanks => exact scans_blanks hblanks
  | lastMember hname _ ih => exact (scans_name hname).append ih.colon (parts_colon _)
  | member hname _ _ ihFirst ihRest =>
    have hvalue := ihFirst.append ihRest.comma (parts_comma _)
    exact (scans_name hname).append hvalue.colon (parts_colon _)

/-- No value begins with the end of an array. -/
theorem tokens_eq_cons (v : Json) : ∃ t ts, v.tokens = t :: ts ∧ t ≠ .closeBracket := by
  cases v <;> exact ⟨_, _, rfl, Token.noConfusion⟩

theorem itemTokens_eq_cons (v : Json) (items : List Json) :
    ∃ t ts, itemTokens (v :: items) = t :: ts ∧ t ≠ .closeBracket := by
  obtain ⟨t, ts, htokens, hne⟩ := tokens_eq_cons v
  cases items with
  | nil => exact ⟨t, ts, htokens, hne⟩
  | cons w rest =>
    refine ⟨t, ts ++ .comma :: itemTokens (w :: rest), ?_, hne⟩
    simp only [itemTokens, htokens, List.cons_append]

/-- The first item of an array is read as any other. -/
theorem read?_firstItem (stack : List Frame) {t : Token} (h : t ≠ .closeBracket) :
    (Place.firstItem stack).read? t = (Place.value (.array [] :: stack)).read? t := by
  cases t <;> first | rfl | exact absurd rfl h

mutual

/-- The tokens of a value complete it, whatever is open around it and whatever follows. -/
theorem read_tokens (stack : List Frame) (rest : List Token) :
    ∀ v : Json, (v.tokens ++ rest).foldlM Place.read? (.value stack) =
      rest.foldlM Place.read? (.done v stack)
  | null => rfl
  | bool _ => rfl
  | number _ => rfl
  | word _ => rfl
  | array [] => rfl
  | array (v :: items) => by
    obtain ⟨t, ts, htokens, hne⟩ := itemTokens_eq_cons v items
    have hitems := read_itemTokens [] stack rest (v :: items) (List.cons_ne_nil v items)
    simp only [htokens, List.cons_append, List.foldlM_cons] at hitems
    simp only [tokens, htokens, List.cons_append, List.append_assoc, List.nil_append,
      List.foldlM_cons]
    show (Place.firstItem stack).read? t >>= _ = _
    rw [read?_firstItem stack hne, hitems, List.reverse_nil, List.nil_append]
  | object [] => rfl
  | object (m :: members) => by
    have hmembers := read_memberTokens [] stack rest (.firstName stack) (fun _ => rfl)
      (m :: members) (List.cons_ne_nil m members)
    simp only [tokens, List.cons_append, List.append_assoc, List.nil_append, List.foldlM_cons]
    exact hmembers

/-- The tokens of items complete the array that is open. -/
theorem read_itemTokens (done : List Json) (stack : List Frame) (rest : List Token) :
    ∀ items : List Json, items ≠ [] →
      (itemTokens items ++ .closeBracket :: rest).foldlM Place.read?
          (.value (.array done :: stack)) =
        rest.foldlM Place.read? (.done (.array (done.reverse ++ items)) stack)
  | [], h => absurd rfl h
  | [v], _ => by
    have hvalue := read_tokens (.array done :: stack) (.closeBracket :: rest) v
    have hclose : (Place.done v (.array done :: stack)).read? .closeBracket =
        some (.done (.array (v :: done).reverse) stack) := rfl
    simp only [itemTokens, hvalue, List.foldlM_cons, hclose, List.reverse_cons, Option.bind_eq_bind,
      Option.bind_some]
  | v :: w :: items, _ => by
    have hvalue := read_tokens (.array done :: stack)
      (.comma :: (itemTokens (w :: items) ++ .closeBracket :: rest)) v
    have hcomma : (Place.done v (.array done :: stack)).read? .comma =
        some (.value (.array (v :: done) :: stack)) := rfl
    have hitems := read_itemTokens (v :: done) stack rest (w :: items) (List.cons_ne_nil w items)
    simp only [itemTokens, List.append_assoc, List.cons_append, hvalue, List.foldlM_cons, hcomma,
      Option.bind_eq_bind, Option.bind_some, hitems, List.reverse_cons, List.nil_append]

/-- The tokens of members complete the object that is open, wherever a name may come. -/
theorem read_memberTokens (done : List (Word × Json)) (stack : List Frame) (rest : List Token)
    (p : Place) (hname : ∀ w, p.read? (.word w) = some (.colon done w stack)) :
    ∀ members : List (Word × Json), members ≠ [] →
      (memberTokens members ++ .closeBrace :: rest).foldlM Place.read? p =
        rest.foldlM Place.read? (.done (.object (done.reverse ++ members)) stack)
  | [], h => absurd rfl h
  | [(w, v)], _ => by
    have hcolon : (Place.colon done w stack).read? .colon =
        some (.value (.object done w :: stack)) := rfl
    have hvalue := read_tokens (.object done w :: stack) (.closeBrace :: rest) v
    have hclose : (Place.done v (.object done w :: stack)).read? .closeBrace =
        some (.done (.object ((w, v) :: done).reverse) stack) := rfl
    simp only [memberTokens, List.cons_append, List.foldlM_cons, hname, hcolon, hvalue, hclose,
      List.reverse_cons, Option.bind_eq_bind, Option.bind_some]
  | (w, v) :: m :: members, _ => by
    have hcolon : (Place.colon done w stack).read? .colon =
        some (.value (.object done w :: stack)) := rfl
    have hvalue := read_tokens (.object done w :: stack)
      (.comma :: (memberTokens (m :: members) ++ .closeBrace :: rest)) v
    have hcomma : (Place.done v (.object done w :: stack)).read? .comma =
        some (.name ((w, v) :: done) stack) := rfl
    have hmembers := read_memberTokens ((w, v) :: done) stack rest (.name ((w, v) :: done) stack)
      (fun _ => rfl) (m :: members) (List.cons_ne_nil m members)
    simp only [memberTokens, List.cons_append, List.append_assoc, List.foldlM_cons, hname, hcolon,
      hvalue, hcomma, hmembers, List.reverse_cons, Option.bind_eq_bind, Option.bind_some,
      List.nil_append]

end

theorem ofTokens?_tokens (v : Json) : ofTokens? v.tokens = some v := by
  have hread := read_tokens [] [] v
  rw [List.append_nil] at hread
  rw [ofTokens?, hread]
  rfl

theorem scan?_of_isTextOf {text : String} {v : Json} (h : IsTextOf text v) :
    Token.scan? text.toList = some v.tokens :=
  (Spells.scans h).scan?

/-- Every text of a value is read as that value. -/
theorem parse?_of_isTextOf {text : String} {v : Json} (h : IsTextOf text v) :
    parse? text = some v := by
  rw [parse?, scan?_of_isTextOf h]
  exact ofTokens?_tokens v

end PanZoom.Json
