import PanZoom.Proofs.Json.Values

namespace PanZoom.Json

open Token

/-- A strict reader passes these tokens wherever there is room for so many levels more. -/
structure Passes (depth : Nat) (tokens : List Token) : Prop where
  readable : ∀ t ∈ tokens, isReadable t = true
  shallow : ∀ level rest, level + depth ≤ depthBound → isShallow level rest = true →
    isShallow level (tokens ++ rest) = true

/-- A value that can be written, and whose tokens a strict reader passes. -/
structure Sound (depth : Nat) (v : Json) : Prop where
  writable : v.IsWritable
  passes : Passes depth v.tokens

variable {depth more : Nat} {t : Token} {tokens others : List Token} {v : Json}
  {items : List Json} {members : List (String × Json)} {text : String}

theorem passes_nil : Passes depth [] :=
  ⟨by simp, fun _ _ _ h => h⟩

theorem Passes.append (h : Passes depth tokens) (hothers : Passes depth others) :
    Passes depth (tokens ++ others) := by
  constructor
  · intro t ht
    rcases List.mem_append.mp ht with ht | ht
    · exact h.readable t ht
    · exact hothers.readable t ht
  · intro level rest hroom hrest
    rw [List.append_assoc]
    exact h.shallow level _ hroom (hothers.shallow level rest hroom hrest)

/-- A token that is no bracket opens nothing. -/
theorem Passes.cons (h : Passes depth tokens) (hreadable : isReadable t = true)
    (hlevel : ∀ level, nestingAfter level t = level) : Passes depth (t :: tokens) := by
  constructor
  · intro u hu
    rcases List.mem_cons.mp hu with rfl | hu
    · exact hreadable
    · exact h.readable u hu
  · intro level rest hroom hrest
    have hbound : level ≤ depthBound := by omega
    have hafter := h.shallow level rest hroom hrest
    simp [isShallow, hlevel, hbound, hafter]

/-- A pair of brackets takes one level more than what is between them. -/
theorem Passes.enclose {opening closing : Token} (h : Passes depth tokens)
    (hreadable : isReadable opening = true ∧ isReadable closing = true)
    (hopening : ∀ level, nestingAfter level opening = level + 1)
    (hclosing : ∀ level, nestingAfter (level + 1) closing = level) :
    Passes (depth + 1) (opening :: tokens ++ [closing]) := by
  constructor
  · intro t ht
    simp only [List.cons_append, List.mem_cons, List.mem_append, List.not_mem_nil, or_false] at ht
    rcases ht with rfl | ht | rfl
    · exact hreadable.1
    · exact h.readable t ht
    · exact hreadable.2
  · intro level rest hroom hrest
    have hbound : level ≤ depthBound ∧ level + 1 ≤ depthBound := by omega
    have hend : isShallow (level + 1) (closing :: rest) = true := by
      simp [isShallow, hclosing, hbound, hrest]
    have hinner := h.shallow (level + 1) _ (by omega) hend
    simp [isShallow, hopening, hbound, hinner]

theorem Passes.mono (h : Passes depth tokens) (hmore : depth ≤ more) : Passes more tokens := by
  refine ⟨h.readable, fun level rest hroom hrest => h.shallow level rest ?_ hrest⟩
  omega

theorem Sound.mono (h : v.Sound depth) (hmore : depth ≤ more) : v.Sound more :=
  ⟨h.writable, h.passes.mono hmore⟩

theorem sound_null : null.Sound depth :=
  ⟨trivial, passes_nil.cons rfl fun _ => rfl⟩

theorem sound_bool (b : Bool) : (bool b).Sound depth :=
  ⟨trivial, passes_nil.cons rfl fun _ => rfl⟩

theorem sound_ofString (s : String) : (ofString s).Sound depth :=
  ⟨rfl, passes_nil.cons rfl fun _ => rfl⟩

theorem sound_number {n : Numeral} (hproper : n.IsProper) (hrange : n.toDouble?.isSome = true) :
    (number n).Sound depth :=
  ⟨hproper, passes_nil.cons hrange fun _ => rfl⟩

/-- A strict reader passes a list if it passes the items. -/
theorem passes_array (h : ∀ v ∈ items, Passes depth v.tokens) :
    Passes (depth + 1) (array items).tokens := by
  have hitems : Passes depth (itemTokens items) := by
    induction items with
    | nil => exact passes_nil
    | cons v items ih =>
      have hv := h v List.mem_cons_self
      have hrest := ih fun w hw => h w (List.mem_cons_of_mem v hw)
      cases items with
      | nil => exact hv
      | cons w items => exact hv.append (hrest.cons rfl fun _ => rfl)
  exact hitems.enclose ⟨rfl, rfl⟩ (fun _ => rfl) fun _ => rfl

/-- A list of sound items. -/
theorem sound_array (h : ∀ v ∈ items, v.Sound depth) : (array items).Sound (depth + 1) :=
  ⟨isWritable_array fun v hv => (h v hv).writable, passes_array fun v hv => (h v hv).passes⟩

/-- A strict reader passes a record if it passes the values of the fields, whatever their names. -/
theorem passes_ofMembers (h : ∀ m ∈ members, Passes depth m.2.tokens) :
    Passes (depth + 1) (ofMembers members).tokens := by
  have hmembers : Passes depth (memberTokens (members.map fun m => (some m.1, m.2))) := by
    induction members with
    | nil => exact passes_nil
    | cons m members ih =>
      have hm := h m List.mem_cons_self
      have hrest := ih fun m hm => h m (List.mem_cons_of_mem _ hm)
      have hnamed : Passes depth (.word (some m.1) :: .colon :: m.2.tokens) :=
        (hm.cons rfl fun _ => rfl).cons rfl fun _ => rfl
      cases members with
      | nil => exact hnamed
      | cons m members => exact hnamed.append (hrest.cons rfl fun _ => rfl)
  exact hmembers.enclose ⟨rfl, rfl⟩ (fun _ => rfl) fun _ => rfl

/-- A record of sound fields. -/
theorem sound_ofMembers (h : ∀ m ∈ members, m.2.Sound depth) :
    (ofMembers members).Sound (depth + 1) :=
  ⟨isWritable_ofMembers fun m hm => (h m hm).writable,
    passes_ofMembers fun m hm => (h m hm).passes⟩

theorem sound_empty : (ofMembers []).Sound (depth + 1) :=
  sound_ofMembers (by simp)

/-- A strict reader that takes a text of a value reads that value. -/
theorem eq_of_parseStrict? {w : Json} (htext : IsTextOf text v) (h : parseStrict? text = some w) :
    w = v := by
  unfold parseStrict? at h
  simp only [scan?_of_isTextOf htext] at h
  split at h
  · rw [ofTokens?_tokens] at h
    exact (Option.some_inj.mp h).symm
  · cases h

/-- It takes the text if it passes the tokens of the value. -/
theorem parseStrict?_of_isTextOf (htext : IsTextOf text v) (h : Passes depthBound v.tokens) :
    parseStrict? text = some v := by
  have hreadable : v.tokens.all isReadable = true := List.all_eq_true.mpr h.readable
  have hshallow : isShallow 0 v.tokens = true := by
    have hwhole := h.shallow 0 [] (Nat.le_of_eq (Nat.zero_add _)) rfl
    rwa [List.append_nil] at hwhole
  simp only [parseStrict?, scan?_of_isTextOf htext, hreadable, hshallow, Bool.and_self, if_true]
  exact ofTokens?_tokens v

/-- A sound value is read back from its compact text, even where the whole text must be sound. -/
theorem parseStrict?_compact (h : v.Sound depthBound) : parseStrict? v.compact = some v :=
  parseStrict?_of_isTextOf (isTextOf_compact h.writable) h.passes

end PanZoom.Json
