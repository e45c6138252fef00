import PanZoom.Proofs.Format.Presented

/-!
# Events in any layout

However an object presents an event, its text is read as that event. A field that is missing or
there twice is another matter:

* `Event.Flawed`: the objects that lack a member which must be there, or repeat one that is known;
* `Event.not_flawed`: none of them is read;
* `Event.readScript?_of_givenBy`: a script of objects that present events;
* `Event.layout_makes_no_difference`: what is read of the text of an object.
-/

namespace PanZoom

open Json

variable {members : List (String × Json)}

theorem Json.isSome_of_required {α : Type} {read : Json → Option α} {field : Option Json} {a : α}
    (h : required read field = some a) : field.isSome := by
  cases field with
  | none => cases h
  | some v => rfl

namespace Point

variable {p : Point Float32}

/-- A record that is read as a point gives both coordinates, and each once. -/
theorem given_of_ofJson? {name : String} (h : ofJson? (.ofMembers members) = some p)
    (hname : name ∈ fieldNames) : ¬Omits members name ∧ ¬Repeats members name := by
  unfold ofJson? at h
  split at h
  · rename_i x y hfields
    obtain ⟨_, hx, h⟩ := Option.bind_eq_some_iff.mp h
    obtain ⟨_, hy, -⟩ := Option.bind_eq_some_iff.mp h
    rw [fields?_eq_mapM] at hfields
    obtain ⟨field, hfield, hmem⟩ := exists_of_mapM hfields hname
    refine ⟨fun homits => ?_, not_repeats_of_field? hfield⟩
    have hgiven : ∀ f ∈ fieldNames.zip [x, y], f.2.isSome := by
      simp [fieldNames, isSome_of_required hx, isSome_of_required hy]
    rw [field?_of_not_mem homits] at hfield
    cases hfield
    exact absurd (hgiven _ hmem) Bool.false_ne_true
  · cases h

end Point

namespace Modifiers

variable {held : Modifiers}

/-- A record that is read as modifiers repeats none of them. -/
theorem not_repeats_of_ofJson? {name : String} (h : ofJson? (.ofMembers members) = some held)
    (hname : name ∈ fieldNames) : ¬Repeats members name := by
  unfold ofJson? at h
  split at h
  · rename_i hfields
    rw [fields?_eq_mapM] at hfields
    obtain ⟨field, hfield, -⟩ := exists_of_mapM hfields hname
    exact not_repeats_of_field? hfield
  · cases h

end Modifiers

namespace Event

variable {e : Event Float32}

/-! ## Objects that lack or repeat a member -/

/-- The fields of a kind that may not be left out. -/
def Kind.requiredNames (k : Kind) : List String :=
  k.fieldNames.filter (· ≠ "modifiers")

/-- A member that must be there is missing, or one that is known is there more than once: the kind,
a field of the kind, or a field of the position or the modifiers. -/
inductive Flawed (members : List (String × Json)) : Prop
  | kind : Omits members kindName ∨ Repeats members kindName → Flawed members
  | omitted {k : Kind} {name : String} : (kindName, .ofString k.name) ∈ members →
      name ∈ k.requiredNames → Omits members name → Flawed members
  | repeated {k : Kind} {name : String} : (kindName, .ofString k.name) ∈ members →
      name ∈ k.fieldNames → Repeats members name → Flawed members
  | position {k : Kind} {inner : List (String × Json)} {name : String} :
      (kindName, .ofString k.name) ∈ members → "position" ∈ k.fieldNames →
      ("position", .ofMembers inner) ∈ members → name ∈ Point.fieldNames →
      Omits inner name ∨ Repeats inner name → Flawed members
  | modifiers {k : Kind} {inner : List (String × Json)} {name : String} :
      (kindName, .ofString k.name) ∈ members → "modifiers" ∈ k.fieldNames →
      ("modifiers", .ofMembers inner) ∈ members → name ∈ Modifiers.fieldNames →
      Repeats inner name → Flawed members

/-- What is found for a field of an event that is read. -/
structure Fits (name : String) (field : Option Json) : Prop where
  given : name ≠ "modifiers" → field.isSome
  position : name = "position" → (Json.required Point.ofJson? field).isSome
  modifiers : name = "modifiers" → (Json.optional Modifiers.ofJson? .released field).isSome

theorem fits_of_required {α : Type} {name : String} {read : Json → Option α} {field : Option Json}
    {a : α} (h : Json.required read field = some a)
    (hname : name ≠ "position" ∧ name ≠ "modifiers") : Fits name field where
  given _ := isSome_of_required h
  position heq := absurd heq hname.1
  modifiers heq := absurd heq hname.2

theorem fits_position {field : Option Json} {p : Point Float32}
    (h : Json.required Point.ofJson? field = some p) : Fits "position" field where
  given _ := isSome_of_required h
  position _ := h ▸ rfl
  modifiers heq := absurd heq (by decide)

theorem fits_modifiers {field : Option Json} {held : Modifiers}
    (h : Json.optional Modifiers.ofJson? .released field = some held) : Fits "modifiers" field where
  given hne := absurd rfl hne
  position heq := absurd heq (by decide)
  modifiers _ := h ▸ rfl

/-- An event is made of fields that fit. -/
theorem fits_of_ofFields? {k : Kind} {fields : List (Option Json)}
    (h : ofFields? k fields = some e) : ∀ f ∈ k.fieldNames.zip fields, Fits f.1 f.2 := by
  -- The kinds in their order. The last case is a list that is too short or too long for its kind.
  unfold ofFields? at h
  split at h
  case h_1 =>
    obtain ⟨_, hwidth, h⟩ := Option.bind_eq_some_iff.mp h
    obtain ⟨_, hheight, -⟩ := Option.bind_eq_some_iff.mp h
    simp [Kind.fieldNames, fits_of_required hwidth, fits_of_required hheight]
  case h_2 | h_3 =>
    obtain ⟨_, hbutton, h⟩ := Option.bind_eq_some_iff.mp h
    obtain ⟨_, hposition, -⟩ := Option.bind_eq_some_iff.mp h
    simp [Kind.fieldNames, fits_of_required hbutton, fits_position hposition]
  case h_4 =>
    obtain ⟨_, hposition, -⟩ := Option.bind_eq_some_iff.mp h
    simp [Kind.fieldNames, fits_position hposition]
  case h_5 =>
    obtain ⟨_, hdelta, h⟩ := Option.bind_eq_some_iff.mp h
    obtain ⟨_, hposition, -⟩ := Option.bind_eq_some_iff.mp h
    simp [Kind.fieldNames, fits_of_required hdelta, fits_position hposition]
  case h_6 | h_7 =>
    obtain ⟨_, hkey, h⟩ := Option.bind_eq_some_iff.mp h
    obtain ⟨_, hmodifiers, -⟩ := Option.bind_eq_some_iff.mp h
    simp [Kind.fieldNames, fits_of_required hkey, fits_modifiers hmodifiers]
  case h_8 => cases h

/-- What an object is read as is of the kind that it names, and its fields are found and fit. -/
theorem exists_kind_of_ofJson? (h : ofJson? (.ofMembers members) = some e) :
    ∃ k : Kind, field? members kindName = some (some (.ofString k.name)) ∧
      ∀ name ∈ k.fieldNames, ∃ field, field? members name = some field ∧ Fits name field := by
  rw [ofJson?_ofMembers] at h
  obtain ⟨found, hfound, hkind⟩ := Option.bind_eq_some_iff.mp h
  obtain ⟨kind, rfl, hevent⟩ := Option.bind_eq_some_iff.mp hkind
  unfold ofKindAndRecord? at hevent
  split at hevent
  · rename_i word
    obtain ⟨k, hk, hrecord⟩ := Option.bind_eq_some_iff.mp hevent
    obtain ⟨fields, hfields, hread⟩ := Option.bind_eq_some_iff.mp hrecord
    have hword : word = k.name := by
      have hname := List.find?_some hk
      exact (of_decide_eq_true hname).symm
    refine ⟨k, hword ▸ hfound, fun name hname => ?_⟩
    rw [fields?_eq_mapM] at hfields
    obtain ⟨field, hfield, hmem⟩ := exists_of_mapM hfields hname
    exact ⟨field, hfield, fits_of_ofFields? hread _ hmem⟩
  · cases hevent

/-- An object that is read as an event is not flawed. -/
theorem not_flawed (h : ofJson? (.ofMembers members) = some e) : ¬Flawed members := by
  obtain ⟨k, hkind, hfits⟩ := exists_kind_of_ofJson? h
  -- The kind is named once, so every kind that the members name is this one.
  have hsame {other : Kind} (hmem : (kindName, .ofString other.name) ∈ members) : other = k := by
    have hname : k.name = other.name := by simpa [Json.ofString] using field?_eq_of_mem hmem hkind
    have hfound := Kind.ofName?_name other
    rw [← hname, Kind.ofName?_name] at hfound
    exact (Option.some_inj.mp hfound).symm
  intro hflawed
  cases hflawed with
  | kind hflaw =>
    rcases hflaw with homits | hrepeats
    · rw [field?_of_not_mem homits] at hkind
      cases hkind
    · exact not_repeats_of_field? hkind hrepeats
  | omitted hmem hname homits =>
    obtain rfl := hsame hmem
    obtain ⟨hfield, hrequired⟩ := List.mem_filter.mp hname
    obtain ⟨field, hfound, hfit⟩ := hfits _ hfield
    rw [field?_of_not_mem homits] at hfound
    cases hfound
    exact absurd (hfit.given (of_decide_eq_true hrequired)) (by decide)
  | repeated hmem hfield hrepeats =>
    obtain rfl := hsame hmem
    obtain ⟨field, hfound, -⟩ := hfits _ hfield
    exact not_repeats_of_field? hfound hrepeats
  | position hmem hfield hposition hname hflaw =>
    obtain rfl := hsame hmem
    obtain ⟨field, hfound, hfit⟩ := hfits _ hfield
    obtain rfl := field?_eq_of_mem hposition hfound
    obtain ⟨p, hread⟩ := Option.isSome_iff_exists.mp (hfit.position rfl)
    obtain ⟨hgiven, honce⟩ := Point.given_of_ofJson? hread hname
    exact hflaw.elim hgiven honce
  | modifiers hmem hfield hmodifiers hname hrepeats =>
    obtain rfl := hsame hmem
    obtain ⟨field, hfound, hfit⟩ := hfits _ hfield
    obtain rfl := field?_eq_of_mem hmodifiers hfound
    obtain ⟨held, hread⟩ := Option.isSome_iff_exists.mp (hfit.modifiers rfl)
    exact Modifiers.not_repeats_of_ofJson? hread hname hrepeats

variable {text : String}

theorem read?_of_givenBy (htext : IsTextOf text (.ofMembers members))
    (h : e.GivenBy (depthBound - 1) members) : read? text = some e := by
  rw [read?, parseStrict?_of_isTextOf htext (h.passes (by decide)), Option.bind_some, h.read]

theorem read?_of_flawed (htext : IsTextOf text (.ofMembers members)) (h : Flawed members) :
    read? text = none := by
  rw [read?, Option.bind_eq_none_iff]
  intro v hv
  obtain rfl := eq_of_parseStrict? htext hv
  cases hread : ofJson? (.ofMembers members) with
  | none => rfl
  | some e => exact absurd h (not_flawed hread)

/-- Objects that present events one after another are read as a script of these events. -/
theorem readScript?_of_givenBy {entries : List (Event Float32 × List (String × Json))}
    (htext : IsTextOf text (.array (entries.map fun entry => .ofMembers entry.2)))
    (h : ∀ entry ∈ entries, entry.1.GivenBy (depthBound - 2) entry.2) :
    readScript? text = some (entries.map Prod.fst) := by
  have hpasses : Passes (depthBound - 1 + 1)
      (Json.array (entries.map fun entry => .ofMembers entry.2)).tokens := by
    apply passes_array
    intro v hv
    obtain ⟨entry, hentry, rfl⟩ := List.mem_map.mp hv
    exact (h entry hentry).passes (by decide)
  rw [readScript?, parseStrict?_of_isTextOf htext hpasses, Option.bind_some]
  exact scriptOfJson?_map fun entry hentry => (h entry hentry).read

/-- **The layout of an event does not matter.** Every text of an object that presents an event, with
its kind and its fields in any order, members with other names among them and what is not held left
out, is read as that event. An object without one of the members that must be there is not read, and
neither is one that repeats a member that is known. -/
theorem layout_makes_no_difference :
    (∀ (e : Event Float32) (text : String) (members : List (String × Json)),
      IsTextOf text (.ofMembers members) → e.GivenBy (depthBound - 1) members →
      read? text = some e) ∧
    (∀ (text : String) (members : List (String × Json)),
      IsTextOf text (.ofMembers members) → Flawed members → read? text = none) :=
  ⟨fun _ _ _ => read?_of_givenBy, fun _ _ => read?_of_flawed⟩

/-- A position with a member that is not known, its ordinate first. -/
def scatteredPosition : List (String × Json) :=
  [("y", .ofSingle (-2.5)), ("z", .array [.ofMembers []]),
    ("x", .number { Numeral.ofNat 1 with exponent := some 1 })]

/-- A turn of the wheel at that position whose kind comes last. A member that is not known stands
among the fields twice. -/
def scattered : List (String × Json) :=
  [("position", .ofMembers scatteredPosition), ("note", .null), ("delta", .ofSingle 0.5),
    ("note", .bool true), ("type", .ofString "mouse_wheel")]

def scatteredText : String :=
  "\x7b\"position\":\x7b\"y\":-2.5,\"z\":[\x7b\x7d],\"x\":1e+1\x7d,\"note\":null," ++
    "\"delta\":0.5,\"note\":true,\"type\":\"mouse_wheel\"\x7d"

theorem isTextOf_scattered : IsTextOf scatteredText (.ofMembers scattered) := by
  have htext : scatteredText = (ofMembers scattered).compact := by with_unfolding_all decide
  have hdecimal (x : Float32) : (ofSingle x).IsWritable := isWritable_ofValue _ _ _
  have hten : (Json.number { Numeral.ofNat 1 with exponent := some 1 }).IsWritable :=
    Numeral.isProper_ofNat 1
  have hposition : (ofMembers scatteredPosition).IsWritable := by
    apply isWritable_ofMembers
    simp [scatteredPosition, hdecimal, hten, isWritable_array, isWritable_ofMembers]
  have hplain : Json.null.IsWritable ∧ (Json.bool true).IsWritable := ⟨trivial, trivial⟩
  rw [htext]
  apply isTextOf_compact
  apply isWritable_ofMembers
  simp [scattered, hposition, hdecimal, hplain, isWritable_ofString]

theorem scattered_givenBy :
    (Event.mouseWheel 0.5 ⟨10, -2.5⟩).GivenBy (depthBound - 1) scattered := by
  have hread : (ofSingle (-2.5)).toSingle? = some (-2.5) ∧
      (Json.number { Numeral.ofNat 1 with exponent := some 1 }).toSingle? = some 10 ∧
      (ofSingle 0.5).toSingle? = some 0.5 := by
    with_unfolding_all decide
  have hlist : (Json.array [.ofMembers []]).Sound 2 :=
    sound_array (List.forall_mem_singleton.mpr sound_empty)
  have hinner : Passes (depthBound - 1 - 1) (Json.array [.ofMembers []]).tokens :=
    hlist.passes.mono (by decide)
  have hposition :
      (⟨10, -2.5⟩ : Point Float32).GivenBy (depthBound - 1 - 1) scatteredPosition :=
    ⟨.given rfl hread.2.1, .given rfl hread.1, by
      simp [PassesOthers, scatteredPosition, Point.fieldNames, hinner]⟩
  have hplain : Passes (depthBound - 1) Json.null.tokens ∧
      Passes (depthBound - 1) (Json.bool true).tokens :=
    ⟨sound_null.passes, (sound_bool true).passes⟩
  exact ⟨.given rfl rfl, ⟨.given rfl hread.2.2, .given rfl ⟨_, rfl, hposition⟩⟩, by
    simp [PassesOthers, scattered, kindName, kind, Kind.fieldNames, hplain]⟩

/-- A key that is pressed with one modifier named twice. -/
def doubled : List (String × Json) :=
  [("type", .ofString "key_pressed"), ("key", .ofString "up"),
    ("modifiers", .ofMembers [("ctrl", .bool true), ("ctrl", .bool true)])]

theorem layout_makes_no_difference_scattered :
    (IsTextOf scatteredText (.ofMembers scattered) ∧
      (Event.mouseWheel 0.5 ⟨10, -2.5⟩).GivenBy (depthBound - 1) scattered ∧
      read? scatteredText = some (.mouseWheel 0.5 ⟨10, -2.5⟩)) ∧
    IsTextOf (ofMembers doubled).compact (.ofMembers doubled) ∧ Flawed doubled ∧
      read? (ofMembers doubled).compact = none := by
  have hdoubled : IsTextOf (ofMembers doubled).compact (.ofMembers doubled) :=
    isTextOf_compact ⟨rfl, rfl, rfl, rfl, rfl, ⟨rfl, trivial, rfl, trivial, trivial⟩, trivial⟩
  have hkind : (kindName, .ofString Kind.keyPressed.name) ∈ doubled := .head _
  have hmodifiers : ("modifiers", .ofMembers [("ctrl", .bool true), ("ctrl", .bool true)]) ∈
      doubled := .tail _ (.tail _ (.head _))
  have hflawed : Flawed doubled :=
    .modifiers hkind (by decide) hmodifiers (by decide : "ctrl" ∈ Modifiers.fieldNames)
      Nat.one_lt_two
  exact ⟨⟨isTextOf_scattered, scattered_givenBy,
      layout_makes_no_difference.1 _ _ _ isTextOf_scattered scattered_givenBy⟩,
    hdoubled, hflawed, layout_makes_no_difference.2 _ _ hdoubled hflawed⟩

end Event

end PanZoom
