import PanZoom.Format.Events
import PanZoom.Proofs.Format.Fields
import PanZoom.Proofs.Format.Keys

namespace PanZoom

variable {members : List (String × Json)} {depth : Nat} {v : Json}

namespace Json

/-- A choice that carries nothing is its name, or an object whose only member has that name and
holds nothing. -/
inductive Chooses (name : String) : Json → Prop
  | bare : Chooses name (.ofString name)
  | null : Chooses name (.ofMembers [(name, .null)])
  | empty : Chooses name (.ofMembers [(name, .ofMembers [])])

/-- A numeral that is read as the number: the decimal written for it, if that reads back, or another
with more digits or an exponent. -/
def ReadAs (x : Float32) (v : Json) : Prop :=
  v.toSingle? = some x

/-- An object with members that present something. -/
def IsObject (Given : List (String × Json) → Prop) (v : Json) : Prop :=
  ∃ inner, v = .ofMembers inner ∧ Given inner

/-- A strict reader passes the values of all members with other names. -/
def PassesOthers (depth : Nat) (names : List String) (members : List (String × Json)) : Prop :=
  ∀ m ∈ members, m.1 ∉ names → Passes depth m.2.tokens

variable {name : String}

theorem Chooses.named? {α : Type} (h : Chooses name v) (ofName? : String → Option α) :
    v.named? true ofName? = ofName? name := by
  cases h with
  | bare | null | empty => rfl

/-- A choice has no other name. -/
theorem Chooses.name_eq {other : String} {carried : Option Json} (h : Chooses name v)
    (hchoice : v.choice? = some (other, carried)) : other = name := by
  cases h with
  | bare | null | empty =>
    cases hchoice
    rfl

theorem Chooses.passes (h : Chooses name v) : Passes 2 v.tokens := by
  cases h with
  | bare => exact (sound_ofString name).passes
  | null => exact passes_ofMembers (List.forall_mem_singleton.mpr sound_null.passes)
  | empty => exact passes_ofMembers (List.forall_mem_singleton.mpr sound_empty.passes)

/-- A count that fits in 64 bits is in range. -/
theorem sound_ofNat {n : Nat} (h : n ≤ Numeral.greatestSignificand) (depth : Nat) :
    (ofNat n).Sound depth :=
  sound_number (Numeral.isProper_ofNat n) (Numeral.isSome_toDouble?_ofNat h)

theorem sound_ofCount (n : UInt32) (depth : Nat) : (ofNat n.toNat).Sound depth :=
  sound_ofNat (Nat.le_trans (Nat.le_of_lt n.toNat_lt) (by decide)) depth

theorem ReadAs.passes {x : Float32} (h : ReadAs x v) : Passes depth v.tokens := by
  cases v with
  | number n =>
    exact passes_nil.cons (Numeral.isSome_toDouble?_of_toSingle? h) fun _ => rfl
  | _ => cases h

end Json

open Json

namespace Key

inductive WrittenAs : Key → Json → Prop
  | char (c : Char) :
      WrittenAs (.char c) (.ofMembers [("char", .ofString (String.singleton c))])
  | plain {k : Key} {v : Json} : k ∈ Key.plain → Chooses k.name v → WrittenAs k v

variable {k : Key}

theorem writtenAs_toJson (k : Key) : k.WrittenAs k.toJson := by
  rcases char_or_plain k with ⟨c, rfl⟩ | ⟨hplain, hname⟩
  · exact .char c
  · exact .plain hplain (hname ▸ .bare)

theorem WrittenAs.read (h : k.WrittenAs v) : ofJson? true v = some k := by
  cases h with
  | char c => exact ofJson?_toJson true (.char c)
  | plain hplain hchooses =>
    have hname : ∀ k ∈ Key.plain, k.name ≠ "char" := by decide
    unfold ofJson?
    split
    · rename_i hchoice
      exact absurd (hchooses.name_eq hchoice).symm (hname k hplain)
    · rw [hchooses.named?]
      exact Json.find?_name name hplain (by decide)

theorem sound_toJson (k : Key) : k.toJson.Sound 1 := by
  rcases char_or_plain k with ⟨c, rfl⟩ | ⟨-, hname⟩
  · exact Json.sound_ofMembers (List.forall_mem_singleton.mpr (Json.sound_ofString _))
  · rw [hname]
    exact Json.sound_ofString _

theorem WrittenAs.passes (h : k.WrittenAs v) : Passes 2 v.tokens := by
  cases h with
  | char c => exact (sound_toJson (.char c)).passes.mono (by decide)
  | plain _ hchooses => exact hchooses.passes

end Key

namespace MouseButton

inductive WrittenAs : MouseButton → Json → Prop
  | other (code : UInt16) : WrittenAs (.other code) (.ofMembers [("other", .ofNat code.toNat)])
  | plain {b : MouseButton} {v : Json} : b ∈ MouseButton.plain → Chooses b.name v → WrittenAs b v

variable {b : MouseButton}

theorem writtenAs_toJson (b : MouseButton) : b.WrittenAs b.toJson := by
  rcases other_or_plain b with ⟨code, rfl⟩ | ⟨hplain, hname⟩
  · exact .other code
  · exact .plain hplain (hname ▸ .bare)

theorem WrittenAs.read (h : b.WrittenAs v) : ofJson? true v = some b := by
  cases h with
  | other code => exact ofJson?_toJson true (.other code)
  | plain hplain hchooses =>
    have hname : ∀ b ∈ MouseButton.plain, b.name ≠ "other" := by decide
    unfold ofJson?
    split
    · rename_i hchoice
      exact absurd (hchooses.name_eq hchoice).symm (hname b hplain)
    · rw [hchooses.named?]
      exact Json.find?_name name hplain (by decide)

theorem sound_toJson (b : MouseButton) : b.toJson.Sound 1 := by
  rcases other_or_plain b with ⟨code, rfl⟩ | ⟨-, hname⟩
  · have hcode : code.toNat ≤ Numeral.greatestSignificand :=
      Nat.le_trans (Nat.le_of_lt code.toNat_lt) (by decide)
    exact Json.sound_ofMembers (List.forall_mem_singleton.mpr (Json.sound_ofNat hcode 0))
  · rw [hname]
    exact Json.sound_ofString _

theorem WrittenAs.passes (h : b.WrittenAs v) : Passes 2 v.tokens := by
  cases h with
  | other code => exact (sound_toJson (.other code)).passes.mono (by decide)
  | plain _ hchooses => exact hchooses.passes

end MouseButton

namespace Point

structure GivenBy (depth : Nat) (p : Point Float32) (members : List (String × Json)) : Prop where
  x : Presents members "x" (ReadAs p.x)
  y : Presents members "y" (ReadAs p.y)
  others : PassesOthers depth fieldNames members

variable {p : Point Float32}

theorem GivenBy.read (h : p.GivenBy depth members) : ofJson? (.ofMembers members) = some p := by
  obtain ⟨x, hx, hxRead⟩ := h.x.required fun _ hread => hread
  obtain ⟨y, hy, hyRead⟩ := h.y.required fun _ hread => hread
  have hfields : (Json.ofMembers members).fields? fieldNames = some [x, y] := by
    simp [fields?_eq_mapM, fieldNames, hx, hy]
  simp only [ofJson?, hfields, hxRead, hyRead, Option.bind_eq_bind, Option.bind_some,
    Option.pure_def]

theorem GivenBy.passes (h : p.GivenBy depth members) :
    Passes (depth + 1) (Json.ofMembers members).tokens := by
  apply passes_ofMembers
  intro m hm
  by_cases hname : m.1 ∈ fieldNames
  · simp only [fieldNames, List.mem_cons, List.not_mem_nil, or_false] at hname
    rcases hname with hx | hy
    · exact h.x.passes (fun _ hread => hread.passes) hm hx
    · exact h.y.passes (fun _ hread => hread.passes) hm hy
  · exact h.others m hm hname

end Point

namespace Modifiers

/-- The members give the modifiers that are held, and perhaps others that are not. -/
structure GivenBy (depth : Nat) (held : Modifiers) (members : List (String × Json)) : Prop where
  shift : PresentsFlag members "shift" held.shift
  ctrl : PresentsFlag members "ctrl" held.ctrl
  alt : PresentsFlag members "alt" held.alt
  «meta» : PresentsFlag members "meta" held.meta
  others : PassesOthers depth fieldNames members

variable {held : Modifiers}

theorem GivenBy.read (h : held.GivenBy depth members) :
    ofJson? (.ofMembers members) = some held := by
  obtain ⟨shift, hshift, hshiftRead⟩ := h.shift.optional
  obtain ⟨ctrl, hctrl, hctrlRead⟩ := h.ctrl.optional
  obtain ⟨alt, halt, haltRead⟩ := h.alt.optional
  obtain ⟨command, hcommand, hcommandRead⟩ := h.meta.optional
  have hfields : (Json.ofMembers members).fields? fieldNames =
      some [shift, ctrl, alt, command] := by
    simp [fields?_eq_mapM, fieldNames, hshift, hctrl, halt, hcommand]
  simp only [ofJson?, hfields, hshiftRead, hctrlRead, haltRead, hcommandRead, Option.bind_eq_bind,
    Option.bind_some, Option.pure_def]

theorem GivenBy.passes (h : held.GivenBy depth members) :
    Passes (depth + 1) (Json.ofMembers members).tokens := by
  apply passes_ofMembers
  intro m hm
  by_cases hname : m.1 ∈ fieldNames
  · simp only [fieldNames, List.mem_cons, List.not_mem_nil, or_false] at hname
    rcases hname with hshift | hctrl | halt | hmeta
    · exact h.shift.passes hm hshift
    · exact h.ctrl.passes hm hctrl
    · exact h.alt.passes hm halt
    · exact h.meta.passes hm hmeta
  · exact h.others m hm hname

end Modifiers

namespace Event

variable {e : Event Float32}

theorem Kind.mem_every (k : Kind) : k ∈ every := by
  cases k <;> decide

theorem Kind.ofName?_name (k : Kind) : ofName? k.name = some k :=
  Json.find?_name name (mem_every k) (by decide)

/-- The members give the fields of the event. The modifiers may be left out if none is held. -/
def FieldsGivenBy (depth : Nat) (members : List (String × Json)) : Event Float32 → Prop
  | .resized size =>
      Presents members "width" (· = .ofNat size.width.toNat) ∧
        Presents members "height" (· = .ofNat size.height.toNat)
  | .mousePressed button position =>
      Presents members "button" button.WrittenAs ∧
        Presents members "position" (IsObject (position.GivenBy (depth - 1)))
  | .mouseReleased button position =>
      Presents members "button" button.WrittenAs ∧
        Presents members "position" (IsObject (position.GivenBy (depth - 1)))
  | .mouseMoved position => Presents members "position" (IsObject (position.GivenBy (depth - 1)))
  | .mouseWheel delta position =>
      Presents members "delta" (ReadAs delta) ∧
        Presents members "position" (IsObject (position.GivenBy (depth - 1)))
  | .keyPressed key modifiers =>
      Presents members "key" key.WrittenAs ∧
        GivesSection members "modifiers" (modifiers.GivenBy (depth - 1))
  | .keyReleased key modifiers =>
      Presents members "key" key.WrittenAs ∧
        GivesSection members "modifiers" (modifiers.GivenBy (depth - 1))

/-- The members present the event: its kind and its fields, each once and in any order. Members with
other names hold what a strict reader passes. -/
structure GivenBy (depth : Nat) (e : Event Float32) (members : List (String × Json)) : Prop where
  kind : Presents members kindName (· = .ofString e.kind.name)
  fields : e.FieldsGivenBy depth members
  others : PassesOthers depth (kindName :: e.kind.fieldNames) members

/-- Fields of a kind are found by their names and read one after another. -/
theorem ofKindAndRecord?_ofMembers (k : Kind) (members : List (String × Json)) :
    ofKindAndRecord? (.ofString k.name) (.ofMembers members) =
      (k.fieldNames.mapM (field? members)).bind (ofFields? k) := by
  simp only [ofKindAndRecord?, Json.ofString, Kind.ofName?_name, fields?_eq_mapM,
    Option.bind_eq_bind, Option.bind_some]

/-- An object is an event of the kind that its only member with that name says. -/
theorem ofJson?_ofMembers (members : List (String × Json)) :
    ofJson? (.ofMembers members) = (field? members kindName).bind fun kind =>
      kind.bind (ofKindAndRecord? · (.ofMembers members)) := by
  simp only [ofMembers, ofJson?, field?]
  generalize valuesOf (members.map fun m => (some m.1, m.2)) kindName = values
  rcases values with _ | ⟨kind, _ | ⟨other, rest⟩⟩ <;> rfl

/-! ## Reading an object that presents an event -/

/-- The fields are found, wherever they stand, and make up the event. -/
theorem FieldsGivenBy.read (h : e.FieldsGivenBy depth members) :
    (e.kind.fieldNames.mapM (field? members)).bind (ofFields? e.kind) = some e := by
  have hobject {p : Point Float32} {v : Json} (h : IsObject (p.GivenBy (depth - 1)) v) :
      Point.ofJson? v = some p := by
    obtain ⟨inner, rfl, hinner⟩ := h
    exact hinner.read
  cases e with
  | resized size =>
    obtain ⟨width, hwidth, hwidthRead⟩ := h.1.required fun _ hcount => hcount ▸ toCount?_ofNat _
    obtain ⟨height, hheight, hheightRead⟩ := h.2.required fun _ hcount => hcount ▸ toCount?_ofNat _
    simp [kind, Kind.fieldNames, ofFields?, hwidth, hheight, hwidthRead, hheightRead]
  | mousePressed button position | mouseReleased button position =>
    obtain ⟨given, hgiven, hgivenRead⟩ := h.1.required fun _ hwritten => hwritten.read
    obtain ⟨place, hplace, hplaceRead⟩ := h.2.required fun _ => hobject
    simp [kind, Kind.fieldNames, ofFields?, hgiven, hplace, hgivenRead, hplaceRead]
  | mouseMoved position =>
    obtain ⟨place, hplace, hplaceRead⟩ := Presents.required h fun _ => hobject
    simp [kind, Kind.fieldNames, ofFields?, hplace, hplaceRead]
  | mouseWheel delta position =>
    obtain ⟨given, hgiven, hgivenRead⟩ := h.1.required fun _ hread => hread
    obtain ⟨place, hplace, hplaceRead⟩ := h.2.required fun _ => hobject
    simp [kind, Kind.fieldNames, ofFields?, hgiven, hplace, hgivenRead, hplaceRead]
  | keyPressed key modifiers | keyReleased key modifiers =>
    obtain ⟨given, hgiven, hgivenRead⟩ := h.1.required fun _ hwritten => hwritten.read
    obtain ⟨held, hheld, hheldRead⟩ :=
      h.2.optional (fun _ hinner => hinner.read) (by rfl : Modifiers.ofJson? _ = some .released)
    simp [kind, Kind.fieldNames, ofFields?, hgiven, hheld, hgivenRead, hheldRead]

theorem GivenBy.read (h : e.GivenBy depth members) : ofJson? (.ofMembers members) = some e := by
  obtain ⟨hone, rfl⟩ := h.kind
  simp only [ofJson?_ofMembers, field?_of_filter hone, Option.bind_some,
    ofKindAndRecord?_ofMembers]
  exact h.fields.read

theorem FieldsGivenBy.passes (h : e.FieldsGivenBy depth members) (hdepth : 2 ≤ depth)
    {m : String × Json} (hm : m ∈ members) (hname : m.1 ∈ e.kind.fieldNames) :
    Passes depth m.2.tokens := by
  have hroom : depth - 1 + 1 = depth := by omega
  have hobject {p : Point Float32} {v : Json} (h : IsObject (p.GivenBy (depth - 1)) v) :
      Passes depth v.tokens := by
    obtain ⟨inner, rfl, hinner⟩ := h
    exact hroom ▸ hinner.passes
  cases e with
  | resized size =>
    simp only [kind, Kind.fieldNames, List.mem_cons, List.not_mem_nil, or_false] at hname
    rcases hname with hwidth | hheight
    · exact h.1.passes (fun _ hcount => hcount ▸ (sound_ofCount _ _).passes) hm hwidth
    · exact h.2.passes (fun _ hcount => hcount ▸ (sound_ofCount _ _).passes) hm hheight
  | mousePressed button position | mouseReleased button position =>
    simp only [kind, Kind.fieldNames, List.mem_cons, List.not_mem_nil, or_false] at hname
    rcases hname with hbutton | hposition
    · exact h.1.passes (fun _ hwritten => hwritten.passes.mono hdepth) hm hbutton
    · exact h.2.passes (fun _ => hobject) hm hposition
  | mouseMoved position =>
    simp only [kind, Kind.fieldNames, List.mem_singleton] at hname
    exact Presents.passes h (fun _ => hobject) hm hname
  | mouseWheel delta position =>
    simp only [kind, Kind.fieldNames, List.mem_cons, List.not_mem_nil, or_false] at hname
    rcases hname with hdelta | hposition
    · exact h.1.passes (fun _ hread => hread.passes) hm hdelta
    · exact h.2.passes (fun _ => hobject) hm hposition
  | keyPressed key modifiers | keyReleased key modifiers =>
    simp only [kind, Kind.fieldNames, List.mem_cons, List.not_mem_nil, or_false] at hname
    rcases hname with hkey | hmodifiers
    · exact h.1.passes (fun _ hwritten => hwritten.passes.mono hdepth) hm hkey
    · exact h.2.passes (fun _ hinner => hroom ▸ hinner.passes) hm hmodifiers

/-- A strict reader passes an object that presents an event. -/
theorem GivenBy.passes (h : e.GivenBy depth members) (hdepth : 2 ≤ depth) :
    Passes (depth + 1) (Json.ofMembers members).tokens := by
  apply passes_ofMembers
  intro m hm
  by_cases hname : m.1 ∈ kindName :: e.kind.fieldNames
  · rcases List.mem_cons.mp hname with hkind | hfield
    · exact h.kind.passes (fun _ hword => hword ▸ (sound_ofString _).passes) hm hkind
    · exact h.fields.passes hdepth hm hfield
  · exact h.others m hm hname

/-- A script whose items are read is read item by item. -/
theorem scriptOfJson?_map {ι : Type} {item : ι → Json} {event : ι → Event Float32}
    {entries : List ι} (h : ∀ entry ∈ entries, ofJson? (item entry) = some (event entry)) :
    scriptOfJson? (.array (entries.map item)) = some (entries.map event) := by
  rw [scriptOfJson?]
  induction entries with
  | nil => rfl
  | cons entry entries ih =>
    have hfirst := h entry List.mem_cons_self
    have hrest := ih fun other hother => h other (List.mem_cons_of_mem entry hother)
    simp only [List.map_cons, List.mapM_cons, hfirst, hrest, Option.bind_eq_bind, Option.bind_some,
      Option.pure_def]

end Event

end PanZoom
