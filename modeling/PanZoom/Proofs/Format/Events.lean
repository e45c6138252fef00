import PanZoom.Proofs.Format.Presented

/-!
# Events and scripts that are read back

An event is written with its kind first and all of its fields, and what is written stands for that
event. So do the items of a script, and its text is read even though the whole of it must be sound.

* `ReadsBack`: the decimal of a number stands for the number it is written for;
* `Event.numbers`: the coordinates that an event carries;
* `Event.isObject_toJson`: what is written for an event presents it;
* `Event.ofJson?_toJson`: hence it stands for that event;
* `Event.sound_toJson`: a strict reader takes it;
* `Event.script_round_trip`: the text of a script is read as that script, so different scripts have
  different texts.
-/

namespace PanZoom

open Json

variable {depth : Nat}

/-- The decimal that is written for the number is read as that number. Reading rounds twice, so this
does not follow from the choice of the digits. -/
def ReadsBack (x : Float32) : Prop :=
  (Json.ofSingle x).toSingle? = some x

/-- What is written for a number that reads back is a numeral in range. -/
theorem ReadsBack.sound {x : Float32} (h : ReadsBack x) (depth : Nat) :
    (Json.ofSingle x).Sound depth := by
  unfold ReadsBack at h
  unfold Json.ofSingle Json.ofValue at h ⊢
  split at h
  · exact sound_number (Numeral.isProper_ofScientific _ _ _)
      (Numeral.isSome_toDouble?_of_toSingle? h)
  · cases h

namespace Point

def numbers {α : Type} (p : Point α) : List α :=
  [p.x, p.y]

variable {p : Point Float32}

theorem isObject_toJson (h : ∀ x ∈ p.numbers, ReadsBack x) :
    IsObject (p.GivenBy depth) p.toJson :=
  ⟨_, rfl, .given rfl (h p.x (by simp [numbers])), .given rfl (h p.y (by simp [numbers])),
    by simp [PassesOthers, fieldNames]⟩

theorem sound_toJson (h : ∀ x ∈ p.numbers, ReadsBack x) : p.toJson.Sound 1 := by
  have hx : ReadsBack p.x := h p.x (by simp [numbers])
  have hy : ReadsBack p.y := h p.y (by simp [numbers])
  apply sound_ofMembers
  simp [hx.sound 0, hy.sound 0]

end Point

namespace Modifiers

theorem isObject_toJson (held : Modifiers) : IsObject (held.GivenBy depth) held.toJson :=
  ⟨_, rfl, .given rfl, .given rfl, .given rfl, .given rfl, by simp [PassesOthers, fieldNames]⟩

theorem sound_toJson (m : Modifiers) : m.toJson.Sound 1 := by
  apply sound_ofMembers
  simp [sound_bool]

end Modifiers

namespace Event

def numbers {α : Type} : Event α → List α
  | .mousePressed _ position => position.numbers
  | .mouseReleased _ position => position.numbers
  | .mouseMoved position => position.numbers
  | .mouseWheel delta position => delta :: position.numbers
  | .resized _ => []
  | .keyPressed _ _ => []
  | .keyReleased _ _ => []

variable {e : Event Float32}

/-- The members that are written for an event, without its kind. -/
def fields (e : Event Float32) : List (String × Json) :=
  e.kind.fieldNames.zip e.fieldValues

theorem length_fieldValues (e : Event Float32) :
    e.fieldValues.length = e.kind.fieldNames.length := by
  cases e <;> rfl

theorem fields_names (e : Event Float32) : e.fields.map Prod.fst = e.kind.fieldNames :=
  List.map_fst_zip (Nat.le_of_eq (length_fieldValues e).symm)

theorem fields_values (e : Event Float32) : e.fields.map Prod.snd = e.fieldValues :=
  List.map_snd_zip (Nat.le_of_eq (length_fieldValues e))

/-- What is written for an event presents it. -/
theorem isObject_toJson (h : ∀ x ∈ e.numbers, ReadsBack x) :
    IsObject (e.GivenBy depth) e.toJson := by
  have hfields : e.FieldsGivenBy depth ((kindName, .ofString e.kind.name) :: e.fields) := by
    cases e with
    | resized size => exact ⟨.given rfl rfl, .given rfl rfl⟩
    | mousePressed button position | mouseReleased button position =>
      exact ⟨.given rfl button.writtenAs_toJson, .given rfl (Point.isObject_toJson h)⟩
    | mouseMoved position => exact .given rfl (Point.isObject_toJson h)
    | mouseWheel delta position =>
      have hplace : ∀ x ∈ position.numbers, ReadsBack x :=
        fun x hx => h x (List.mem_cons_of_mem delta hx)
      exact ⟨.given rfl (h delta List.mem_cons_self), .given rfl (Point.isObject_toJson hplace)⟩
    | keyPressed key modifiers | keyReleased key modifiers =>
      obtain ⟨inner, hinner, hgiven⟩ := modifiers.isObject_toJson
      exact ⟨.given rfl key.writtenAs_toJson, .present (hinner ▸ rfl) hgiven⟩
  have hkind : ((kindName, Json.ofString e.kind.name) :: e.fields).filter (·.1 = kindName) =
      [(kindName, .ofString e.kind.name)] := by
    cases e <;> rfl
  have hnames : ((kindName, Json.ofString e.kind.name) :: e.fields).map Prod.fst =
      kindName :: e.kind.fieldNames := by
    rw [List.map_cons, fields_names]
  refine ⟨_, rfl, .given hkind rfl, hfields, fun m hm hother => ?_⟩
  exact absurd (hnames ▸ List.mem_map_of_mem hm) hother

/-- What is written for an event stands for that event. -/
theorem ofJson?_toJson (h : ∀ x ∈ e.numbers, ReadsBack x) : ofJson? e.toJson = some e := by
  obtain ⟨members, hmembers, hgiven⟩ : IsObject (e.GivenBy 0) e.toJson := isObject_toJson h
  exact hmembers ▸ hgiven.read

/-- A strict reader takes what is written for an event. -/
theorem sound_toJson (h : ∀ x ∈ e.numbers, ReadsBack x) : e.toJson.Sound 2 := by
  have hvalues : ∀ v ∈ e.fieldValues, v.Sound 1 := by
    cases e with
    | resized size => simp [fieldValues, sound_ofCount]
    | mousePressed button position | mouseReleased button position =>
      simp [fieldValues, MouseButton.sound_toJson, Point.sound_toJson h]
    | mouseMoved position => simp [fieldValues, Point.sound_toJson h]
    | mouseWheel delta position =>
      have hdelta : ReadsBack delta := h delta List.mem_cons_self
      have hposition := Point.sound_toJson fun x hx => h x (List.mem_cons_of_mem delta hx)
      simp [fieldValues, hdelta.sound 1, hposition]
    | keyPressed key modifiers | keyReleased key modifiers =>
      simp [fieldValues, Key.sound_toJson, Modifiers.sound_toJson]
  refine sound_ofMembers (List.forall_mem_cons.mpr ⟨sound_ofString _, ?_⟩)
  intro m hm
  apply hvalues
  rw [← fields_values]
  exact List.mem_map_of_mem hm

/-! ## Scripts -/

variable {events : List (Event Float32)}

def HasFiniteNumbers (events : List (Event Float32)) : Prop :=
  ∀ e ∈ events, ∀ x ∈ e.numbers, x.isFinite

def NumbersReadBack (events : List (Event Float32)) : Prop :=
  ∀ e ∈ events, ∀ x ∈ e.numbers, x.isFinite → ReadsBack x

theorem scriptOfJson?_scriptToJson (h : ∀ e ∈ events, ∀ x ∈ e.numbers, ReadsBack x) :
    scriptOfJson? (scriptToJson events) = some events := by
  have hread := scriptOfJson?_map fun e he => ofJson?_toJson (h e he)
  rwa [List.map_id'] at hread

theorem sound_scriptToJson (h : ∀ e ∈ events, ∀ x ∈ e.numbers, ReadsBack x) :
    (scriptToJson events).Sound 3 := by
  apply sound_array
  intro v hv
  obtain ⟨e, he, rfl⟩ := List.mem_map.mp hv
  exact sound_toJson (h e he)

theorem readScript?_compact (hfinite : HasFiniteNumbers events) (hback : NumbersReadBack events) :
    readScript? (scriptToJson events).compact = some events := by
  have h : ∀ e ∈ events, ∀ x ∈ e.numbers, ReadsBack x :=
    fun e he x hx => hback e he x hx (hfinite e he x hx)
  have hsound : (scriptToJson events).Sound depthBound :=
    (sound_scriptToJson h).mono (by decide)
  rw [readScript?, parseStrict?_compact hsound, Option.bind_some,
    scriptOfJson?_scriptToJson h]

/-- **Scripts are read back.** A script of any length with finite coordinates is read from its own
text as it was, to the bit. Hence no two such scripts have the same text. -/
theorem script_round_trip :
    (∀ events : List (Event Float32), HasFiniteNumbers events → NumbersReadBack events →
      readScript? (scriptToJson events).compact = some events) ∧
    (∀ a b : List (Event Float32), HasFiniteNumbers a → NumbersReadBack a →
      HasFiniteNumbers b → NumbersReadBack b →
      (scriptToJson a).compact = (scriptToJson b).compact → a = b) := by
  refine ⟨fun events => readScript?_compact, ?_⟩
  intro a b hafinite haback hbfinite hbback htext
  have ha := readScript?_compact hafinite haback
  have hb := readScript?_compact hbfinite hbback
  rw [htext, hb] at ha
  exact (Option.some_inj.mp ha).symm

/-- Every kind of event, with a quote, a control character and a character beyond sixteen bits as
keys, a negative zero and both ends of the range. -/
def assorted : List (Event Float32) :=
  [.resized ⟨0, 4294967295⟩,
   .mousePressed .left ⟨-0.0, 0.1⟩,
   .mouseReleased (.other 65535) ⟨.ofBits 0x00000001, .ofBits 0x7f7fffff⟩,
   .mouseMoved ⟨16777216, -2.5⟩,
   .mouseWheel (.ofBits 0x80000001) ⟨1e13, 1e-7⟩,
   .keyPressed (.char '"') ⟨true, false, true, false⟩,
   .keyReleased (.char '\x00') .released,
   .keyPressed (.char '😀') ⟨false, true, false, true⟩,
   .keyReleased .left ⟨true, true, true, true⟩]

/-- A move to the corner, from the one side or the other of zero. -/
def corner (zero : Float32) : List (Event Float32) :=
  [.mouseMoved ⟨zero, 1⟩]

/-- The cases of the assorted script, and of two scripts that differ in the sign of a zero only. -/
theorem script_round_trip_assorted :
    HasFiniteNumbers assorted ∧ NumbersReadBack assorted ∧
      readScript? (scriptToJson assorted).compact = some assorted ∧
      (scriptToJson (corner (-0.0))).compact ≠ (scriptToJson (corner 0.0)).compact := by
  have hfinite : HasFiniteNumbers assorted := by
    unfold HasFiniteNumbers
    with_unfolding_all decide
  have hback : NumbersReadBack assorted := by
    unfold NumbersReadBack ReadsBack
    with_unfolding_all decide
  have hminus : HasFiniteNumbers (corner (-0.0)) ∧ NumbersReadBack (corner (-0.0)) := by
    unfold HasFiniteNumbers NumbersReadBack ReadsBack
    with_unfolding_all decide
  have hplus : HasFiniteNumbers (corner 0.0) ∧ NumbersReadBack (corner 0.0) := by
    unfold HasFiniteNumbers NumbersReadBack ReadsBack
    with_unfolding_all decide
  refine ⟨hfinite, hback, script_round_trip.1 assorted hfinite hback, ?_⟩
  intro htext
  have hsame := script_round_trip.2 _ _ hminus.1 hminus.2 hplus.1 hplus.2 htext
  have hdiffer : corner (-0.0) ≠ corner 0.0 := by with_unfolding_all decide
  exact hdiffer hsame

end Event

end PanZoom
