import PanZoom.Proofs.Format.Record
import PanZoom.Proofs.Json.Compact

namespace PanZoom

namespace Json

variable {α : Type} {members : List (String × Json)} {name : String} {read : Json → Option α}

/-- The members do not name the field, or one of them does and gives it a value. -/
inductive Gives (members : List (String × Json)) (name : String) (read : Json → Option α) :
    Option α → Prop
  | omitted : name ∉ members.map Prod.fst → Gives members name read none
  | given {v : Json} {a : α} : members.filter (·.1 = name) = [(name, v)] → read v = some a →
      Gives members name read (some a)

/-- The members do not name the section, and then it is as good as empty, or one of them does. -/
inductive GivesSection (members : List (String × Json)) (name : String)
    (Given : List (String × Json) → Prop) : Prop
  | omitted : name ∉ members.map Prod.fst → Given [] → GivesSection members name Given
  | present {inner : List (String × Json)} :
      members.filter (·.1 = name) = [(name, .ofMembers inner)] → Given inner →
      GivesSection members name Given

/-- One member has the name, and its value stands for what is meant. -/
inductive Presents (members : List (String × Json)) (name : String) (Stands : Json → Prop) : Prop
  | given {v : Json} : members.filter (·.1 = name) = [(name, v)] → Stands v →
      Presents members name Stands

/-- One member has the name and says whether the flag is set, or none has it and it is not set. -/
inductive PresentsFlag (members : List (String × Json)) (name : String) : Bool → Prop
  | omitted : name ∉ members.map Prod.fst → PresentsFlag members name false
  | given {b : Bool} : members.filter (·.1 = name) = [(name, .bool b)] →
      PresentsFlag members name b

def Omits (members : List (String × Json)) (name : String) : Prop :=
  name ∉ members.map Prod.fst

def Repeats (members : List (String × Json)) (name : String) : Prop :=
  1 < (members.filter (·.1 = name)).length

/-- The only value of a member with the name, if there is one, and not more. -/
def field? (members : List (String × Json)) (name : String) : Option (Option Json) :=
  atMostOne? (valuesOf (members.map fun m => (some m.1, m.2)) name)

/-- The fields of an object are found one by one. -/
theorem fields?_eq_mapM (members : List (String × Json)) (names : List String) :
    (ofMembers members).fields? names = names.mapM (field? members) := by
  have hnamed : (members.map fun m => ((some m.1, m.2) : Word × Json)).all (·.1.isSome) = true := by
    simp
  rw [ofMembers, fields?, if_pos hnamed]
  rfl

theorem valuesOf_ofMembers (members : List (String × Json)) (name : String) :
    valuesOf (members.map fun m => (some m.1, m.2)) name =
      (members.filter (·.1 = name)).map Prod.snd := by
  simp [valuesOf, List.filter_map, Function.comp_def]

theorem field?_of_not_mem (h : name ∉ members.map Prod.fst) : field? members name = some none := by
  rw [field?, valuesOf_eq_nil h]
  rfl

/-- Members with other names are passed over, repeated or not. -/
theorem field?_of_filter {v : Json} (h : members.filter (·.1 = name) = [(name, v)]) :
    field? members name = some (some v) := by
  rw [field?, valuesOf_ofMembers, h]
  rfl

theorem atMostOne?_eq_none {values : List Json} (h : 1 < values.length) :
    atMostOne? values = none := by
  match values with
  | [] | [_] => simp at h
  | _ :: _ :: _ => rfl

/-- Of several members with the name none is taken. -/
theorem field?_of_repeats (h : Repeats members name) : field? members name = none := by
  rw [field?, valuesOf_ofMembers]
  apply atMostOne?_eq_none
  rwa [List.length_map]

/-- What is found by a name is the value of any member with it: there is only one. -/
theorem field?_eq_of_mem {v : Json} {field : Option Json} (hmem : (name, v) ∈ members)
    (h : field? members name = some field) : field = some v := by
  have hvalue : v ∈ (members.filter (·.1 = name)).map Prod.snd :=
    List.mem_map.mpr ⟨(name, v), List.mem_filter.mpr ⟨hmem, decide_eq_true rfl⟩, rfl⟩
  rw [field?, valuesOf_ofMembers] at h
  generalize (members.filter (·.1 = name)).map Prod.snd = values at h hvalue
  match values with
  | [] => cases hvalue
  | [w] =>
    rw [List.mem_singleton] at hvalue
    cases h
    rw [hvalue]
  | _ :: _ :: _ => cases h

theorem not_repeats_of_field? {field : Option Json} (h : field? members name = some field) :
    ¬Repeats members name := by
  intro hrepeats
  rw [field?_of_repeats hrepeats] at h
  cases h

/-- Where all fields of a record are found, each of them is. -/
theorem exists_of_mapM {find : String → Option (Option Json)} {names : List String}
    {fields : List (Option Json)} (h : names.mapM find = some fields) (hname : name ∈ names) :
    ∃ field, find name = some field ∧ (name, field) ∈ names.zip fields := by
  induction names generalizing fields with
  | nil => cases hname
  | cons first names ih =>
    rw [List.mapM_cons] at h
    obtain ⟨field, hfield, h⟩ := Option.bind_eq_some_iff.mp h
    obtain ⟨rest, hrest, h⟩ := Option.bind_eq_some_iff.mp h
    cases h
    rcases List.mem_cons.mp hname with rfl | hname
    · exact ⟨field, hfield, List.mem_cons_self⟩
    · obtain ⟨found, hfound, hmem⟩ := ih hrest hname
      exact ⟨found, hfound, List.mem_cons_of_mem _ hmem⟩

/-- A field that is given has its value, and one that is not has its default. -/
theorem Gives.optional {given : Option α} (h : Gives members name read given) (default : α) :
    ∃ field, field? members name = some field ∧
      Json.optional read default field = some (given.getD default) := by
  cases h with
  | omitted hnone => exact ⟨none, field?_of_not_mem hnone, rfl⟩
  | given hone hread => exact ⟨_, field?_of_filter hone, hread⟩

theorem Gives.required {a : α} (h : Gives members name read (some a)) :
    ∃ field, field? members name = some field ∧ Json.required read field = some a := by
  cases h with
  | given hone hread => exact ⟨_, field?_of_filter hone, hread⟩

/-- A section that is left out is read like an empty one. -/
theorem GivesSection.optional {Given : List (String × Json) → Prop} {a default : α}
    (h : GivesSection members name Given)
    (hread : ∀ inner, Given inner → read (ofMembers inner) = some a)
    (hempty : read (ofMembers []) = some default) :
    ∃ field, field? members name = some field ∧ Json.optional read default field = some a := by
  cases h with
  | omitted hnone hgiven =>
    refine ⟨none, field?_of_not_mem hnone, ?_⟩
    rw [← hread [] hgiven, hempty]
    rfl
  | present hone hgiven => exact ⟨_, field?_of_filter hone, hread _ hgiven⟩

theorem Presents.required {Stands : Json → Prop} {a : α} (h : Presents members name Stands)
    (hread : ∀ v, Stands v → read v = some a) :
    ∃ field, field? members name = some field ∧ Json.required read field = some a := by
  cases h with
  | given hone hstands => exact ⟨_, field?_of_filter hone, hread _ hstands⟩

theorem PresentsFlag.optional {b : Bool} (h : PresentsFlag members name b) :
    ∃ field, field? members name = some field ∧ Json.optional toBool? false field = some b := by
  cases h with
  | omitted hnone => exact ⟨none, field?_of_not_mem hnone, rfl⟩
  | given hone => exact ⟨_, field?_of_filter hone, rfl⟩

variable {depth : Nat} {m : String × Json}

/-- The only member with the name is this one. -/
theorem eq_of_filter {v : Json} (h : members.filter (·.1 = name) = [(name, v)]) (hm : m ∈ members)
    (hname : m.1 = name) : m.2 = v := by
  have hmem : m ∈ members.filter (·.1 = name) := List.mem_filter.mpr ⟨hm, decide_eq_true hname⟩
  rw [h, List.mem_singleton] at hmem
  rw [hmem]

theorem Presents.passes {Stands : Json → Prop} (h : Presents members name Stands)
    (hpasses : ∀ v, Stands v → Passes depth v.tokens) (hm : m ∈ members) (hname : m.1 = name) :
    Passes depth m.2.tokens := by
  cases h with
  | given hone hstands => exact eq_of_filter hone hm hname ▸ hpasses _ hstands

theorem PresentsFlag.passes {b : Bool} (h : PresentsFlag members name b) (hm : m ∈ members)
    (hname : m.1 = name) : Passes depth m.2.tokens := by
  cases h with
  | omitted hnone => exact absurd (hname ▸ List.mem_map_of_mem hm) hnone
  | given hone => exact eq_of_filter hone hm hname ▸ (sound_bool _).passes

theorem GivesSection.passes {Given : List (String × Json) → Prop}
    (h : GivesSection members name Given)
    (hpasses : ∀ inner, Given inner → Passes depth (ofMembers inner).tokens) (hm : m ∈ members)
    (hname : m.1 = name) : Passes depth m.2.tokens := by
  cases h with
  | omitted hnone _ => exact absurd (hname ▸ List.mem_map_of_mem hm) hnone
  | present hone hgiven => exact eq_of_filter hone hm hname ▸ hpasses _ hgiven

end Json

end PanZoom
