import PanZoom.Format.Keys
import PanZoom.Proofs.Format.Record

namespace PanZoom

namespace Key

/-- A key carries a character, or it is written as its name. -/
theorem char_or_plain (k : Key) :
    (∃ c, k = char c) ∨ k ∈ plain ∧ k.toJson = .ofString k.name := by
  cases k with
  | char c => exact .inl ⟨c, rfl⟩
  | _ => exact .inr ⟨by decide, rfl⟩

theorem ofJson?_ofString (emptyObject : Bool) (name : String) :
    ofJson? emptyObject (.ofString name) = ofName? name := by
  unfold ofJson?
  split
  · rename_i hchoice
    cases hchoice
  · exact Json.named?_ofString emptyObject ofName? name

theorem ofJson?_toJson (emptyObject : Bool) (k : Key) : ofJson? emptyObject k.toJson = some k := by
  rcases char_or_plain k with ⟨c, rfl⟩ | ⟨hplain, hname⟩
  · show (Json.ofString (String.singleton c)).toChar?.map char = some (char c)
    rw [Json.toChar?_singleton, Option.map_some]
  · rw [hname, ofJson?_ofString]
    exact Json.find?_name name hplain (by decide)

theorem isWritable_toJson (k : Key) : k.toJson.IsWritable := by
  rcases char_or_plain k with ⟨c, rfl⟩ | ⟨-, hname⟩
  · exact Json.isWritable_ofMembers (List.forall_mem_singleton.mpr (Json.isWritable_ofString _))
  · rw [hname]
    exact Json.isWritable_ofString _

end Key

namespace ModifierKey

theorem mem_every (k : ModifierKey) : k ∈ every := by
  cases k <;> decide

theorem ofJson?_toJson (k : ModifierKey) : ofJson? k.toJson = some k :=
  Json.find?_name name (mem_every k) (by decide)

theorem isWritable_toJson (k : ModifierKey) : k.toJson.IsWritable :=
  Json.isWritable_ofString k.name

end ModifierKey

namespace MouseButton

/-- A button is numbered, or it is written as its name. -/
theorem other_or_plain (b : MouseButton) :
    (∃ code, b = other code) ∨ b ∈ plain ∧ b.toJson = .ofString b.name := by
  cases b with
  | other code => exact .inl ⟨code, rfl⟩
  | _ => exact .inr ⟨by decide, rfl⟩

theorem ofJson?_ofString (emptyObject : Bool) (name : String) :
    ofJson? emptyObject (.ofString name) = ofName? name := by
  unfold ofJson?
  split
  · rename_i hchoice
    cases hchoice
  · exact Json.named?_ofString emptyObject ofName? name

theorem ofJson?_toJson (emptyObject : Bool) (b : MouseButton) :
    ofJson? emptyObject b.toJson = some b := by
  rcases other_or_plain b with ⟨code, rfl⟩ | ⟨hplain, hname⟩
  · have hcode : code.toNat ≤ UInt16.size - 1 := Nat.le_sub_one_of_lt code.toNat_lt
    show ((Json.ofNat code.toNat).toNat? (UInt16.size - 1)).map
      (fun code => other (UInt16.ofNat code)) = some (other code)
    rw [Json.toNat?_ofNat hcode (by decide), Option.map_some, UInt16.ofNat_toNat]
  · rw [hname, ofJson?_ofString]
    exact Json.find?_name name hplain (by decide)

end MouseButton

namespace Bindings

theorem ofJson?_toJson (b : Bindings) : ofJson? b.toJson = some b := by
  have hfields : b.toJson.fields? fieldNames =
      some [some b.modifier.toJson, some b.zoomIn.toJson, some b.zoomOut.toJson,
        some b.recenter.toJson] := Json.fields?_ofMembers rfl (by decide)
  simp only [ofJson?, hfields, Json.optional, ModifierKey.ofJson?_toJson, Key.ofJson?_toJson,
    Option.bind_eq_bind, Option.bind_some, Option.pure_def]

theorem isWritable_toJson (b : Bindings) : b.toJson.IsWritable := by
  apply Json.isWritable_ofMembers
  simp [ModifierKey.isWritable_toJson, Key.isWritable_toJson]

end Bindings

end PanZoom
