import PanZoom.Format.Record
import PanZoom.Proofs.Json.Values

namespace PanZoom

open Decimal

namespace Numeral

theorem isProper_ofNat (n : Nat) : (ofNat n).IsProper :=
  isPlain_digitsOf n

/-- The whole part of a numeral with an exponent is one digit. -/
theorem isPlain_take_one {ds : List Digit} (h : ds ≠ []) : IsPlain (ds.take 1) := by
  obtain ⟨d, rest, rfl⟩ := List.exists_cons_of_ne_nil h
  exact isPlain_singleton d

theorem isProper_ofScientific (style : Style) (negative : Bool) (s : Scientific) :
    (ofScientific style negative s).IsProper := by
  unfold ofScientific
  dsimp only
  split
  · exact isPlain_parts s
  · exact isPlain_take_one (isPlain_digitsOf _).nonempty

/-- More digits make no number smaller. -/
theorem le_foldl_digits (ds : List Digit) (n : Nat) :
    n ≤ ds.foldl (fun n (d : Digit) => 10 * n + d.val) n := by
  induction ds generalizing n with
  | nil => exact Nat.le_refl n
  | cons d ds ih =>
    have hrest := ih (10 * n + d.val)
    rw [List.foldl_cons]
    omega

/-- Every digit of a number with room for all of them is collected. -/
theorem appendWhole_of_le {ds : List Digit} {n : Nat}
    (h : ds.foldl (fun n (d : Digit) => 10 * n + d.val) n ≤ greatestSignificand) :
    appendWhole ds n = (ds.foldl (fun n (d : Digit) => 10 * n + d.val) n, 0) := by
  induction ds generalizing n with
  | nil => rfl
  | cons d ds ih =>
    have hroom : 10 * n + d.val ≤ greatestSignificand := Nat.le_trans (le_foldl_digits ds _) h
    rw [appendWhole, if_pos hroom, ih h, List.foldl_cons]

theorem scientific_ofNat {n : Nat} (h : n ≤ greatestSignificand) :
    (ofNat n).scientific = ⟨n, 0⟩ := by
  have hvalue : (digitsOf n).foldl (fun n (d : Digit) => 10 * n + d.val) 0 = n :=
    ofDigits_digitsOf n
  have hwhole : appendWhole (digitsOf n) 0 = (n, 0) := by
    rw [appendWhole_of_le (Nat.le_trans (Nat.le_of_eq hvalue) h), hvalue]
  simp only [scientific, ofNat, hwhole, appendFraction]
  rfl

theorem toMachineWhole?_ofNat {n : Nat} (h : n ≤ greatestSignificand) :
    (ofNat n).toMachineWhole? = some n := by
  rw [toMachineWhole?, scientific_ofNat h]
  rfl

theorem toNat?_ofNat {n bound : Nat} (h : n ≤ bound) (hbound : bound ≤ greatestSignificand) :
    (ofNat n).toNat? bound = some n := by
  rw [toNat?, toMachineWhole?_ofNat (Nat.le_trans h hbound)]
  exact if_pos h

/-- A count is in range. -/
theorem isSome_toDouble?_ofNat {n : Nat} (h : n ≤ greatestSignificand) :
    (ofNat n).toDouble?.isSome = true := by
  rw [toDouble?, toMachineWhole?_ofNat h]
  rfl

/-- What has a value in single precision is in the range of double precision. -/
theorem isSome_toDouble?_of_toSingle? {n : Numeral} {x : Float32} (h : n.toSingle? = some x) :
    n.toDouble?.isSome = true := by
  unfold toSingle? at h
  split at h
  · rename_i i hwhole
    rw [toDouble?, hwhole]
    rfl
  · obtain ⟨y, hy, -⟩ := Option.map_eq_some_iff.mp h
    rw [hy]
    rfl

end Numeral

namespace Json

variable {members : List (String × Json)} {name : String} {v : Json}

/-- A name that no member has stands for nothing. -/
theorem valuesOf_eq_nil (h : name ∉ members.map Prod.fst) :
    valuesOf (members.map fun m => (some m.1, m.2)) name = [] := by
  simp only [valuesOf, List.map_eq_nil_iff, List.filter_eq_nil_iff, List.mem_map]
  rintro _ ⟨m, hm, rfl⟩ hname
  simp only [decide_eq_true_eq, Option.some.injEq] at hname
  exact h (hname ▸ List.mem_map_of_mem hm)

/-- Where names do not repeat, a name stands for its own value only. -/
theorem valuesOf_eq_singleton (hdistinct : (members.map Prod.fst).Nodup)
    (hmem : (name, v) ∈ members) :
    valuesOf (members.map fun m => (some m.1, m.2)) name = [v] := by
  induction members with
  | nil => cases hmem
  | cons m members ih =>
    rw [List.map_cons, List.nodup_cons] at hdistinct
    rcases List.mem_cons.mp hmem with rfl | hmem
    · have hrest := valuesOf_eq_nil hdistinct.1
      simpa [valuesOf] using hrest
    · have hother : m.1 ≠ name := fun hname =>
        hdistinct.1 (hname ▸ List.mem_map_of_mem hmem)
      have hrest := ih hdistinct.2 hmem
      simpa [valuesOf, hother] using hrest

theorem mapM_fields (all : List (Word × Json))
    (h : ∀ m ∈ members, valuesOf all m.1 = [m.2]) :
    (members.map Prod.fst).mapM (fun name => atMostOne? (valuesOf all name)) =
      some (members.map fun m => some m.2) := by
  induction members with
  | nil => rfl
  | cons m members ih =>
    have hfirst : atMostOne? (valuesOf all m.1) = some (some m.2) := by
      rw [h m List.mem_cons_self]
      rfl
    have hrest := ih fun m hm => h m (List.mem_cons_of_mem _ hm)
    simp only [List.map_cons, List.mapM_cons, hfirst, hrest, Option.bind_eq_bind, Option.bind_some,
      Option.pure_def]

/-- A record is read back with a value for each field. -/
theorem fields?_ofMembers {names : List String} (hnames : members.map Prod.fst = names)
    (hdistinct : names.Nodup) :
    (ofMembers members).fields? names = some (members.map fun m => some m.2) := by
  subst hnames
  have hnamed : (members.map fun m => ((some m.1, m.2) : Word × Json)).all (·.1.isSome) = true := by
    simp
  rw [ofMembers, fields?, if_pos hnamed]
  exact mapM_fields _ fun m hm => valuesOf_eq_singleton hdistinct hm

/-- What bears a name is found by it, where names do not repeat. -/
theorem find?_name {α : Type} (name : α → String) {every : List α} {a : α} (hmem : a ∈ every)
    (hdistinct : (every.map name).Nodup) : every.find? (name · = name a) = some a := by
  induction every with
  | nil => cases hmem
  | cons b every ih =>
    rw [List.map_cons, List.nodup_cons] at hdistinct
    rcases List.mem_cons.mp hmem with rfl | hmem
    · exact List.find?_cons_of_pos (decide_eq_true rfl)
    · have hother : name b ≠ name a := fun hname =>
        hdistinct.1 (hname ▸ List.mem_map_of_mem hmem)
      rw [List.find?_cons_of_neg (by simp [hother])]
      exact ih hmem hdistinct.2

theorem named?_ofString {α : Type} (emptyObject : Bool) (ofName? : String → Option α)
    (name : String) : (ofString name).named? emptyObject ofName? = ofName? name :=
  rfl

theorem toChar?_singleton (c : Char) : (ofString (String.singleton c)).toChar? = some c := by
  simp [ofString, toChar?]

theorem toNat?_ofNat {n bound : Nat} (h : n ≤ bound)
    (hbound : bound ≤ Numeral.greatestSignificand) : (ofNat n).toNat? bound = some n :=
  Numeral.toNat?_ofNat h hbound

theorem toCount?_ofNat (n : UInt32) : (ofNat n.toNat).toCount? = some n := by
  have hsize : n.toNat ≤ UInt32.size - 1 := Nat.le_sub_one_of_lt n.toNat_lt
  rw [toCount?, toNat?_ofNat hsize (by decide), Option.map_some, UInt32.ofNat_toNat]

theorem isWritable_ofString (s : String) : (ofString s).IsWritable :=
  rfl

theorem isWritable_ofNat (n : Nat) : (ofNat n).IsWritable :=
  Numeral.isProper_ofNat n

theorem isWritable_ofValue (f : Binary.Format) (style : Numeral.Style) (x : Binary.Value) :
    (ofValue f style x).IsWritable := by
  cases x with
  | finite negative m => exact Numeral.isProper_ofScientific style negative _
  | _ => trivial

end Json

end PanZoom
