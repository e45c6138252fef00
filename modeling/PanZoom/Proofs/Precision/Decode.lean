import PanZoom.Binary.Number
import PanZoom.Proofs.Precision.Machine
import PanZoom.Proofs.Precision.Nearest

namespace PanZoom.Precision

open Float.Model (Format UnpackedFloat)
open Float.Model.UnpackedFloat
open Binary (Magnitude)
open Machine

variable {F : Type} [Add F] [Sub F] [Mul F] [Div F] [Neg F] [LT F] [LE F] [Machine F] {x : F}

def decoded (x : F) : Binary.Value :=
  (layout (format F)).value (word x).toNat

def negatedIf (negative : Bool) (q : ℚ) : ℚ :=
  if negative then -q else q

theorem signed_signOf (spec : Format) (w : ℕ) (q : ℚ) :
    signed (signOf spec w) q = negatedIf ((layout spec).signBit ≤ w) q := by
  rw [signOf]
  split
  · rename_i h
    simp [negatedIf, signed, not_le.mpr h]
  · rename_i h
    simp [negatedIf, signed, not_lt.mp h]

theorem decoded_of_isFinite (h : IsFinite x) :
    let negative : Bool := (layout (format F)).signBit ≤ (word x).toNat
    let m := (layout (format F)).magnitude (rest x)
    decoded x = .finite negative m ∧ toRat x = negatedIf negative (size m) := by
  intro negative m
  refine ⟨?_, ?_⟩
  · rw [decoded, Binary.Format.value]
    exact if_pos (isFinite_iff.mp h)
  · rw [toRat_eq h, signed_signOf]

/-- The word of a positive number is that of its size. -/
theorem size_word (h : IsFinite x) (hpos : 0 < toRat x) :
    (word x).toNat < (layout (format F)).signBit ∧
      size ((layout (format F)).magnitude (word x).toNat) = toRat x := by
  have hsign : (word x).toNat < (layout (format F)).signBit := by
    by_contra hge
    rw [toRat_eq h, signed_signOf, decide_eq_true (not_lt.mp hge), negatedIf, if_pos rfl] at hpos
    have hsize : 0 ≤ size ((layout (format F)).magnitude (rest x)) := by
      unfold size
      positivity
    linarith
  refine ⟨hsign, ?_⟩
  rw [toRat_eq h, signed_signOf, decide_eq_false (not_le.mpr hsign), rest, Nat.mod_eq_of_lt hsign]
  rfl

/-- Every word that is not undefined is the word of a number. -/
theorem word_settle_unpack (b : BitVec (format F).numBits)
    (h : b.toNat % (layout (format F)).signBit ≤ (layout (format F)).infinity) :
    word (settle (unpack (format F) b) : F) = b := by
  rw [word_settle]
  refine pack_unpack_of_valid ⟨fun hones hfraction => absurd ?_ hfraction⟩ exponentBits_gt
  have hrest := le_antisymm h ((unpackExponent_eq_ones b).mp hones)
  rw [← BitVec.toNat_inj, toNat_unpackMantissa', hrest, infinity_eq, Nat.mul_mod_left]
  rfl

theorem settle_unpack (b : BitVec (format F).numBits)
    (h : b.toNat % (layout (format F)).signBit < (layout (format F)).infinity) :
    IsFinite (settle (unpack (format F) b) : F) ∧
      toRat (settle (unpack (format F) b) : F) =
        negatedIf ((layout (format F)).signBit ≤ b.toNat)
          (size ((layout (format F)).magnitude (b.toNat % (layout (format F)).signBit))) := by
  have hword := word_settle_unpack (F := F) b h.le
  have hrest : rest (settle (unpack (format F) b) : F) =
      b.toNat % (layout (format F)).signBit := by
    rw [rest, hword]
  have hfinite : IsFinite (settle (unpack (format F) b) : F) := by
    rw [isFinite_iff, hrest]
    exact h
  refine ⟨hfinite, ?_⟩
  rw [toRat_eq hfinite, signed_signOf, hrest, hword]

theorem negatedIf_rounds {spec : Format} {q r : ℚ} (h : Rounds spec q r) (negative : Bool) :
    Rounds spec (negatedIf negative q) (negatedIf negative r) := by
  cases negative with
  | true => exact h.neg
  | false => exact h

theorem nearest_roundsTo (negative : Bool) (num : ℕ) {den : ℕ} (hden : 0 < den)
    (h : (num : ℚ) / den ≤ roomy (format F)) :
    RoundsTo (settle (unpack (format F) (BitVec.ofNat _ ((layout (format F)).signed negative
      ((layout (format F)).nearest num den)))) : F) (negatedIf negative (num / den)) := by
  obtain ⟨hfits, hrounds⟩ := nearest_rounds num hden (onGrid_roomy (format F))
    (roomy_lt_overflow _) h
  generalize (layout (format F)).nearest num den = w at *
  have hsign : w < (layout (format F)).signBit := hfits.trans (infinity_lt_signBit _)
  have hword : (layout (format F)).signed negative w < 2 ^ (format F).numBits := by
    have hbits : 2 * (layout (format F)).signBit = 2 ^ (format F).numBits := two_mul_signBit
    rw [Binary.Format.signed]
    split <;> omega
  have hnat : (BitVec.ofNat (format F).numBits ((layout (format F)).signed negative w)).toNat =
      (layout (format F)).signed negative w := by
    rw [BitVec.toNat_ofNat, Nat.mod_eq_of_lt hword]
  have hmod : (layout (format F)).signed negative w % (layout (format F)).signBit = w := by
    rw [Binary.Format.signed]
    split
    · rw [Nat.add_mod_left, Nat.mod_eq_of_lt hsign]
    · exact Nat.mod_eq_of_lt hsign
  have hnegative : decide ((layout (format F)).signBit ≤ (layout (format F)).signed negative w) =
      negative := by
    rw [Binary.Format.signed]
    cases negative with
    | true => simp
    | false => simpa using hsign
  obtain ⟨hfinite, hrat⟩ := settle_unpack (F := F)
    (BitVec.ofNat _ ((layout (format F)).signed negative w)) (by rw [hnat, hmod]; exact hfits)
  refine ⟨hfinite, ?_⟩
  rw [hrat, hnat, hmod, hnegative]
  exact negatedIf_rounds hrounds negative

end PanZoom.Precision
