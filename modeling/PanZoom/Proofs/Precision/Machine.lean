import PanZoom.Proofs.Precision.Word

/-!
# Machine numbers

Single and double precision differ in their format only. What is proved of one is proved of both:

* `Machine`: a type of numbers whose operations unpack, compute and pack;
* `toRat`, `IsFinite`: the rational number that a machine number stands for, if any;
* `RoundsTo`, `Within`: a finite machine number that rounds a rational one or lies between two;
* `add_roundsTo` and its siblings: an operation rounds the exact result, unless that is too large;
* `settle_defined`: a result that is too large is infinite, and so are sums and quotients;
* `add_within` and its siblings: short bounds of exact results are bounds of the rounded ones;
* `lt_iff_toRat` and its siblings: finite numbers compare as rational ones.
-/

namespace PanZoom.Precision

open Float.Model (Format UnpackedFloat)
open Float.Model.UnpackedFloat

/-- Numbers that are kept as words of a format and computed with unpacked. -/
class Machine (F : Type) [Add F] [Sub F] [Mul F] [Div F] [Neg F] [LT F] [LE F] where
  format : Format
  exponentBits_ge : 8 ≤ format.exponentBits
  mantissaBits_ge : 24 ≤ format.mantissaBits
  minExponent_le : format.minExponent ≤ -149
  word : F → BitVec format.numBits
  settle : UnpackedFloat → F
  word_valid : ∀ x, format.Valid (word x)
  word_injective : Function.Injective word
  word_settle : ∀ u, word (settle u) = pack format u
  add_eq : ∀ x y, x + y = settle (add format (unpack format (word x)) (unpack format (word y)))
  sub_eq : ∀ x y, x - y = settle (sub format (unpack format (word x)) (unpack format (word y)))
  mul_eq : ∀ x y, x * y = settle (mul format (unpack format (word x)) (unpack format (word y)))
  div_eq : ∀ x y, x / y = settle (div format (unpack format (word x)) (unpack format (word y)))
  neg_eq : ∀ x, -x = settle (unpack format (word x)).neg
  lt_iff : ∀ x y, x < y ↔ (unpack format (word x)).lt (unpack format (word y)) = true
  le_iff : ∀ x y, x ≤ y ↔ (unpack format (word x)).le (unpack format (word y)) = true

instance : Machine Float32 where
  format := .binary32
  exponentBits_ge := by decide
  mantissaBits_ge := by decide
  minExponent_le := by decide
  word x := x.toModel.toBits.toBitVec
  settle u := .ofModel (.pack u)
  word_valid x := x.toModel.valid
  word_injective _ _ h := Float32.toBits_inj.mp (UInt32.toBitVec_inj.mp h)
  word_settle _ := rfl
  add_eq _ _ := rfl
  sub_eq _ _ := rfl
  mul_eq _ _ := rfl
  div_eq _ _ := rfl
  neg_eq _ := rfl
  lt_iff _ _ := decide_eq_true_iff
  le_iff _ _ := decide_eq_true_iff

instance : Machine Float where
  format := .binary64
  exponentBits_ge := by decide
  mantissaBits_ge := by decide
  minExponent_le := by decide
  word x := x.toModel.toBits.toBitVec
  settle u := .ofModel (.pack u)
  word_valid x := x.toModel.valid
  word_injective _ _ h := Float.toBits_inj.mp (UInt64.toBitVec_inj.mp h)
  word_settle _ := rfl
  add_eq _ _ := rfl
  sub_eq _ _ := rfl
  mul_eq _ _ := rfl
  div_eq _ _ := rfl
  neg_eq _ := rfl
  lt_iff _ _ := decide_eq_true_iff
  le_iff _ _ := decide_eq_true_iff

section

variable {F : Type} [Add F] [Sub F] [Mul F] [Div F] [Neg F] [LT F] [LE F] [Machine F]

open Machine

theorem exponentBits_gt : 1 < (format F).exponentBits :=
  lt_of_lt_of_le (by decide) exponentBits_ge

def read (x : F) : UnpackedFloat :=
  unpack (format F) (word x)

def IsFinite (x : F) : Prop :=
  (read x).isFinite = true

instance (x : F) : Decidable (IsFinite x) :=
  inferInstanceAs (Decidable (_ = true))

def toRat (x : F) : ℚ :=
  number (read x)

/-- The result of rounding `q`, if it is not too large for that. -/
structure RoundsTo (x : F) (q : ℚ) : Prop where
  finite : IsFinite x
  rounds : Rounds (format F) q (toRat x)

structure Within (x : F) (low high : ℚ) : Prop where
  finite : IsFinite x
  le : low ≤ toRat x
  ge : toRat x ≤ high

instance (x : F) (low high : ℚ) : Decidable (Within x low high) :=
  decidable_of_iff (IsFinite x ∧ low ≤ toRat x ∧ toRat x ≤ high)
    ⟨fun h => ⟨h.1, h.2.1, h.2.2⟩, fun h => ⟨h.finite, h.le, h.ge⟩⟩

variable {x y : F} {q : ℚ}

theorem RoundsTo.within (h : RoundsTo x q) {low high : ℚ} (hlow : OnGrid (format F) low)
    (hhigh : OnGrid (format F) high) (hle : low ≤ q) (hge : q ≤ high) : Within x low high :=
  ⟨h.finite, h.rounds.above low hlow hle, h.rounds.below high hhigh hge⟩

theorem Within.eq (h : Within x q q) : toRat x = q :=
  le_antisymm h.ge h.le

theorem RoundsTo.eq_of_onGrid (h : RoundsTo x q) (hq : OnGrid (format F) q) : toRat x = q :=
  h.rounds.eq_of_onGrid hq

theorem canonical_read (x : F) : Canonical (format F) (read x) :=
  canonical_unpack _

theorem settle_read (x : F) : settle (read x) = x :=
  word_injective ((word_settle _).trans (pack_unpack_of_valid (word_valid x) exponentBits_gt))

theorem read_injective : Function.Injective (read : F → UnpackedFloat) := fun x y h => by
  rw [← settle_read x, h, settle_read]

theorem onGrid_toRat (x : F) : OnGrid (format F) (toRat x) :=
  (canonical_read x).onGrid

/-- Numbers other than zero are determined by what they stand for. -/
theorem eq_of_toRat_eq (h : toRat x = toRat y) (h₀ : toRat x ≠ 0) : x = y :=
  read_injective (eq_of_number_eq (canonical_read x) (canonical_read y) h h₀)

theorem number_ne_zero (sign : UnpackedFloat.Sign) {m : ℕ} (e : ℤ) (hm : 0 < m) :
    number (.finite sign m e hm) ≠ 0 := by
  have hpos : (0 : ℚ) < m * 2 ^ e := by positivity
  cases sign with
  | negative => exact neg_ne_zero.mpr hpos.ne'
  | positive => exact hpos.ne'

/-- A number that stands for zero is one of the two zeros. -/
theorem read_eq_zero (h : IsFinite x) (hzero : toRat x = 0) : ∃ sign, read x = .zero sign := by
  unfold IsFinite at h
  unfold toRat at hzero
  cases hread : read x with
  | notANumber => rw [hread] at h; cases h
  | infinity sign => rw [hread] at h; cases h
  | zero sign => exact ⟨sign, rfl⟩
  | finite sign m e hm => exact absurd (hread ▸ hzero) (number_ne_zero sign e hm)

/-- The word of a machine number without its sign. -/
def rest (x : F) : ℕ :=
  (word x).toNat % (layout (format F)).signBit

theorem read_of_rest_lt (h : rest x < (layout (format F)).infinity) :
    let m := (layout (format F)).magnitude (rest x)
    read x = assemble (signOf (format F) (word x).toNat) m.significand m.exponent :=
  unpack_of_lt (word x) h

theorem isFinite_iff : IsFinite x ↔ rest x < (layout (format F)).infinity := by
  constructor
  · intro h
    by_contra hge
    rcases (not_lt.mp hge).eq_or_lt with heq | hlt
    · rw [IsFinite, read, unpack_of_eq (word x) heq.symm] at h
      cases h
    · rw [IsFinite, read, unpack_of_gt (word x) hlt] at h
      cases h
  · intro h
    rw [IsFinite, read_of_rest_lt h, isFinite_assemble]

theorem toRat_eq (h : IsFinite x) :
    toRat x = signed (signOf (format F) (word x).toNat)
      (size ((layout (format F)).magnitude (rest x))) := by
  rw [toRat, read_of_rest_lt (isFinite_iff.mp h), number_assemble, size]

theorem abs_toRat (h : IsFinite x) :
    |toRat x| = size ((layout (format F)).magnitude (rest x)) := by
  rw [toRat_eq h, abs_signed _ (by unfold size; positivity)]

theorem abs_toRat_lt (h : IsFinite x) : |toRat x| < overflow (format F) := by
  rw [abs_toRat h]
  exact size_lt_overflow_iff.mpr (isFinite_iff.mp h)

theorem overflow_eq (spec : Format) : overflow spec = 2 ^ ((2 : ℤ) ^ (spec.exponentBits - 1)) := by
  have hunit := Nat.two_pow_pos spec.mantissaBitsWithoutImplicit
  have hhalf : 2 ^ spec.exponentBits = 2 * 2 ^ (spec.exponentBits - 1) := by
    rw [← pow_succ', Nat.sub_add_cancel spec.he]
  have hpos : 1 ≤ 2 ^ (spec.exponentBits - 1) := Nat.one_le_two_pow
  rw [overflow, infinity_eq, magnitude_eq, Nat.mul_div_cancel _ hunit, if_neg (by omega),
    Nat.mul_mod_left, size, add_zero, Nat.cast_pow, Nat.cast_ofNat, ← zpow_natCast,
    ← zpow_add₀ two_ne_zero]
  congr 1
  have hcast : ((2 ^ spec.exponentBits - 1 - 1 : ℕ) : ℤ) =
      2 * (2 : ℤ) ^ (spec.exponentBits - 1) - 2 := by
    rw [hhalf, Nat.sub_sub, Nat.cast_sub (by omega)]
    push_cast
    ring
  rw [hcast, Format.minExponent, mantissaBits_eq]
  ring

/-- Half of the least magnitude that is too large. Every exact result up to it can be rounded. -/
@[irreducible]
def roomy (spec : Format) : ℚ :=
  2 ^ ((2 : ℤ) ^ (spec.exponentBits - 1) - 1)

theorem roomy_lt_overflow (spec : Format) : roomy spec < overflow spec := by
  rw [overflow_eq, roomy]
  exact zpow_lt_zpow_right₀ one_lt_two (sub_one_lt _)

theorem roomy_single : roomy .binary32 = 2 ^ (127 : ℤ) := by
  rw [roomy]
  norm_num

theorem roomy_double : roomy .binary64 = 2 ^ (1023 : ℤ) := by
  rw [roomy]
  norm_num

theorem abs_le_roomy_single {q : ℚ} {k : ℕ} (h : |q| ≤ 2 ^ k) (hk : k ≤ 127) :
    |q| ≤ roomy .binary32 := by
  rw [roomy_single, ← zpow_natCast] at *
  exact h.trans (zpow_le_zpow_right₀ one_le_two (by omega))

theorem abs_le_roomy_double {q : ℚ} {k : ℕ} (h : |q| ≤ 2 ^ k) (hk : k ≤ 1023) :
    |q| ≤ roomy .binary64 := by
  rw [roomy_double, ← zpow_natCast] at *
  exact h.trans (zpow_le_zpow_right₀ one_le_two (by omega))

theorem onGrid_roomy (spec : Format) : OnGrid spec (roomy spec) := by
  rw [roomy]
  refine .two_zpow ?_
  have hpow : (1 : ℤ) ≤ 2 ^ (spec.exponentBits - 1) := by exact_mod_cast Nat.one_le_two_pow
  have hmin := minExponent_nonpos spec
  omega

theorem IsRounding.abs_number_le {spec : Format} {u : UnpackedFloat} (h : IsRounding spec q u)
    (hq : |q| ≤ roomy spec) : |number u| ≤ roomy spec := by
  obtain ⟨hlow, hhigh⟩ := abs_le.mp hq
  exact abs_le.mpr ⟨h.rounds.above _ (onGrid_roomy spec).neg hlow,
    h.rounds.below _ (onGrid_roomy spec) hhigh⟩

theorem settle_roundsTo_of_lt {u : UnpackedFloat} (h : IsRounding (format F) q u)
    (hlt : |number u| < overflow (format F)) : RoundsTo (settle u : F) q := by
  have hread : read (settle u : F) = u := by
    rw [read, word_settle]
    exact unpack_pack exponentBits_gt h.canonical h.finite hlt
  exact ⟨by rw [IsFinite, hread]; exact h.finite, by rw [toRat, hread]; exact h.rounds⟩

theorem settle_roundsTo {u : UnpackedFloat} (h : IsRounding (format F) q u)
    (hq : |q| ≤ roomy (format F)) : RoundsTo (settle u : F) q :=
  settle_roundsTo_of_lt h ((h.abs_number_le hq).trans_lt (roomy_lt_overflow _))

theorem add_roundsTo (hx : IsFinite x) (hy : IsFinite y)
    (h : |toRat x + toRat y| ≤ roomy (format F)) : RoundsTo (x + y) (toRat x + toRat y) := by
  rw [add_eq]
  exact settle_roundsTo (add_rounds (canonical_read x) (canonical_read y) hx hy) h

theorem sub_roundsTo (hx : IsFinite x) (hy : IsFinite y)
    (h : |toRat x - toRat y| ≤ roomy (format F)) : RoundsTo (x - y) (toRat x - toRat y) := by
  rw [sub_eq]
  exact settle_roundsTo (sub_rounds (canonical_read x) (canonical_read y) hx hy) h

theorem mul_roundsTo (hx : IsFinite x) (hy : IsFinite y)
    (h : |toRat x * toRat y| ≤ roomy (format F)) : RoundsTo (x * y) (toRat x * toRat y) := by
  rw [mul_eq]
  exact settle_roundsTo (mul_rounds (canonical_read x) (canonical_read y) hx hy) h

theorem div_roundsTo (hx : IsFinite x) (hy : IsFinite y) (hy₀ : toRat y ≠ 0)
    (h : |toRat x / toRat y| ≤ roomy (format F)) : RoundsTo (x / y) (toRat x / toRat y) := by
  rw [div_eq]
  exact settle_roundsTo (div_rounds hx hy hy₀) h

/-- A rounded result that is too large becomes infinite. -/
theorem settle_defined {u : UnpackedFloat} (h : IsRounding (format F) q u) :
    RoundsTo (settle u : F) q ∨ ∃ sign, read (settle u : F) = .infinity sign := by
  rcases lt_or_ge |number u| (overflow (format F)) with hlt | hge
  · exact .inl (settle_roundsTo_of_lt h hlt)
  · right
    rw [read, word_settle]
    exact unpack_pack_of_overflow h.canonical h.finite hge

/-- A sum of finite numbers is never undefined. -/
theorem add_defined (hx : IsFinite x) (hy : IsFinite y) :
    RoundsTo (x + y) (toRat x + toRat y) ∨ ∃ sign, read (x + y) = .infinity sign := by
  rw [add_eq]
  exact settle_defined (add_rounds (canonical_read x) (canonical_read y) hx hy)

/-- A quotient of finite numbers is undefined for a divisor of zero only. -/
theorem div_defined (hx : IsFinite x) (hy : IsFinite y) (hy₀ : toRat y ≠ 0) :
    RoundsTo (x / y) (toRat x / toRat y) ∨ ∃ sign, read (x / y) = .infinity sign := by
  rw [div_eq]
  exact settle_defined (div_rounds hx hy hy₀)

theorem lt_of_negative_infinity (hx : read x = .infinity .negative) (hy : IsFinite y) : x < y := by
  rw [lt_iff]
  change (read x).lt (read y) = true
  unfold IsFinite at hy
  rw [hx]
  cases hread : read y with
  | notANumber | infinity => simp [hread, isFinite] at hy
  | zero | finite => rfl

theorem lt_of_positive_infinity (hx : read x = .infinity .positive) (hy : IsFinite y) : y < x := by
  rw [lt_iff]
  change (read y).lt (read x) = true
  unfold IsFinite at hy
  rw [hx]
  cases hread : read y with
  | notANumber | infinity => simp [hread, isFinite] at hy
  | zero | finite => rfl

/-! ## Results between short fractions -/

variable {low high : ℚ}

theorem IsShort.onGrid_format (h : IsShort q) : OnGrid (format F) q :=
  h.onGrid mantissaBits_ge minExponent_le

theorem IsShort.abs_le_roomy (h : IsShort q) : |q| ≤ roomy (format F) := by
  have hpow : (2 : ℤ) ^ 7 ≤ 2 ^ ((format F).exponentBits - 1) :=
    pow_le_pow_right₀ one_le_two (Nat.le_sub_of_add_le exponentBits_ge)
  have hroomy : (2 : ℚ) ^ (24 : ℤ) ≤ roomy (format F) := by
    rw [roomy]
    exact zpow_le_zpow_right₀ one_le_two (by omega)
  have hnum : (|q.num| : ℚ) ≤ 2 ^ (24 : ℤ) := by exact_mod_cast h.2
  have hden : (1 : ℚ) ≤ q.den := by exact_mod_cast q.den_pos
  rw [← Rat.num_div_den q, abs_div, Nat.abs_cast]
  exact (div_le_self (abs_nonneg _) hden).trans (hnum.trans hroomy)

theorem abs_le_roomy_of_short (hends : IsShort low ∧ IsShort high) (hle : low ≤ q)
    (hge : q ≤ high) : |q| ≤ roomy (format F) :=
  abs_le.mpr ⟨(neg_le_of_abs_le hends.1.abs_le_roomy).trans hle,
    hge.trans (le_of_abs_le hends.2.abs_le_roomy)⟩

theorem RoundsTo.within_short (h : RoundsTo x q) (hle : low ≤ q) (hge : q ≤ high)
    (hends : IsShort low ∧ IsShort high) : Within x low high :=
  h.within hends.1.onGrid_format hends.2.onGrid_format hle hge

theorem add_within (hx : IsFinite x) (hy : IsFinite y) (hle : low ≤ toRat x + toRat y)
    (hge : toRat x + toRat y ≤ high) (hends : IsShort low ∧ IsShort high) :
    Within (x + y) low high :=
  (add_roundsTo hx hy (abs_le_roomy_of_short hends hle hge)).within_short hle hge hends

theorem sub_within (hx : IsFinite x) (hy : IsFinite y) (hle : low ≤ toRat x - toRat y)
    (hge : toRat x - toRat y ≤ high) (hends : IsShort low ∧ IsShort high) :
    Within (x - y) low high :=
  (sub_roundsTo hx hy (abs_le_roomy_of_short hends hle hge)).within_short hle hge hends

theorem mul_within (hx : IsFinite x) (hy : IsFinite y) (hle : low ≤ toRat x * toRat y)
    (hge : toRat x * toRat y ≤ high) (hends : IsShort low ∧ IsShort high) :
    Within (x * y) low high :=
  (mul_roundsTo hx hy (abs_le_roomy_of_short hends hle hge)).within_short hle hge hends

theorem read_neg (h : IsFinite x) : read (-x) = (read x).neg := by
  rw [neg_eq, read, word_settle]
  refine unpack_pack exponentBits_gt (canonical_neg (canonical_read x))
    ((isFinite_neg _).trans h) ?_
  rw [number_neg, abs_neg]
  exact abs_toRat_lt h

theorem IsFinite.neg (h : IsFinite x) : IsFinite (-x) := by
  rw [IsFinite, read_neg h, isFinite_neg]
  exact h

theorem toRat_neg (h : IsFinite x) : toRat (-x) = -toRat x := by
  rw [toRat, read_neg h, number_neg, toRat]

/-! ## Comparisons -/

theorem lt_iff_toRat (hx : IsFinite x) (hy : IsFinite y) : x < y ↔ toRat x < toRat y :=
  (lt_iff x y).trans (unpacked_lt_iff (canonical_read x) (canonical_read y) hx hy)

theorem le_iff_toRat (hx : IsFinite x) (hy : IsFinite y) : x ≤ y ↔ toRat x ≤ toRat y :=
  (le_iff x y).trans (unpacked_le_iff (canonical_read x) (canonical_read y) hx hy)

end

end PanZoom.Precision
