import PanZoom.Config
import PanZoom.Proofs.Input.Conflicts
import PanZoom.Proofs.Precision.Machine

/-!
# Repaired configurations

A number fits if it is finite and above its least value. The repair keeps what fits:

* `Config.HasFitNumbers`: all three numbers fit;
* `Config.IsRepairOf`: numbers that do not fit are replaced, keys that are taken go back to their
  defaults, and all else stays;
* `Config.sanitized_isRepairOf`: sanitizing is such a repair;
* `Config.sanitized_sanitized`: a second repair changes nothing;
* `Config.repair_and_settings_agree`: the camera's settings, which look at the numbers once more,
  take them as the repair leaves them.
-/

namespace PanZoom.Config

open Precision

variable {c : Config}

/-- Every number is finite and above its least value. -/
structure HasFitNumbers (c : Config) : Prop where
  zoomFactor : c.zoomFactor.isFinite ∧ 1 < c.zoomFactor
  panStep : c.panStep.isFinite ∧ 0 < c.panStep
  maxFramerate : c.maxFramerate.isFinite ∧ 0 < c.maxFramerate

/-- Numbers that do not fit are replaced. A key that is an arrow or the final key of an action
before its own goes back to the default. All else stays. -/
structure IsRepairOf (r c : Config) : Prop where
  zoomFactor : r.zoomFactor =
    if c.zoomFactor.isFinite ∧ 1 < c.zoomFactor then c.zoomFactor else default.zoomFactor
  panStep : r.panStep =
    if c.panStep.isFinite ∧ 0 < c.panStep then c.panStep else default.panStep
  maxFramerate : r.maxFramerate =
    if c.maxFramerate.isFinite ∧ 0 < c.maxFramerate then c.maxFramerate else 1
  key : ∀ action key fallback, c.bindings.key? action = some key →
    Bindings.default.key? action = some fallback →
    r.bindings.key? action = some (if key ∈ r.bindings.before action then fallback else key)
  modifier : r.bindings.modifier = c.bindings.modifier
  version : r.version = c.version
  logLevel : r.logLevel = c.logLevel

section

variable {F : Type} [Add F] [Sub F] [Mul F] [Div F] [Neg F] [LT F] [LE F] [Machine F]

/-- Finite numbers are ordered, so the repair replaces exactly the numbers that do not fit. -/
theorem replaced_eq {x low other : F} {finite : Bool} (hfinite : finite = true ↔ IsFinite x)
    (hlow : IsFinite low) [Decidable (x ≤ low)] [Decidable (low < x)] :
    (if !finite || decide (x ≤ low) then other else x) =
      if finite ∧ low < x then x else other := by
  cases finite with
  | false => simp
  | true =>
    have hx : IsFinite x := hfinite.mp rfl
    have horder : x ≤ low ↔ ¬low < x := by
      rw [lt_iff_toRat hlow hx, le_iff_toRat hx hlow, not_lt]
    simp [horder]

end

theorem sanitized_zoomFactor (c : Config) : c.sanitized.zoomFactor =
    if c.zoomFactor.isFinite ∧ 1 < c.zoomFactor then c.zoomFactor else default.zoomFactor :=
  replaced_eq Iff.rfl (by decide)

theorem sanitized_panStep (c : Config) : c.sanitized.panStep =
    if c.panStep.isFinite ∧ 0 < c.panStep then c.panStep else default.panStep :=
  replaced_eq Iff.rfl (by decide)

theorem sanitized_maxFramerate (c : Config) : c.sanitized.maxFramerate =
    if c.maxFramerate.isFinite ∧ 0 < c.maxFramerate then c.maxFramerate else 1 :=
  replaced_eq Iff.rfl (by decide)

/-- The numbers fit after a repair: those that are put in for others fit as well. -/
theorem hasFitNumbers_sanitized (c : Config) : c.sanitized.HasFitNumbers := by
  constructor
  · rw [sanitized_zoomFactor]
    split
    · assumption
    · decide
  · rw [sanitized_panStep]
    split
    · assumption
    · decide
  · rw [sanitized_maxFramerate]
    split
    · assumption
    · decide

/-- Sanitizing is a repair. -/
theorem sanitized_isRepairOf (c : Config) : c.sanitized.IsRepairOf c where
  zoomFactor := sanitized_zoomFactor c
  panStep := sanitized_panStep c
  maxFramerate := sanitized_maxFramerate c
  key _ _ _ hkey hdefault := Bindings.repaired_key? hkey hdefault
  modifier := rfl
  version := rfl
  logLevel := rfl

/-- Nothing changes where the numbers fit and the bindings need no repair. -/
theorem sanitized_eq_self (hfit : c.HasFitNumbers) (hbindings : c.bindings.repaired = c.bindings) :
    c.sanitized = c := by
  have hzoomFactor : c.sanitized.zoomFactor = c.zoomFactor := by
    rw [sanitized_zoomFactor, if_pos hfit.zoomFactor]
  have hpanStep : c.sanitized.panStep = c.panStep := by
    rw [sanitized_panStep, if_pos hfit.panStep]
  have hmaxFramerate : c.sanitized.maxFramerate = c.maxFramerate := by
    rw [sanitized_maxFramerate, if_pos hfit.maxFramerate]
  show Config.mk c.version c.sanitized.zoomFactor c.sanitized.panStep c.sanitized.maxFramerate
    c.bindings.repaired c.logLevel = c
  rw [hzoomFactor, hpanStep, hmaxFramerate, hbindings]

/-- A second repair changes nothing. -/
theorem sanitized_sanitized (c : Config) : c.sanitized.sanitized = c.sanitized :=
  sanitized_eq_self (hasFitNumbers_sanitized c) (Bindings.repaired_repaired c.bindings)

section

variable {α : Type} [Scalar α] (fallback : Settings α) (zoomFactor panStep : α)
  (bindings : Bindings)

theorem zoomFactor_ofRequest : (Settings.ofRequest fallback zoomFactor panStep bindings).zoomFactor =
    if IsZoomFactor zoomFactor then zoomFactor else fallback.zoomFactor := by
  by_cases h : IsZoomFactor zoomFactor
  · simp [Settings.ofRequest, h]
  · simp [Settings.ofRequest, h]

theorem panStep_ofRequest : (Settings.ofRequest fallback zoomFactor panStep bindings).panStep =
    if IsPanStep panStep then panStep else fallback.panStep := by
  by_cases h : IsPanStep panStep
  · simp [Settings.ofRequest, h]
  · simp [Settings.ofRequest, h]

end

/-- The repair refuses what is not above the bound and the settings take what is. On finite numbers
that is the same, and both refuse all others. -/
theorem settings_zoomFactor (c : Config) : c.settings.zoomFactor = c.sanitized.zoomFactor := by
  have hsame : IsZoomFactor c.zoomFactor ↔ c.zoomFactor.isFinite ∧ 1 < c.zoomFactor := Iff.rfl
  rw [settings, zoomFactor_ofRequest, sanitized_zoomFactor]
  simp only [hsame]
  rfl

theorem settings_panStep (c : Config) : c.settings.panStep = c.sanitized.panStep := by
  have hsame : IsPanStep c.panStep ↔ c.panStep.isFinite ∧ 0 < c.panStep := Iff.rfl
  rw [settings, panStep_ofRequest, sanitized_panStep]
  simp only [hsame]
  rfl

/-- Settings carry a fit factor, so one that the repair leaves alone is fit. -/
theorem isZoomFactor_iff (c : Config) :
    IsZoomFactor c.zoomFactor ↔ c.sanitized.zoomFactor = c.zoomFactor := by
  rw [← settings_zoomFactor]
  constructor
  · intro hfit
    rw [settings, zoomFactor_ofRequest, if_pos hfit]
  · intro hsame
    exact hsame ▸ c.settings.isZoomFactor

theorem isPanStep_iff (c : Config) : IsPanStep c.panStep ↔ c.sanitized.panStep = c.panStep := by
  rw [← settings_panStep]
  constructor
  · intro hfit
    rw [settings, panStep_ofRequest, if_pos hfit]
  · intro hsame
    exact hsame ▸ c.settings.isPanStep

/-- **The settings and the repair agree.** A second repair changes nothing. The repair of the
bindings keeps the modifier and every key that is no arrow and no final key of an action before its
own. The settings take exactly the numbers that the repair leaves alone, so it makes no difference
to them whether the repair went first, and of a repaired configuration they change nothing. -/
theorem repair_and_settings_agree (c : Config) :
    c.sanitized.sanitized = c.sanitized ∧
    ((∀ action key, c.bindings.key? action = some key →
        key ∉ c.bindings.repaired.before action → c.bindings.repaired.key? action = some key) ∧
      c.bindings.repaired.modifier = c.bindings.modifier) ∧
    ((IsZoomFactor c.zoomFactor ↔ c.sanitized.zoomFactor = c.zoomFactor) ∧
      (IsPanStep c.panStep ↔ c.sanitized.panStep = c.panStep)) ∧
    (c.settings.zoomFactor = c.sanitized.settings.zoomFactor ∧
      c.settings.panStep = c.sanitized.settings.panStep) ∧
    (c.sanitized.settings.zoomFactor = c.sanitized.zoomFactor ∧
      c.sanitized.settings.panStep = c.sanitized.panStep ∧
      c.sanitized.settings.bindings = c.sanitized.bindings) := by
  have hzoomFactor : c.sanitized.settings.zoomFactor = c.sanitized.zoomFactor := by
    rw [settings_zoomFactor, sanitized_sanitized]
  have hpanStep : c.sanitized.settings.panStep = c.sanitized.panStep := by
    rw [settings_panStep, sanitized_sanitized]
  refine ⟨sanitized_sanitized c, ⟨?_, rfl⟩, ⟨isZoomFactor_iff c, isPanStep_iff c⟩, ⟨?_, ?_⟩,
    hzoomFactor, hpanStep, rfl⟩
  · intro action key hkey hfree
    exact Bindings.repaired_key?_of_free hkey hfree
  · rw [hzoomFactor, settings_zoomFactor]
  · rw [hpanStep, settings_panStep]

/-- No number fits: one is undefined, one is the negative zero and one is infinite. Both zoom actions
are on the home key. -/
def unfit : Config :=
  { default with
    zoomFactor := 0 / 0
    panStep := -0.0
    maxFramerate := 1 / 0
    bindings := ⟨.shift, .home, .home, .char 'r'⟩ }

theorem repair_and_settings_agree_unfit :
    (unfit.bindings.key? .recenter = some (.char 'r') ∧
      .char 'r' ∉ unfit.bindings.repaired.before .recenter) ∧
    unfit.sanitized = { default with
      maxFramerate := 1, bindings := ⟨.shift, .home, .minus, .char 'r'⟩ } ∧
    unfit.sanitized.sanitized = unfit.sanitized ∧
    unfit.bindings.repaired.key? .recenter = some (.char 'r') ∧
    unfit.sanitized.settings.zoomFactor = default.zoomFactor := by
  have hfree : unfit.bindings.key? .recenter = some (.char 'r') ∧
      .char 'r' ∉ unfit.bindings.repaired.before .recenter := by decide
  have hrepaired : unfit.sanitized = { default with
      maxFramerate := 1, bindings := ⟨.shift, .home, .minus, .char 'r'⟩ } := by decide
  obtain ⟨hstable, ⟨hkeeps, -⟩, -, -, hzoomFactor, -⟩ := repair_and_settings_agree unfit
  refine ⟨hfree, hrepaired, hstable, hkeeps _ _ hfree.1 hfree.2, ?_⟩
  rw [hzoomFactor, hrepaired]

end PanZoom.Config
