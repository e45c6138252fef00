import PanZoom.Proofs.Precision.Pivot
import PanZoom.Proofs.Viewer.KeyPress

/-!
# Panning by held keys

A frame is told nothing. It asks the keyboard for the modifiers and the arrows, and what the
keyboard answers has been gathered from all events before, also from those that the camera had no
use for. Said by these events, a frame is a function of their keys:

* `axisStep`: the step along an axis, by which of its arrows are held;
* `Camera.Pans`, `Camera.steppedBy`: whether a frame pans, and where to. `Camera.tick_of_not_pans`
  and `Camera.tick_of_pans` say that there is no more to a frame;
* `Viewer.PansBy`: what a frame comes to for the whole viewer;
* `Viewer.held_keys_pan`: the keys that count are those whose last event was a press, with the
  modifiers of the last event of any key.
-/

namespace PanZoom

open Precision

section

variable {α : Type} [Scalar α] {isHeld : Key → Prop} [DecidablePred isHeld] {keyboard : Keyboard}

/-- The step along an axis by its two arrows. The first wins if both are held. -/
def axisStep (isHeld : Key → Prop) [DecidablePred isHeld] (back forth : Key) (step : α) : α :=
  if isHeld back then -step
  else if isHeld forth then step
  else 0

theorem arrowStep?_getD (hheld : ∀ key, keyboard.isHeld key = true ↔ isHeld key)
    (back forth : Key) (step : α) :
    (Camera.arrowStep? keyboard back forth step).getD 0 = axisStep isHeld back forth step := by
  unfold Camera.arrowStep? axisStep
  by_cases hback : isHeld back
  · simp [hheld, hback]
  · by_cases hforth : isHeld forth <;> simp [hheld, hback, hforth]

theorem isNone_arrowStep? (hheld : ∀ key, keyboard.isHeld key = true ↔ isHeld key)
    (back forth : Key) (step : α) :
    (Camera.arrowStep? keyboard back forth step).isNone = true ↔
      ¬isHeld back ∧ ¬isHeld forth := by
  unfold Camera.arrowStep?
  by_cases hback : isHeld back
  · simp [hheld, hback]
  · by_cases hforth : isHeld forth <;> simp [hheld, hback, hforth]

end

theorem IsPanStep.isFinite {step : Float32} (h : IsPanStep step) : IsFinite step :=
  h.1

theorem IsPanStep.toRat_pos {step : Float32} (h : IsPanStep step) : 0 < toRat step := by
  rw [← Single.zero_within.eq]
  exact (lt_iff_toRat Single.zero_within.finite h.isFinite).mp h.2

theorem read_ne_negativeZero {x : Float32} (h : toRat x ≠ 0) :
    read x ≠ .zero .negative := by
  intro hread
  apply h
  rw [toRat, hread]
  rfl

/-- A step along an axis is never the negative zero, so adding zero leaves it alone. -/
theorem axisStep_add_zero {step : Float32} (h : IsPanStep step) (isHeld : Key → Prop)
    [DecidablePred isHeld] (back forth : Key) :
    axisStep isHeld back forth step + 0 = axisStep isHeld back forth step := by
  have hpos := h.toRat_pos
  apply add_zero_of_read_ne
  unfold axisStep
  split
  · have hneg : toRat (-step) ≠ 0 := by
      rw [toRat_neg h.isFinite]
      exact neg_ne_zero.mpr hpos.ne'
    exact read_ne_negativeZero hneg
  · split
    · exact read_ne_negativeZero hpos.ne'
    · have hzero : read (0 : Float32) ≠ .zero .negative := by
        rw [read_zero]
        rintro ⟨⟩
      exact hzero

namespace Camera

section

variable {α : Type} [Scalar α] {c : Camera α} {stage : Stage α} {keyboard : Keyboard}
  {isHeld : Key → Prop}

/-- The bound modifier is among the given ones, and one of the arrows is held. -/
def Pans (c : Camera α) (modifiers : Modifiers) (isHeld : Key → Prop) : Prop :=
  c.settings.bindings.modifier.isHeld modifiers = true ∧ ∃ key ∈ Key.arrows, isHeld key

def steppedBy (c : Camera α) (isHeld : Key → Prop) [DecidablePred isHeld] : Camera α :=
  { c with
    pan := ⟨c.pan.x - axisStep isHeld .left .right c.settings.panStep,
      c.pan.y - axisStep isHeld .up .down c.settings.panStep⟩ }

/-- Neither axis has a held arrow, or one of them has. -/
theorem noArrow_iff [DecidablePred isHeld] (hheld : ∀ key, keyboard.isHeld key = true ↔ isHeld key)
    (step : α) :
    ((arrowStep? keyboard .up .down step).isNone &&
        (arrowStep? keyboard .left .right step).isNone) = true ↔
      ¬∃ key ∈ Key.arrows, isHeld key := by
  rw [Bool.and_eq_true, isNone_arrowStep? hheld, isNone_arrowStep? hheld]
  simp [Key.arrows, and_assoc]

theorem tick_of_not_pans (hheld : ∀ key, keyboard.isHeld key = true ↔ isHeld key)
    (h : ¬c.Pans keyboard.modifiers isHeld) : c.tick stage keyboard = .done c stage .ignored := by
  classical
  unfold tick
  dsimp only
  split
  · rename_i hmodifier
    rw [if_pos ((noArrow_iff hheld _).mpr fun harrow => h ⟨hmodifier, harrow⟩)]
  · rfl

end

/-- What the camera takes along with the step is zero. -/
theorem tick_of_pans {c : Camera Float32} {stage : Stage Float32} {keyboard : Keyboard}
    {isHeld : Key → Prop} [DecidablePred isHeld]
    (hheld : ∀ key, keyboard.isHeld key = true ↔ isHeld key)
    (h : c.Pans keyboard.modifiers isHeld) :
    c.tick stage keyboard = ((c.steppedBy isHeld).publish stage).answering .consumed := by
  obtain ⟨hmodifier, harrow⟩ := h
  have hmodified : keyboard.isModified c.settings.bindings.modifier = true := hmodifier
  have hresidual : c.scale.shift = ⟨0, 0⟩ := rfl
  have hstep := c.settings.isPanStep
  unfold tick
  dsimp only
  rw [if_pos hmodified, if_neg (fun hnone => (noArrow_iff hheld _).mp hnone harrow),
    arrowStep?_getD hheld, arrowStep?_getD hheld, hresidual, axisStep_add_zero hstep,
    axisStep_add_zero hstep]
  rfl

end Camera

namespace Viewer

variable {v w : Viewer Float32} {image : ImageBuffer Float32} {deeds : List (Deed Float32)}

/-- What a frame comes to with the given modifiers and held keys. It is consumed if the bound
modifier and an arrow are among them. Then it takes a step from the pan along each axis with a held
arrow, and publishes that. Otherwise it changes nothing at all. -/
structure PansBy (v : Viewer Float32) (modifiers : Modifiers) (isHeld : Key → Prop)
    [DecidablePred isHeld] : Prop where
  consumed : v.tick.2 = .ok .consumed ↔ v.camera.Pans modifiers isHeld
  ignored : ¬v.camera.Pans modifiers isHeld → v.tick = (v, .ok .ignored)
  panned : v.camera.Pans modifiers isHeld → ∃ stage,
    v.tick.1 = { v with camera := v.camera.steppedBy isHeld, stage }
  published : v.camera.Pans modifiers isHeld → ∃ node,
    v.stage.node? v.camera.node = some node ∧
      v.tick.1.stage.node? v.camera.node =
        some (node.publish (v.camera.steppedBy isHeld).viewPose)
  others : ∀ id, id ≠ v.camera.node → v.tick.1.stage.node? id = v.stage.node? id

/-- A frame goes by what the keyboard says of the arrows and the modifiers. -/
theorem Current.pansBy (h : v.Current image) {isHeld : Key → Prop} [DecidablePred isHeld]
    (hheld : ∀ key, v.keyboard.isHeld key = true ↔ isHeld key) :
    v.PansBy v.keyboard.modifiers isHeld := by
  by_cases hpans : v.camera.Pans v.keyboard.modifiers isHeld
  · have hseated : (v.camera.steppedBy isHeld).Seated v.stage image :=
      h.toSeated.of_nodes rfl rfl
    have htick : v.tick = v.adopt (((v.camera.steppedBy isHeld).publish v.stage).answering
        .consumed) := congrArg v.adopt (Camera.tick_of_pans hheld hpans)
    rw [hseated.publish] at htick
    obtain ⟨node, hnode⟩ := h.toSeated.driven
    refine ⟨?_, fun hnot => absurd hpans hnot, fun _ => ⟨_, by rw [htick]; rfl⟩, fun _ => ?_, ?_⟩
    · rw [htick]
      exact iff_of_true rfl hpans
    · refine ⟨node, hnode, ?_⟩
      rw [htick]
      exact (v.stage.node?_update_self _).trans (congrArg _ hnode)
    · intro id hid
      rw [htick]
      exact v.stage.node?_update_of_ne _ hid
  · have htick : v.tick = (v, .ok .ignored) :=
      congrArg v.adopt (Camera.tick_of_not_pans hheld hpans)
    refine ⟨?_, fun _ => htick, fun hyes => absurd hyes hpans, fun hyes => absurd hyes hpans, ?_⟩
    · rw [htick]
      exact iff_of_false (by rintro ⟨⟩) hpans
    · rw [htick]
      exact fun _ _ => rfl

theorem Run.modifiers (h : v.Run deeds w) (hidle : v.keyboard = .idle) :
    w.keyboard.modifiers = lastModifiers (eventsOf deeds) := by
  rw [h.keyboard, hidle, Keyboard.modifiers_observeAll]
  rfl

/-- **Panning by held keys is a function of the key events.** After any run of a new viewer a frame
goes by the modifiers of the last event of any key and by the keys whose last event was a press,
whatever else has happened in between. -/
theorem held_keys_pan {settings : Settings Float32} {size : Size}
    (hv : create image settings size = .ok v) (hrun : v.Run deeds w) :
    w.PansBy (lastModifiers (eventsOf deeds)) (HeldAfter deeds) := by
  have hidle := create_keyboard hv
  have hcurrent := (hrun.reachable (.create hv)).current
  rw [← hrun.modifiers hidle]
  exact hcurrent.pansBy (hrun.isHeld_iff hidle)

/-- The case of two opposite arrows that are both held, where an unrelated key is let go last. The
image moves to the right by one, for the left arrow wins. -/
theorem held_keys_pan_opposite :
    let commands : List (Command Float32) :=
      [.handle (.keyPressed .left .released), .tick, .handle (.keyPressed .right .released),
        .handle (.mouseMoved ⟨3, 4⟩), .handle (.keyReleased .enter control)]
    ∃ v w : Viewer Float32, create ⟨10, 10⟩ .default ⟨20, 20⟩ = .ok v ∧
      v.Run (commands.map .command) w ∧ w.tick.2 = .ok .consumed ∧
      w.tick.1.camera.pan = ⟨w.camera.pan.x - -1, w.camera.pan.y - 0⟩ := by
  intro commands
  obtain ⟨v, hv⟩ := create_ok ⟨10, 10⟩ maxPower_default_le ⟨20, 20⟩
  obtain ⟨w, hrun, hsettings⟩ := exists_run hv maxPower_default_le commands
  have hpans := held_keys_pan hv hrun
  have hheld : w.camera.Pans (lastModifiers (eventsOf (commands.map .command)))
      (HeldAfter (commands.map .command)) := by
    unfold Camera.Pans
    rw [hsettings]
    exact ⟨by decide, .left, by decide, by unfold HeldAfter; decide⟩
  refine ⟨v, w, hv, hrun, hpans.consumed.mpr hheld, ?_⟩
  obtain ⟨stage, hpanned⟩ := hpans.panned hheld
  have hpan : (w.camera.steppedBy (HeldAfter (commands.map .command))).pan =
      ⟨w.camera.pan.x - -1, w.camera.pan.y - 0⟩ := by
    unfold Camera.steppedBy
    rw [hsettings]
    rfl
  rw [hpanned]
  exact hpan

end Viewer

end PanZoom
