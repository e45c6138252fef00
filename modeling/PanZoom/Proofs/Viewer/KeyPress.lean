import PanZoom.Proofs.Input.Conflicts
import PanZoom.Proofs.Input.Held
import PanZoom.Proofs.Viewer.Success

/-!
# What a key press does

The camera is not told which key was pressed. It asks the keyboard, and takes the first of its bound
keys that is held, so a press acts through the keys that are still down from earlier events as well
as through its own:

* `Viewer.eventsOf`: the events among the deeds of a run. `Viewer.Run.keyboard` says that the
  keyboard has observed them and nothing else;
* `Viewer.ActsBy`: what a press comes to, by the keys that count as down;
* `Viewer.key_press_acts_by_held_keys`: those are the pressed key and the keys whose last event was
  a press. Where no other bound key is among them, only the pressed key counts;
* `Viewer.held_key_overrules_pressed_key`: in general it is not the only one.
-/

namespace PanZoom

variable {α : Type}

namespace Viewer

variable [Scalar α] {v w : Viewer α} {image : ImageBuffer α} {deeds : List (Deed α)}

def Deed.events : Deed α → List (Event α)
  | .command (.handle event) => [event]
  | _ => []

def eventsOf (deeds : List (Deed α)) : List (Event α) :=
  deeds.flatMap Deed.events

theorem eventsOf_concat (deeds : List (Deed α)) (d : Deed α) :
    eventsOf (deeds ++ [d]) = eventsOf deeds ++ d.events := by
  simp [eventsOf]

/-- What learns of events only has, after a run, observed the events of the run. -/
theorem Run.observes {σ : Type} (part : Viewer α → σ) {observe : σ → Event α → σ}
    (hact : ∀ (v : Viewer α) (d : Deed α), part (v.act d) = d.events.foldl observe (part v))
    (h : v.Run deeds w) : part w = (eventsOf deeds).foldl observe (part v) := by
  induction h with
  | start => rfl
  | act d _ _ ih => rw [hact, ih, eventsOf_concat, List.foldl_append]

theorem act_keyboard (v : Viewer α) (d : Deed α) :
    (v.act d).keyboard = v.keyboard.observeAll d.events := by
  cases d with
  | link other => rfl
  | command c =>
    cases c with
    | handle event => exact (v.handle_observes event).2
    | rotateClockwise => exact (v.rotate_observes (-1)).2
    | rotateCounterclockwise => exact (v.rotate_observes 1).2
    | tick | goTo | recenter | takeRedraw => rfl

/-- Of all deeds the keyboard learns of the events only. -/
theorem Run.keyboard (h : v.Run deeds w) :
    w.keyboard = v.keyboard.observeAll (eventsOf deeds) :=
  h.observes Viewer.keyboard act_keyboard

/-- What a press with the given modifiers comes to, if these keys count as down. Without the bound
modifier, or with none of the bound keys down, it changes nothing. Otherwise it acts through the
first bound key that is down: one step of zoom in, one step out, or a recentring. -/
structure ActsBy (v : Viewer α) (modifiers : Modifiers) (isDown : Key → Prop)
    (o : Outcome α Response) : Prop where
  idle : (v.camera.settings.bindings.modifier.isHeld modifiers = false ∨
      ∀ key ∈ v.camera.settings.bindings.keys, ¬isDown key) →
    o.camera = v.camera ∧ o.stage = v.stage
  zoomIn : v.camera.settings.bindings.modifier.isHeld modifiers = true →
    isDown v.camera.settings.bindings.zoomIn →
    o = (v.camera.zoomAt v.stage (.point 0 0) 1).answering .consumed
  zoomOut : v.camera.settings.bindings.modifier.isHeld modifiers = true →
    ¬isDown v.camera.settings.bindings.zoomIn → isDown v.camera.settings.bindings.zoomOut →
    o = (v.camera.zoomAt v.stage (.point 0 0) (-1)).answering .consumed
  recenter : v.camera.settings.bindings.modifier.isHeld modifiers = true →
    ¬isDown v.camera.settings.bindings.zoomIn → ¬isDown v.camera.settings.bindings.zoomOut →
    isDown v.camera.settings.bindings.recenter →
    o = (v.camera.recenter v.stage).answering .consumed

/-- Only the bound keys matter. -/
theorem ActsBy.congr {modifiers : Modifiers} {isDown isDown' : Key → Prop} {o : Outcome α Response}
    (h : v.ActsBy modifiers isDown o)
    (hsame : ∀ key ∈ v.camera.settings.bindings.keys, isDown key ↔ isDown' key) :
    v.ActsBy modifiers isDown' o := by
  obtain ⟨hin, hout, hrecenter⟩ : (isDown v.camera.settings.bindings.zoomIn ↔ _) ∧
      (isDown v.camera.settings.bindings.zoomOut ↔ _) ∧
      (isDown v.camera.settings.bindings.recenter ↔ _) := by
    simpa [Bindings.keys] using hsame
  constructor
  · intro hidle
    apply h.idle
    apply hidle.imp_right
    intro hnone key hkey hdown
    exact hnone key hkey ((hsame key hkey).mp hdown)
  · rw [← hin]
    exact h.zoomIn
  · rw [← hin, ← hout]
    exact h.zoomOut
  · rw [← hin, ← hout, ← hrecenter]
    exact h.recenter

/-- A press acts by the keys that the keyboard then holds. -/
theorem handled_actsBy (v : Viewer α) (key : Key) (modifiers : Modifiers) :
    v.ActsBy modifiers (fun other => (v.keyboard.press key).isHeld other = true)
      (v.handled (.keyPressed key modifiers)) := by
  have hhandled : v.handled (.keyPressed key modifiers) =
      v.camera.keyPressed v.stage ((v.keyboard.press key).setModifiers modifiers) := rfl
  have hheld (other : Key) : ((v.keyboard.press key).setModifiers modifiers).isHeld other =
      (v.keyboard.press key).isHeld other := rfl
  have hmodified (modifier : ModifierKey) :
      ((v.keyboard.press key).setModifiers modifiers).isModified modifier =
        modifier.isHeld modifiers := rfl
  rw [hhandled]
  unfold Camera.keyPressed
  simp only [hheld, hmodified]
  constructor
  · rintro (hreleased | hnone)
    · simp [hreleased, Outcome.done]
    · simp only [Bindings.keys, List.mem_cons, List.not_mem_nil, or_false, forall_eq_or_imp,
        forall_eq, Bool.not_eq_true] at hnone
      obtain ⟨hin, hout, hrecenter⟩ := hnone
      simp only [hin, hout, hrecenter, Bool.false_eq_true, if_false]
      split
      · split <;> exact ⟨rfl, rfl⟩
      · exact ⟨rfl, rfl⟩
  · intro hmodifier hin
    simp [hmodifier, hin]
  · intro hmodifier hin hout
    simp [hmodifier, hin, hout]
  · intro hmodifier hin hout hrecenter
    simp [hmodifier, hin, hout, hrecenter]

/-! ## Presses along a run -/

theorem create_keyboard {settings : Settings α} {size : Size}
    (h : create image settings size = .ok v) : v.keyboard = .idle := by
  obtain ⟨o, -, rfl⟩ := create_confined h
  rfl

/-- The key is still down after the deeds: the last event about it is a press. -/
def HeldAfter (deeds : List (Deed α)) (key : Key) : Prop :=
  lastPress? key (eventsOf deeds) = some true

instance (deeds : List (Deed α)) : DecidablePred (HeldAfter deeds) :=
  fun _ => inferInstanceAs (Decidable (_ = _))

/-- The keyboard holds the keys that are still down. -/
theorem Run.isHeld_iff (h : v.Run deeds w) (hidle : v.keyboard = .idle) (key : Key) :
    w.keyboard.isHeld key = true ↔ HeldAfter deeds key := by
  have hbefore : Keyboard.idle.isHeld key = false := rfl
  rw [h.keyboard, hidle, Keyboard.isHeld_observeAll, hbefore, HeldAfter]
  cases lastPress? key (eventsOf deeds) <;> simp

theorem Run.isHeld_press (h : v.Run deeds w) (hidle : v.keyboard = .idle) (key other : Key) :
    (w.keyboard.press key).isHeld other = true ↔ other = key ∨ HeldAfter deeds other := by
  rw [Keyboard.isHeld_press, Bool.or_eq_true, decide_eq_true_eq, h.isHeld_iff hidle, eq_comm]

/-- **A key press acts by the keys that are held.** After any run of a new viewer, a press acts
through the first of the bound keys that is the pressed key or is still down from an earlier event.
It changes nothing without the bound modifier, or if there is no such key. If no other bound key is
down from earlier events, then it acts only through its own key. -/
theorem key_press_acts_by_held_keys {settings : Settings α} {size : Size}
    (hv : create image settings size = .ok v) (hrun : v.Run deeds w) (key : Key)
    (modifiers : Modifiers) :
    w.ActsBy modifiers (fun other => other = key ∨ HeldAfter deeds other)
        (w.handled (.keyPressed key modifiers)) ∧
      ((∀ other ∈ w.camera.settings.bindings.keys, other ≠ key → ¬HeldAfter deeds other) →
        w.ActsBy modifiers (· = key) (w.handled (.keyPressed key modifiers))) := by
  have hacts := (w.handled_actsBy key modifiers).congr fun other _ =>
    hrun.isHeld_press (create_keyboard hv) key other
  refine ⟨hacts, fun halone => hacts.congr fun other hother => ?_⟩
  constructor
  · rintro (hsame | hheld)
    · exact hsame
    · by_contra hdiffers
      exact halone other hother hdiffers hheld
  · exact Or.inl

/-- The modifier of the default bindings alone. -/
def control : Modifiers :=
  ⟨false, true, false, false⟩

/-- With the key for zooming in still down, the key for zooming out zooms in. -/
theorem held_key_overrules_pressed_key :
    ∃ v w : Viewer Float32, create ⟨10, 10⟩ .default ⟨20, 20⟩ = .ok v ∧
      v.Run [.command (.handle (.keyPressed .plus control))] w ∧
      w.camera.zoomPower = 8 ∧ (w.handled (.keyPressed .minus control)).camera.zoomPower = 9 ∧
      ¬w.ActsBy control (· = .minus) (w.handled (.keyPressed .minus control)) := by
  have hrun : (match create ⟨10, 10⟩ Settings.default ⟨20, 20⟩ with
      | .ok v =>
        let after := v.perform (.handle (.keyPressed .plus control))
        let w := after.1
        after.2.isOk && decide (w.camera.settings.bindings = .default) &&
          decide (w.camera.zoomPower = 8) &&
          decide ((w.handled (.keyPressed .minus control)).camera.zoomPower = 9) &&
          decide ((w.camera.zoomAt w.stage (.point 0 0) (-1)).camera.zoomPower = 7)
      | .error _ => false) = true := by
    decide +kernel
  split at hrun
  · rename_i v hv
    simp only [Bool.and_eq_true, decide_eq_true_eq] at hrun
    obtain ⟨⟨⟨⟨hok, hbindings⟩, hbefore⟩, hafter⟩, hout⟩ := hrun
    have hends : (v.perform (.handle (.keyPressed .plus control))).2 ≠ .error .endless := by
      intro hstop
      rw [hstop] at hok
      exact Bool.false_ne_true hok
    have hpressed : v.Run [.command (.handle (.keyPressed .plus control))]
        (v.perform (.handle (.keyPressed .plus control))).1 :=
      .act (.command _) .start (.command _ hends)
    generalize (v.perform (.handle (.keyPressed .plus control))).1 = w at *
    refine ⟨v, w, hv, hpressed, hbefore, hafter, fun hacts => ?_⟩
    -- By itself the pressed key would zoom out to seven, but the held one zooms in to nine.
    have hzoomOut := hacts.zoomOut
    rw [hbindings] at hzoomOut
    have hcamera := congrArg Outcome.camera (hzoomOut rfl (by decide) rfl)
    rw [Outcome.answering_camera] at hcamera
    have hseven : (9 : Float32) = 7 :=
      hafter.symm.trans ((congrArg Camera.zoomPower hcamera).trans hout)
    revert hseven
    decide
  · cases hrun

/-- The case of a key that was pressed and let go before another one is pressed. -/
theorem key_press_acts_by_held_keys_released :
    let commands : List (Command Float32) :=
      [.handle (.keyPressed .plus control), .handle (.keyReleased .plus control)]
    ∃ v w : Viewer Float32, create ⟨10, 10⟩ .default ⟨20, 20⟩ = .ok v ∧
      v.Run (commands.map .command) w ∧
      w.ActsBy control (· = .minus) (w.handled (.keyPressed .minus control)) := by
  intro commands
  obtain ⟨v, hv⟩ := create_ok ⟨10, 10⟩ maxPower_default_le ⟨20, 20⟩
  obtain ⟨w, hrun, hsettings⟩ := exists_run hv maxPower_default_le commands
  refine ⟨v, w, hv, hrun, (key_press_acts_by_held_keys hv hrun .minus control).2 ?_⟩
  rw [hsettings]
  unfold HeldAfter
  decide

end Viewer

end PanZoom
