import PanZoom.Replay
import PanZoom.Proofs.Viewer.Publishing

/-!
# A replay is all or nothing

A run of the program either prints one message and nothing else, or it prints a whole report, in
which an event has a line exactly if it changed what is published, or if it is the first:

* `Replay.next`, `Replay.after`: the viewer after one event, after a script;
* `Replay.step_endless`: an event stops a reachable viewer only by a search that never ends, so
  that nothing fails once the first line is out;
* `Replay.Shows`: the lines of those events that have a property. `Replay.Shows.cons` adds an event
  at the front, `Replay.play_shows` says which events of a script have a line;
* `Replay.run_all_or_nothing`: the two ways in which a run ends.
-/

namespace PanZoom

structure Report.IsRefusal (r : Report) : Prop where
  exitCode : r.ending.exitCode = 1
  lines : r.lines = []
  message : ∃ text, r.ending.message? = some text

namespace Replay

open Viewer

variable {v w : Viewer Float32} {image : ImageBuffer Float32} {e : Event Float32}
  {rest script : List (Event Float32)} {index : ℕ} {P : ℕ → Prop}

/-- The viewer after an event and a frame, with the redraw taken. -/
def next (v : Viewer Float32) (e : Event Float32) : Viewer Float32 :=
  (v.handle e).1.tick.1.takeRedraw.1

def after (v : Viewer Float32) (script : List (Event Float32)) : Viewer Float32 :=
  script.foldl next v

theorem step_eq (v : Viewer Float32) (e : Event Float32) :
    step v e = (v.handle e).2.bind fun _ =>
      (v.handle e).1.tick.2.map fun _ => (v.handle e).1.tick.1 := by
  unfold step
  dsimp only
  cases (v.handle e).2 with
  | error stop => rfl
  | ok response => dsimp only [Except.bind]; cases (v.handle e).1.tick.2 <;> rfl

theorem proceeds_of_step (h : step v e = .ok w) : v.Proceeds e ∧ w = (v.handle e).1.tick.1 := by
  rw [step_eq] at h
  cases hhandle : (v.handle e).2 with
  | error stop => rw [hhandle] at h; cases h
  | ok response =>
    cases htick : (v.handle e).1.tick.2 with
    | error stop => rw [hhandle, htick] at h; cases h
    | ok response =>
      rw [hhandle, htick] at h
      cases h
      exact ⟨⟨by rw [hhandle]; rintro ⟨⟩, by rw [htick]; rintro ⟨⟩⟩, rfl⟩

/-- Neither an event nor a frame fails on a reachable viewer. -/
theorem step_endless {stop : Stop} (hv : Reachable image v) (h : step v e = .error stop) :
    stop = .endless := by
  rw [step_eq] at h
  obtain ⟨node, hnode, -⟩ := hv.current.shown
  rcases hv.sound.handle_answers hnode e with ⟨response, hhandle⟩ | ⟨hhandle, -⟩
  · have hends : (v.perform (.handle e)).2 ≠ .error .endless :=
      map_ne_endless_iff.mpr (by rw [hhandle]; rintro ⟨⟩)
    have hhandled : Reachable image (v.handle e).1 := hv.perform (.handle e) hends
    rcases hhandled.sound.tick_answers node.pose with ⟨_, htick⟩ | ⟨htick, -⟩
    · rw [hhandle, htick] at h
      cases h
    · rw [hhandle, htick] at h
      cases h
      rfl
  · rw [hhandle] at h
    cases h
    rfl

theorem next_reachable (hv : Reachable image v) (h : v.Proceeds e) :
    Reachable image (next v e) :=
  (h.reachable hv).perform .takeRedraw (by rintro ⟨⟩)

theorem next_awaits (v : Viewer Float32) (e : Event Float32) : (next v e).awaits = false :=
  takeRedraw_awaits _

theorem play_of_step (h : step v e = .ok (v.handle e).1.tick.1) :
    play v index (e :: rest) =
      ((if (v.handle e).1.tick.1.awaits then
          eventLine index (next v e) :: (play (next v e) (index + 1) rest).1
        else (play (next v e) (index + 1) rest).1),
        (play (next v e) (index + 1) rest).2) := by
  simp only [play, h, ← takeRedraw_answer, next]

theorem play_of_step_error {stop : Stop} (h : step v e = .error stop) :
    play v index (e :: rest) = ([], .error stop) := by
  simp only [play, h]

theorem play_endless {stop : Stop} (hv : Reachable image v)
    (h : (play v index script).2 = .error stop) : stop = .endless := by
  -- Every viewer on the way is reachable, and a step of such a viewer stops for one reason only.
  induction script generalizing v index with
  | nil => cases h
  | cons e rest ih =>
    cases hstep : step v e with
    | error stop' =>
      rw [play_of_step_error hstep] at h
      cases h
      exact step_endless hv hstep
    | ok w =>
      obtain ⟨hends, rfl⟩ := proceeds_of_step hstep
      rw [play_of_step hstep] at h
      exact ih (next_reachable hv hends) h

/-- A script that is played to its end plays its first event and then the rest. -/
theorem play_cons_ok (h : (play v index (e :: rest)).2 = .ok w) :
    v.Proceeds e ∧ (play (next v e) (index + 1) rest).2 = .ok w ∧
      (play v index (e :: rest)).1 =
        if (v.handle e).1.tick.1.awaits then
          eventLine index (next v e) :: (play (next v e) (index + 1) rest).1
        else (play (next v e) (index + 1) rest).1 := by
  cases hstep : step v e with
  | error stop =>
    rw [play_of_step_error hstep] at h
    cases h
  | ok u =>
    obtain ⟨hends, rfl⟩ := proceeds_of_step hstep
    rw [play_of_step hstep] at h ⊢
    exact ⟨hends, h, rfl⟩

theorem play_after (h : (play v index script).2 = .ok w) : w = after v script := by
  induction script generalizing v index with
  | nil => cases h; rfl
  | cons e rest ih => exact ih (play_cons_ok h).2.1

/-- The lines are those of the events whose numbers, counted from the given one, have the property,
in the order of the script. -/
def Shows (v : Viewer Float32) (index : ℕ) (script : List (Event Float32)) (P : ℕ → Prop)
    (lines : List String) : Prop :=
  ∃ shown : List ℕ, shown.Pairwise (· < ·) ∧ (∀ i, i ∈ shown ↔ P i) ∧
    lines = shown.map fun i => eventLine (index + i) (after v (script.take (i + 1)))

theorem Shows.nil (v : Viewer Float32) (index : ℕ) (h : ∀ i, ¬P i) : Shows v index [] P [] :=
  ⟨[], .nil, by simpa using h, rfl⟩

/-- The rest of the script shows its own lines, with numbers that are one less. -/
theorem Shows.cons {lines : List String} {told : Bool}
    (h : Shows (next v e) (index + 1) rest (fun i => P (i + 1)) lines)
    (htold : told = true ↔ P 0) :
    Shows v index (e :: rest) P
      (if told then eventLine index (next v e) :: lines else lines) := by
  obtain ⟨shown, hincreasing, hshown, rfl⟩ := h
  have hlater : (shown.map (· + 1)).Pairwise (· < ·) := by
    simpa [List.pairwise_map] using hincreasing
  have hlines :
      (shown.map fun i => eventLine (index + 1 + i) (after (next v e) (rest.take (i + 1)))) =
        (shown.map (· + 1)).map fun i =>
          eventLine (index + i) (after v ((e :: rest).take (i + 1))) := by
    simp [after, Nat.add_assoc, Nat.add_comm 1]
  cases told with
  | true =>
    refine ⟨0 :: shown.map (· + 1), by simpa using hlater, ?_, by rw [if_pos rfl, hlines]; rfl⟩
    intro i
    cases i with
    | zero => simpa using htold
    | succ i => simp [hshown]
  | false =>
    refine ⟨shown.map (· + 1), hlater, ?_, hlines⟩
    intro i
    cases i with
    | zero => simpa using htold
    | succ i => simp [hshown]

/-- When every redraw so far was taken, an event has a line exactly if it publishes. -/
theorem play_shows (hv : Reachable image v) (hdown : v.awaits = false)
    (h : (play v index script).2 = .ok w) :
    Shows v index script
      (fun i => ∃ e, script[i]? = some e ∧ (after v (script.take i)).Publishes e)
      (play v index script).1 := by
  induction script generalizing v index with
  | nil => exact .nil v index (by simp)
  | cons e rest ih =>
    obtain ⟨hends, hrest, hlines⟩ := play_cons_ok h
    have hpublishes := hv.current.awaits_iff_publishes hends hdown
    rw [hlines]
    -- The rest begins with a redraw taken too, whatever the event did.
    refine (ih (next_reachable hv hends) (next_awaits v e) hrest).cons (hpublishes.trans ?_)
    simp [after]

/-- There is an event with the number, and it is the first or it publishes. -/
def HasLine (v : Viewer Float32) (script : List (Event Float32)) (i : ℕ) : Prop :=
  ∃ e, script[i]? = some e ∧ (i = 0 ∨ (after v (script.take i)).Publishes e)

/-- When a redraw is still to be taken, the first event has a line in any case. -/
theorem play_hasLine (hv : Reachable image v) (hup : v.awaits = true)
    (h : (play v index script).2 = .ok w) :
    Shows v index script (HasLine v script) (play v index script).1 := by
  cases script with
  | nil => exact .nil v index (by simp [HasLine])
  | cons e rest =>
    obtain ⟨hends, hrest, hlines⟩ := play_cons_ok h
    have hlater := play_shows (next_reachable hv hends) (next_awaits v e) hrest
    rw [hlines]
    refine Shows.cons (by simpa [HasLine, after] using hlater) ?_
    rw [hv.current.awaits_of_awaits hends hup]
    simp [HasLine]

/-! ## A run of the program -/

/-- The lines of the opening, of the events that have one, and of the closing. -/
def IsAccount (v : Viewer Float32) (script : List (Event Float32)) (lines : List String) : Prop :=
  ∃ shown : List ℕ, shown.Pairwise (· < ·) ∧ (∀ i, i ∈ shown ↔ HasLine v script i) ∧
    lines = ("initial: " ++ v.status) ::
      (shown.map fun i => eventLine i (after v (script.take (i + 1)))) ++
      closing (after v script)

theorem report_of_create_error {buffer : ImageBuffer Float32} {config : Config} {stop : Stop}
    (h : Viewer.create buffer config.settings canvas = .error stop) :
    report buffer config script = ⟨[], endingOf stop⟩ := by
  -- The equation lemma of `report` takes long to derive, and neither proof needs it.
  delta report
  rw [h]

theorem report_of_create {buffer : ImageBuffer Float32} {config : Config}
    (h : Viewer.create buffer config.settings canvas = .ok v) :
    report buffer config script =
      match (play v 0 script).2 with
      | .error stop => ⟨("initial: " ++ v.status) :: (play v 0 script).1, endingOf stop⟩
      | .ok w => ⟨("initial: " ++ v.status) :: (play v 0 script).1 ++ closing w, .success⟩ := by
  delta report
  rw [h]
  dsimp only
  generalize play v 0 script = played
  obtain ⟨lines, result⟩ := played
  cases result <;> rfl

/-- A report is whole, unless a search never ends: neither creating the viewer nor anything after
it can fail. -/
theorem report_account {buffer : ImageBuffer Float32} {config : Config}
    (h : (report buffer config script).ending ≠ .broken) :
    ∃ v, Viewer.create buffer config.settings canvas = .ok v ∧
      (report buffer config script).ending = .success ∧
      IsAccount v script (report buffer config script).lines := by
  rcases create_answers buffer config.settings canvas with ⟨v, hcreate⟩ | ⟨hcreate, -⟩
  · have hv : Reachable buffer v := .create hcreate
    have hreport := @report_of_create v script buffer config hcreate
    cases hplay : (play v 0 script).2 with
    | error stop =>
      rw [hplay, play_endless hv hplay] at hreport
      rw [hreport] at h
      exact absurd rfl h
    | ok w =>
      have hw : w = after v script := play_after hplay
      obtain ⟨shown, hincreasing, hshown, hlines⟩ :=
        play_hasLine hv (create_published hcreate).awaits hplay
      rw [hplay, hlines, hw] at hreport
      rw [hreport]
      exact ⟨v, hcreate, rfl, shown, hincreasing, hshown, by simp only [Nat.zero_add]⟩
  · rw [report_of_create_error hcreate] at h
    exact absurd rfl h

/-- **A replay is all or nothing.** Whatever the arguments, the script and the configuration file
are, a run that does not break off

* prints no line and one message, and the exit code is that of a failure, or
* prints no message, and the exit code is that of success. The lines are then the initial status,
  one line for the first event and for every other event that published the view or was followed by
  a frame that did, in their order, and the closing lines. -/
theorem run_all_or_nothing (arguments : List String) (configText : Option String)
    (readFile : String → Option String)
    (hends : (run arguments configText readFile).ending ≠ .broken) :
    (run arguments configText readFile).IsRefusal ∨
      ∃ request script v,
        Request.ofArguments arguments = .ok request ∧
        loadScript readFile request.script = .ok script ∧
        Viewer.create request.buffer (configInForce configText).settings canvas = .ok v ∧
        (run arguments configText readFile).ending.exitCode = 0 ∧
        (run arguments configText readFile).ending.message? = none ∧
        IsAccount v script (run arguments configText readFile).lines := by
  have hrefusal (e : ReplayError) : (⟨[], .failure e⟩ : Report).IsRefusal := ⟨rfl, rfl, _, rfl⟩
  unfold run at hends ⊢
  dsimp only at hends ⊢
  split at hends
  · exact absurd rfl hends
  · rename_i hlogged
    rw [if_neg hlogged]
    cases hrequest : Request.ofArguments arguments with
    | error e => exact .inl (hrefusal e)
    | ok request =>
      rw [hrequest] at hends
      dsimp only at hends ⊢
      cases hscript : loadScript readFile request.script with
      | error e => exact .inl (hrefusal e)
      | ok script =>
        rw [hscript] at hends
        obtain ⟨v, hcreate, hending, haccount⟩ := report_account hends
        refine .inr ⟨request, script, v, rfl, hscript, hcreate, ?_, ?_, haccount⟩
        · exact congrArg Ending.exitCode hending
        · exact congrArg Ending.message? hending

/-- A file with a script of a click, which publishes nothing, and a step of the wheel. -/
def clickAndWheel (path : String) : Option String :=
  if path = "events.json" then
    some ("[[\"mouse_pressed\",\"left\",[10,20]],[\"mouse_released\",\"left\",[10,20]]," ++
      "[\"mouse_wheel\",1,[10,20]]]")
  else none

/-- What is printed for it: the press has a line because it is the first, the release has none. -/
def clickAndWheelReport : Report :=
  ⟨["initial: Zoom: 380% | Center: (100.0, 50.0)", "[0] Zoom: 380% | Center: (100.0, 50.0)",
    "[2] Zoom: 418% | Center: (90.7, 56.7)",
    "final: zoom power 15, pan (39.000, -28.000), Zoom: 418% | Center: (90.7, 56.7)",
    "view transform (64 bytes):", "  [  0.01044   0.00000   0.00000   0.00000]",
    "  [  0.00000   0.01392   0.00000   0.00000]", "  [  0.00000   0.00000  -1.00000   0.00000]",
    "  [  0.09750  -0.09333   0.00000   1.00000]"], .success⟩

theorem run_all_or_nothing_clickAndWheel :
    run ["200", "100", "events.json"] none clickAndWheel = clickAndWheelReport ∧
      (run ["200", "100", "events.json"] none clickAndWheel).ending ≠ .broken ∧
      ∃ (request : Request) (script : List (Event Float32)) (v : Viewer Float32),
        loadScript clickAndWheel request.script = .ok script ∧
        Viewer.create request.buffer Config.default.settings canvas = .ok v ∧
        IsAccount v script clickAndWheelReport.lines := by
  have hrun : run ["200", "100", "events.json"] none clickAndWheel = clickAndWheelReport := by
    decide +kernel
  have hends : (run ["200", "100", "events.json"] none clickAndWheel).ending ≠ .broken := by
    rw [hrun]
    rintro ⟨⟩
  refine ⟨hrun, hends, ?_⟩
  have hcases := run_all_or_nothing _ _ _ hends
  rw [hrun] at hcases
  rcases hcases with hrefusal | ⟨request, script, v, -, hscript, hcreate, -, -, haccount⟩
  · cases hrefusal.lines
  · exact ⟨request, script, v, hscript, hcreate, haccount⟩

end Replay

end PanZoom
