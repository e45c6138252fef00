import PanZoom.Proofs.Exact.Counted
import PanZoom.Proofs.Viewer.Dragging
import PanZoom.Proofs.Viewer.Recentering

/-!
# Drags follow the cursor

A drag moves the pan by the way from each place of the cursor to the next. In exact arithmetic these
ways add up, so the pan has gone as far as the strokes of the left button, whatever the path between
their ends and whatever other events came in between:

* `Viewer.PannedBy`: the pan has gone some way, and the power is the same;
* `Viewer.Current.handle_pans`: one event. `Viewer.Reachable.handleAll_pans`: one after another;
* `Viewer.drags_follow_cursor`: whether a drag is running, and how far the pan has gone, are told
  from the events alone.
-/

namespace PanZoom.Viewer

variable {K : Type} [Field K] [LinearOrder K] [IsStrictOrderedRing K] [PositiveReading K]
  {u v w : Viewer K} {image : ImageBuffer K} {event : Event K} {events : List (Event K)}
  {x x' y y' : K}

/-- The pan has gone so far, with `y` counted downward as on the canvas, and the power is the
same. -/
structure PannedBy (v w : Viewer K) (x y : K) : Prop where
  zoomPower : w.camera.zoomPower = v.camera.zoomPower
  right : w.camera.pan.x = v.camera.pan.x + x
  down : w.camera.pan.y = v.camera.pan.y - y

theorem PannedBy.of_pan (hpan : w.camera.pan = v.camera.pan)
    (hpower : w.camera.zoomPower = v.camera.zoomPower) : v.PannedBy w 0 0 := by
  refine ⟨hpower, ?_, ?_⟩
  · rw [hpan, add_zero]
  · rw [hpan, sub_zero]

theorem PannedBy.trans (h : v.PannedBy w x y) (h' : w.PannedBy u x' y') :
    v.PannedBy u (x + x') (y + y') := by
  refine ⟨h'.zoomPower.trans h.zoomPower, ?_, ?_⟩
  · rw [h'.right, h.right, add_assoc]
  · rw [h'.down, h.down, sub_sub]

/-- A move while a drag runs takes the pan from the last known place to the new one. -/
theorem Current.handle_moved (h : v.Current image) {last : Point K} (hdrag : v.drag = .running last)
    (position : Point K) :
    (v.handle (.mouseMoved position)).2 = .ok .consumed ∧
      v.PannedBy (v.handle (.mouseMoved position)).1 (position.x - last.x)
        (position.y - last.y) := by
  let dragged : Camera K :=
    { v.camera with pan :=
        ⟨v.camera.pan.x + (position.x - last.x), v.camera.pan.y + -(position.y - last.y)⟩ }
  have hseated : dragged.Seated v.stage image := h.toSeated.of_nodes rfl rfl
  have hhandled : v.handled (.mouseMoved position) =
      (dragged.publish v.stage).answering .consumed := handled_moved hdrag position
  rw [hseated.publish] at hhandled
  have hcamera : (v.handle (.mouseMoved position)).1.camera = dragged :=
    congrArg Outcome.camera hhandled
  refine ⟨congrArg Outcome.result hhandled, ?_, ?_, ?_⟩ <;> rw [hcamera]
  exact (sub_eq_add_neg _ _).symm

/-- Without a drag that moves, the pan stays. -/
theorem Current.handle_still (h : v.Current image) (hzooms : event.zooms = false)
    (hstill : event.move? = none ∨ v.drag = .idle) :
    (∃ response, (v.handle event).2 = .ok response) ∧ v.PannedBy (v.handle event).1 0 0 := by
  cases hsize : event.size? with
  | none =>
    obtain ⟨response, hdone⟩ := handled_still hstill hsize hzooms
    have hcamera : (v.handle event).1.camera = v.camera := congrArg Outcome.camera hdone
    exact ⟨⟨response, congrArg Outcome.result hdone⟩, .of_pan (by rw [hcamera]) (by rw [hcamera])⟩
  | some size =>
    cases event with
    | resized size =>
      obtain ⟨hok, hcamera⟩ := h.handle_resized size
      exact ⟨⟨_, hok⟩, .of_pan (by rw [hcamera]; rfl) (by rw [hcamera]; rfl)⟩
    | _ => cases hsize

/-- An event that does not zoom succeeds, and the pan goes as far as the drag does. -/
theorem Current.handle_pans (h : v.Current image) (hzooms : event.zooms = false) :
    (∃ response, (v.handle event).2 = .ok response) ∧
      v.PannedBy (v.handle event).1 (v.drag.gain Point.x event) (v.drag.gain Point.y event) := by
  by_cases hstill : event.move? = none ∨ v.drag = .idle
  · rw [Drag.gain_of_still _ hstill, Drag.gain_of_still _ hstill]
    exact h.handle_still hzooms hstill
  · -- What is left is a move while a drag runs.
    obtain ⟨hmove, hdrag⟩ := not_or.mp hstill
    obtain ⟨position, hposition⟩ := Option.ne_none_iff_exists'.mp hmove
    cases hlast : v.drag with
    | idle => exact absurd hlast hdrag
    | running last =>
      cases event with
      | mouseMoved position =>
        obtain ⟨hok, hpanned⟩ := h.handle_moved hlast position
        exact ⟨⟨_, hok⟩, hpanned⟩
      | _ => cases hposition

theorem Reachable.handleAll_pans (h : Reachable image v)
    (hzooms : ∀ event ∈ events, event.zooms = false) :
    v.Accepts events ∧ v.PannedBy (v.handleAll events) (v.drag.drawn Point.x events)
      (v.drag.drawn Point.y events) := by
  induction events generalizing v with
  | nil =>
    rw [Drag.drawn_nil, Drag.drawn_nil]
    exact ⟨trivial, .of_pan rfl rfl⟩
  | cons event events ih =>
    obtain ⟨⟨response, hok⟩, hfirst⟩ := h.current.handle_pans (hzooms event List.mem_cons_self)
    obtain ⟨haccepts, hrest⟩ := ih (h.handle hok).1 fun event hmem =>
      hzooms event (List.mem_cons_of_mem _ hmem)
    -- The rest counts from the drag that the first event leaves.
    rw [handle_drag] at hrest
    rw [Drag.drawn_cons, Drag.drawn_cons]
    exact ⟨⟨⟨response, hok⟩, haccepts⟩, hfirst.trans hrest⟩

/-- **Drags follow the cursor.** After any run of a new viewer and any events, a drag is running
exactly if the last event of the left button was a press. In exact arithmetic, events that do not
zoom all succeed and leave the power as it is, and they move the pan as far as the strokes of the
left button go in them. If a drag is running already, its stroke counts from where the drag has come
to, so what the strokes of the whole history have gone by then is taken off. -/
theorem drags_follow_cursor :
    (∀ {α : Type} [Scalar α] {image : ImageBuffer α} {settings : Settings α} {size : Size}
        {v u : Viewer α} {deeds : List (Deed α)}, create image settings size = .ok v →
      v.Run deeds u → ∀ events, (u.handleAll events).drag.isRunning = true ↔
        lastLeft? (eventsOf deeds ++ events) = some true) ∧
    ∀ {K : Type} [Field K] [LinearOrder K] [IsStrictOrderedRing K] [PositiveReading K]
        {image : ImageBuffer K} {settings : Settings K} {size : Size} {v u : Viewer K}
        {deeds : List (Deed K)}, create image settings size = .ok v → v.Run deeds u →
      ∀ events : List (Event K), (∀ event ∈ events, event.zooms = false) →
        let history := eventsOf deeds
        u.Accepts events ∧
          u.PannedBy (u.handleAll events)
            (travel Point.x (history ++ events) - travel Point.x history)
            (travel Point.y (history ++ events) - travel Point.y history) ∧
          (u.drag = .idle →
            u.PannedBy (u.handleAll events) (travel Point.x events) (travel Point.y events)) := by
  refine ⟨fun hv hrun events => hrun.isRunning_handleAll (create_drag hv) events, ?_⟩
  intro K _ _ _ _ image settings size v u deeds hv hrun events hzooms history
  obtain ⟨haccepts, hpanned⟩ := (hrun.reachable (.create hv)).handleAll_pans hzooms
  -- The drag of `u` is in the middle of the strokes that the events of its run have begun.
  have hdrag : u.drag = Drag.idle.observeAll history := (create_drag hv) ▸ hrun.drag
  refine ⟨haccepts, ?_, ?_⟩
  · rwa [hdrag, Drag.drawn_observeAll, Drag.drawn_observeAll] at hpanned
  · intro hidle
    rwa [hidle] at hpanned

/-- The case of a drag that is running at first, restarts, and is let go far away. -/
theorem drags_follow_cursor_restarted :
    let history : List (Event ℚ) := [.mousePressed .left ⟨1, 1⟩, .mouseMoved ⟨3, 2⟩]
    let events : List (Event ℚ) :=
      [.mouseMoved ⟨5, 5⟩, .mousePressed .right ⟨9, 9⟩, .mousePressed .left ⟨0, 0⟩,
        .resized ⟨0, 7⟩, .mouseMoved ⟨40, 40⟩, .mouseMoved ⟨-1, 4⟩, .mouseReleased .left ⟨100, 100⟩,
        .mouseMoved ⟨50, 50⟩, .keyReleased .plus control, .mouseReleased .left ⟨0, 0⟩]
    ∃ v u : Viewer ℚ, create ⟨10, 10⟩ .doubling ⟨20, 20⟩ = .ok v ∧
      v.Run (history.map fun event => .command (.handle event)) u ∧ u.drag.isRunning = true ∧
      u.Accepts events ∧ u.PannedBy (u.handleAll events) 1 7 ∧
      ¬(u.handleAll events).drag.isRunning = true := by
  intro history events
  obtain ⟨power, hpower⟩ := ((unfitted Settings.doubling ⟨20, 20⟩).fitting .identity
    (⟨10, 10⟩ : ImageBuffer ℚ)).exists_power?
  obtain ⟨v, hv, -⟩ := create_of_power?_eq_some hpower
  obtain ⟨hfollows, hpans⟩ := drags_follow_cursor
  have hrun := Run.start.accepts (hpans hv .start history (by decide)).1
  obtain ⟨haccepts, hpanned, -⟩ := hpans hv hrun events (by decide)
  have hbefore : strokes history = [⟨⟨1, 1⟩, [⟨3, 2⟩]⟩] := rfl
  have hafter : strokes (history ++ events) =
      [⟨⟨1, 1⟩, [⟨3, 2⟩, ⟨5, 5⟩]⟩, ⟨⟨0, 0⟩, [⟨40, 40⟩, ⟨-1, 4⟩]⟩] := rfl
  have hright : travel Point.x (history ++ events) - travel Point.x history = 1 := by
    norm_num [travel, hbefore, hafter, Stroke.span, Stroke.stop]
  have hdown : travel Point.y (history ++ events) - travel Point.y history = 7 := by
    norm_num [travel, hbefore, hafter, Stroke.span, Stroke.stop]
  refine ⟨v, _, hv, hrun, ?_, haccepts, ?_, ?_⟩
  · exact (hfollows hv hrun []).mpr rfl
  · rw [← hright, ← hdown]
    exact hpanned
  · rw [hfollows hv hrun events]
    rintro ⟨⟩

end PanZoom.Viewer
