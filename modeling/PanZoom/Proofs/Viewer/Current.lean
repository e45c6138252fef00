import PanZoom.Proofs.Camera.Settled
import PanZoom.Proofs.Viewer.Reachable
import PanZoom.Proofs.Viewer.Routing

/-!
# A viewer's pose is never stale

Whatever a viewer is asked to do, and whether or not it succeeds, its two handles stay live, its
buffer's node keeps its image, and the pose of its camera's node is the camera's view, to the bit:

* `Viewer.create_current`: a new viewer is current;
* `Viewer.Settles`: a command has changed nothing, or the camera has published. All do so but turns
  and taking the redraw;
* `Viewer.Current.perform`: every command leaves a viewer current;
* `Viewer.Reachable.pose_eq_viewPose`: hence every reachable viewer is.
-/

namespace PanZoom.Viewer

variable {α β : Type} [Scalar α] {v w : Viewer α} {image : ImageBuffer α}

/-- The viewer's camera is current on the viewer's stage. -/
def Current (v : Viewer α) (image : ImageBuffer α) : Prop :=
  v.camera.Current v.stage image

/-- The stage of a new viewer: the buffer's node, then the camera's. -/
def opening (image : ImageBuffer α) : Stage α :=
  ⟨[⟨0, some ⟨Camera.bufferName, .ofBuffer image⟩⟩,
    ⟨0, some ⟨Camera.cameraName, .ofPose .identity⟩⟩],
   [(Camera.cameraName, ⟨1, 0⟩), (Camera.bufferName, ⟨0, 0⟩)]⟩

theorem create_eq (image : ImageBuffer α) (settings : Settings α) (size : Size) :
    create image settings size =
      let fitted := (Camera.ofNodes ⟨1, 0⟩ ⟨0, 0⟩ settings).fitTo (opening image) size
      match fitted.result with
      | .error stop => .error stop
      | .ok () => .ok ⟨fitted.stage, fitted.camera, .idle, .ofSize size, .idle⟩ := by
  rfl

theorem seated_opening (image : ImageBuffer α) (settings : Settings α) :
    (Camera.ofNodes ⟨1, 0⟩ ⟨0, 0⟩ settings).Seated (opening image) image := by
  refine ⟨?_, ⟨.ofPose .identity, rfl⟩, .ofBuffer image, rfl, rfl⟩
  simp [Camera.ofNodes]

theorem create_current {settings : Settings α} {size : Size}
    (h : create image settings size = .ok v) : v.Current image := by
  rw [create_eq] at h
  have hfit := (seated_opening image settings).fitTo_current size
  dsimp only at h
  split at h
  · cases h
  · rename_i hok
    cases h
    exact hfit (by rw [hok]; rintro ⟨⟩)

/-- Nothing was changed that can be seen, or the camera has published its view. -/
def Settles (v w : Viewer α) : Prop :=
  v.camera.Settles v.stage w.camera w.stage

theorem Settles.current (h : v.Settles w) (hv : v.Current image) : w.Current image :=
  Camera.Settles.current h hv

theorem adopt_settles {o : Outcome α β} (h : o.IsSettled v.camera v.stage)
    (hends : (v.adopt o).2 ≠ .error .endless) : v.Settles (v.adopt o).1 :=
  h hends

theorem ne_endless_of_ok {result : Except Stop β} {b : β} (h : result = .ok b) :
    result ≠ .error .endless := by
  rw [h]
  rintro ⟨⟩

/-- A command forgets the answer and keeps what stopped it. -/
theorem map_ne_endless_iff {result : Except Stop β} :
    result.map (fun _ => ()) ≠ .error .endless ↔ result ≠ .error .endless := by
  cases result <;> simp [Except.map]

theorem Asks.settled {size? : Option Size} {o : Outcome α Response} (ho : v.Asks size? o)
    (h : v.Current image) : o.IsSettled v.camera v.stage := by
  have hseated : v.camera.Seated v.stage image := h.toSeated
  cases ho with
  | nothing response => exact .done v.camera v.stage response
  | resize size => exact (hseated.resize_settled size).answering _
  | drag way => exact (hseated.drag_settled way).answering _
  | scroll delta canvas => exact (hseated.scroll_settled delta canvas).answering _
  | keys keyboard => exact hseated.keyPressed_settled keyboard

theorem Current.handle_settles (h : v.Current image) {event : Event α}
    (hends : (v.handle event).2 ≠ .error .endless) : v.Settles (v.handle event).1 :=
  (v.handle_asks event).settled h hends

/-- A resize succeeds, and the camera is resized. -/
theorem Current.handle_resized (h : v.Current image) (size : Size) :
    (v.handle (.resized size)).2 = .ok .consumed ∧
      (v.handle (.resized size)).1.camera = v.camera.resize size := by
  have hseated : (v.camera.resize size).Seated v.stage image := h.toSeated.of_nodes rfl rfl
  have hhandled : v.handled (.resized size) =
      ((v.camera.resize size).publish v.stage).answering .consumed := rfl
  rw [hseated.publish] at hhandled
  exact ⟨congrArg Outcome.result hhandled, congrArg Outcome.camera hhandled⟩

theorem Current.tick_settles (h : v.Current image) (hends : v.tick.2 ≠ .error .endless) :
    v.Settles v.tick.1 :=
  adopt_settles (h.toSeated.tick_settled _) hends

/-- Only turns and taking the redraw reach for anything but the camera's view. -/
theorem Current.perform_settles (h : v.Current image) {command : Command α}
    (hends : (v.perform command).2 ≠ .error .endless) (hturns : command.turns = 0)
    (htake : command ≠ .takeRedraw) : v.Settles (v.perform command).1 := by
  have hseated : v.camera.Seated v.stage image := h.toSeated
  cases command with
  | handle event => exact h.handle_settles (map_ne_endless_iff.mp hends)
  | tick => exact h.tick_settles (map_ne_endless_iff.mp hends)
  | goTo target => exact adopt_settles (hseated.moveTo_settled target) hends
  | recenter => exact adopt_settles hseated.recenter_settled hends
  | rotateClockwise => cases hturns
  | rotateCounterclockwise => cases hturns
  | takeRedraw => exact absurd rfl htake

/-- A turn moves the buffer's node only, so the view is current while the buffer is fitted. -/
theorem Current.turning (h : v.Current image) (turns : Int) (node : Node α) (center : Point α) :
    (v.turning turns node center).IsCurrent image := by
  have hturned := h.update_buffer
    (f := (·.publish (Transform.quarterTurns turns * node.pose))) fun _ => rfl
  refine hturned.fit_current.andThen fun _ _ _ hc => ?_
  exact fun hends => (hc.moveTo_settled center hends).current hc

theorem Current.rotate (h : v.Current image) (turns : Int)
    (hends : (v.rotate turns).2 ≠ .error .endless) : (v.rotate turns).1.Current image := by
  rcases v.rotate_cases turns with ⟨e, hstays⟩ | ⟨node, center, -, hturns⟩
  · rw [hstays]
    exact h
  · rw [hturns] at hends ⊢
    exact h.turning turns node center hends

theorem Current.takeRedraw (h : v.Current image) : v.takeRedraw.1.Current image := by
  have hnode := Camera.Current.update_node (f := ({ · with redraw := false })) h fun _ => rfl
  exact hnode.update_buffer (f := ({ · with redraw := false })) fun _ => rfl

theorem Current.perform (h : v.Current image) (command : Command α)
    (hends : (v.perform command).2 ≠ .error .endless) : (v.perform command).1.Current image := by
  by_cases hturns : command.turns = 0
  · by_cases htake : command = .takeRedraw
    · subst htake
      exact h.takeRedraw
    · exact (h.perform_settles hends hturns htake).current h
  · rcases Command.eq_rotate hturns with rfl | rfl
    · exact h.rotate 1 hends
    · exact h.rotate (-1) hends

/-- A link only publishes, so it succeeds. -/
theorem Current.linkFrom_ok (h : v.Current image) (other : Viewer α) :
    (v.linkFrom other).2 = .ok () := by
  have hseated : ({ other.camera with node := v.camera.node, buffer := v.camera.buffer }).Seated
      v.stage image := h.toSeated.of_nodes rfl rfl
  show (Camera.publish _ v.stage).result = .ok ()
  rw [hseated.publish]
  rfl

theorem Current.linkFrom_settles (h : v.Current image) (other : Viewer α) :
    v.Settles (v.linkFrom other).1 :=
  adopt_settles (h.toSeated.syncFrom_settled other.camera) (ne_endless_of_ok (h.linkFrom_ok other))

theorem Current.linkFrom (h : v.Current image) (other : Viewer α) :
    (v.linkFrom other).1.Current image :=
  (h.linkFrom_settles other).current h

theorem Reachable.current (h : Reachable image v) : v.Current image := by
  induction h with
  | create h => exact create_current h
  | perform command _ hends ih => exact ih.perform command hends
  | linkFrom _ _ ih _ => exact ih.linkFrom _

/-- **The published pose is never stale.** After any commands and links, both handles of a viewer
find their nodes, the buffer's node shows the image it was created with, and the pose of the
camera's node is the camera's view, exactly. -/
theorem Reachable.pose_eq_viewPose (h : Reachable image v) :
    ∃ driven shown, v.stage.node? v.camera.node = some driven ∧
      v.stage.node? v.camera.buffer = some shown ∧ shown.buffer = some image ∧
      driven.pose = v.camera.viewPose := by
  obtain ⟨driven, hdriven, hpose⟩ := h.current.published
  obtain ⟨shown, hshown, hbuffer⟩ := h.current.shown
  exact ⟨driven, shown, hdriven, hshown, hbuffer, hpose⟩

/-- The case of a viewer that was zoomed in by the wheel, one step, away from the centre. -/
theorem pose_eq_viewPose_zoomed :
    ∃ (v : Viewer Float32) (image : ImageBuffer Float32), Reachable image v ∧
      v.camera.zoomPower = 1 ∧
      ∃ driven shown, v.stage.node? v.camera.node = some driven ∧
        v.stage.node? v.camera.buffer = some shown ∧ shown.buffer = some image ∧
        driven.pose = v.camera.viewPose := by
  have hrun : (match create ⟨200, 100⟩ Settings.default ⟨300, 100⟩ with
      | .ok v =>
        let after := v.perform (.handle (.mouseWheel 1 ⟨10, 20⟩))
        after.2.isOk && decide (after.1.camera.zoomPower = 1)
      | .error _ => false) = true := by
    decide +kernel
  split at hrun
  · rename_i v hv
    simp only [Bool.and_eq_true, decide_eq_true_eq] at hrun
    have hends : (v.perform (.handle (.mouseWheel 1 ⟨10, 20⟩))).2 ≠ .error .endless := by
      intro hstop
      rw [hstop] at hrun
      exact Bool.false_ne_true hrun.1
    have hreached := Reachable.perform _ (.create hv) hends
    exact ⟨_, _, hreached, hrun.2, Reachable.pose_eq_viewPose hreached⟩
  · cases hrun

end PanZoom.Viewer
