import PanZoom.Proofs.Camera.Success
import PanZoom.Proofs.Viewer.Frame
import PanZoom.Proofs.Viewer.Run

/-!
# A viewer never fails

Whatever the image, the settings and the arguments, undefined and infinite numbers included, a
viewer does what it is asked to, if only its searches for a fit end:

* `Viewer.create_answers`: it can be created;
* `Viewer.Sound`: the view is current, the projection is that of a viewport and the image was only
  turned. Every command leaves it so;
* `Viewer.Sound.perform_answers`: a sound viewer fails at no command;
* `Viewer.never_fails`: hence no reachable viewer does.
-/

namespace PanZoom.Viewer

open Camera Outcome Precision

variable {β : Type} {v : Viewer Float32} {image : ImageBuffer Float32} {node : Node Float32}

/-- The view is current, and both matrices that a command inverts can be inverted. -/
structure Sound (v : Viewer Float32) (image : ImageBuffer Float32) : Prop where
  current : v.Current image
  invertible : v.camera.Invertible v.stage

/-- A command that hands the camera an operation on its own node keeps the matrices. -/
theorem Sound.adopt {o : Outcome Float32 β} (h : v.Sound image)
    (ho : o.Confined v.camera v.stage) : (v.adopt o).1.camera.Invertible (v.adopt o).1.stage :=
  h.invertible.of_confined h.current.distinct ho

theorem create_sound {settings : Settings Float32} {size : Size}
    (h : create image settings size = .ok v) : v.Sound image := by
  refine ⟨create_current h, ?_⟩
  let c : Camera Float32 := (ofNodes ⟨1, 0⟩ ⟨0, 0⟩ settings).resize size
  have hstart : c.Invertible (opening image) :=
    ⟨IsProjected.resize (.inl rfl) size, .ofBuffer image, 0, rfl, rfl⟩
  obtain ⟨o, hconfined, rfl⟩ := create_confined h
  exact hstart.of_confined (seated_opening image settings).distinct hconfined

theorem Sound.handle (h : v.Sound image) (event : Event Float32) :
    (v.handle event).1.camera.Invertible (v.handle event).1.stage := by
  have hconfined := (v.handle_asks event).confined
  cases hsize : event.size? with
  | none =>
    rw [hsize] at hconfined
    exact h.adopt hconfined
  | some size =>
    rw [hsize] at hconfined
    have hresized : (v.camera.resize size).Invertible v.stage :=
      ⟨h.invertible.projected.resize size, h.invertible.posed⟩
    exact hresized.of_confined h.current.distinct hconfined

/-- A turn of the image and the stage after it. -/
theorem Sound.turn (h : v.Sound image) {turns : Int} {node : Node Float32} {step : Fin 4}
    (hnode : v.stage.node? v.camera.buffer = some node)
    (hturn : ∀ k, .quarterTurns turns * turned k = turned (k + step)) :
    v.camera.Invertible
      (v.stage.update v.camera.buffer (·.publish (.quarterTurns turns * node.pose))) := by
  obtain ⟨posed, k, hposed, hpose⟩ := h.invertible.posed
  have hsame : node = posed := Option.some_inj.mp (hnode.symm.trans hposed)
  refine ⟨h.invertible.projected, posed.publish (turned (k + step)), k + step, ?_, rfl⟩
  rw [Stage.node?_update_self, hnode, Option.map_some, hsame, hpose, hturn]

theorem Sound.rotate (h : v.Sound image) {turns : Int} {step : Fin 4}
    (hturn : ∀ k, .quarterTurns turns * turned k = turned (k + step)) :
    (v.rotate turns).1.camera.Invertible (v.rotate turns).1.stage := by
  rcases v.rotate_cases turns with ⟨e, hstays⟩ | ⟨node, center, hnode, hturns⟩
  · rw [hstays]
    exact h.invertible
  · rw [hturns]
    exact (h.turn hnode hturn).of_confined h.current.distinct (v.turning_confined turns node center)

theorem Sound.takeRedraw (h : v.Sound image) :
    v.takeRedraw.1.camera.Invertible v.takeRedraw.1.stage := by
  obtain ⟨node, k, hnode, hpose⟩ := h.invertible.posed
  refine ⟨h.invertible.projected, { node with redraw := false }, k, ?_, hpose⟩
  have hother := v.stage.node?_update_of_ne ({ · with redraw := false }) h.current.distinct.symm
  show ((v.stage.update v.camera.node _).update v.camera.buffer _).node? v.camera.buffer = _
  rw [Stage.node?_update_self, hother, hnode, Option.map_some]

theorem Sound.perform (h : v.Sound image) (command : Command Float32)
    (hends : (v.perform command).2 ≠ .error .endless) : (v.perform command).1.Sound image := by
  refine ⟨h.current.perform command hends, ?_⟩
  cases command with
  | handle event => exact h.handle event
  | tick => exact h.adopt (tick_moves _).confined
  | goTo target => exact h.adopt (moveTo_moves _).confined
  | recenter => exact h.adopt recenter_moves.confined
  | rotateClockwise => exact h.rotate quarterTurn_back_turned
  | rotateCounterclockwise => exact h.rotate quarterTurn_turned
  | takeRedraw => exact h.takeRedraw

theorem Sound.linkFrom (h : v.Sound image) {other : Viewer Float32} {shown : ImageBuffer Float32}
    (hother : other.Sound shown) : (v.linkFrom other).1.Sound image := by
  let linked : Camera Float32 :=
    { other.camera with node := v.camera.node, buffer := v.camera.buffer }
  have hlinked : linked.Invertible v.stage := ⟨hother.invertible.projected, h.invertible.posed⟩
  exact ⟨h.current.linkFrom other, hlinked.of_confined h.current.distinct publish_moves.confined⟩

theorem Reachable.sound (h : Reachable image v) : v.Sound image := by
  induction h with
  | create h => exact create_sound h
  | perform command _ hends ih => exact ih.perform command hends
  | linkFrom _ _ ih ihother => exact ih.linkFrom ihother

/-! ## What every command answers -/

/-- A viewer can be created, if the search for a fit to the canvas ends. -/
theorem create_answers (image : ImageBuffer Float32) (settings : Settings Float32) (size : Size) :
    ((ofNodes ⟨1, 0⟩ ⟨0, 0⟩ settings).resize size).Answers .identity image
      (create image settings size) := by
  have hseated : ((ofNodes ⟨1, 0⟩ ⟨0, 0⟩ settings).resize size).Seated (opening image) image :=
    (seated_opening image settings).of_nodes rfl rfl
  rw [create_eq]
  dsimp only
  rcases hseated.fit_answers rfl with ⟨⟨⟩, hok⟩ | ⟨hstop, hendless⟩
  · have hfitted : ((ofNodes ⟨1, 0⟩ ⟨0, 0⟩ settings).fitTo (opening image) size).result = .ok () :=
      hok
    rw [hfitted]
    exact .ok rfl
  · have hfitted : ((ofNodes ⟨1, 0⟩ ⟨0, 0⟩ settings).fitTo (opening image) size).result =
        .error .endless := hstop
    rw [hfitted]
    exact .inr ⟨rfl, hendless⟩

/-- With settings whose greatest power a step of one can reach, a viewer can always be created. -/
theorem create_ok (image : ImageBuffer Float32) {settings : Settings Float32}
    (h : toRat settings.maxPower ≤ 2 ^ 24) (size : Size) :
    ∃ v, create image settings size = .ok v := by
  rcases create_answers image settings size with hok | ⟨-, hendless⟩
  · exact hok
  · exact (hendless (Fitting.searchEnds_of_maxPower_le rfl h)).elim

theorem Asks.answers {size? : Option Size} {o : Outcome Float32 Response} (ho : v.Asks size? o)
    (h : v.Sound image) (hnode : v.stage.node? v.camera.buffer = some node) :
    v.camera.Answers node.pose image o.result := by
  have hseated : v.camera.Seated v.stage image := h.current.toSeated
  have hprojected := h.invertible.projected
  cases ho with
  | nothing response => exact .ok rfl
  | resize size =>
    refine Answers.answering (Seated.publish_answers ?_) _
    exact hseated.of_nodes rfl rfl
  | drag way => exact (hseated.drag_answers way).answering _
  | scroll delta canvas => exact (hseated.scroll_answers hprojected delta canvas).answering _
  | keys keyboard =>
    exact hseated.keyPressed_answers hprojected (hseated.bufferGeometry_of_node hnode) keyboard

/-- A turn needs the centred point before it and a fit after it. -/
theorem Sound.rotate_answers (h : v.Sound image)
    (hnode : v.stage.node? v.camera.buffer = some node) (turns : Int) :
    v.camera.Answers (.quarterTurns turns * node.pose) image (v.rotate turns).2 := by
  obtain ⟨center, hcenter⟩ := h.invertible.exists_center h.current.toSeated
  rw [rotate_of_center turns hcenter hnode]
  have hturned := h.current.update_buffer
    (f := (·.publish (Transform.quarterTurns turns * node.pose))) fun _ => rfl
  have hgeometry := hturned.bufferGeometry_of_node (by rw [Stage.node?_update_self, hnode]; rfl)
  refine Answers.andThen (hturned.fit_answers hgeometry) ?_
  intro _ hok
  have hfitted := hturned.fit_current (by rw [hok]; rintro ⟨⟩)
  exact hfitted.moveTo_answers _

theorem Sound.handle_answers (h : v.Sound image)
    (hnode : v.stage.node? v.camera.buffer = some node) (event : Event Float32) :
    v.camera.Answers node.pose image (v.handle event).2 :=
  (v.handle_asks event).answers h hnode

theorem Sound.tick_answers (h : v.Sound image) (pose : Transform Float32) :
    v.camera.Answers pose image v.tick.2 :=
  Seated.tick_answers h.current.toSeated _

/-- A sound viewer fails at no command. -/
theorem Sound.perform_answers (h : v.Sound image)
    (hnode : v.stage.node? v.camera.buffer = some node) (command : Command Float32) :
    v.camera.Answers (command.fittedPose node.pose) image (v.perform command).2 := by
  have hseated : v.camera.Seated v.stage image := h.current.toSeated
  cases command with
  | handle event => exact (h.handle_answers hnode event).map _
  | tick => exact (h.tick_answers node.pose).map _
  | goTo target => exact hseated.moveTo_answers _
  | recenter => exact hseated.recenter_answers (hseated.bufferGeometry_of_node hnode)
  | rotateClockwise => exact h.rotate_answers hnode (-1)
  | rotateCounterclockwise => exact h.rotate_answers hnode 1
  | takeRedraw => exact .ok rfl

/-- With settings whose greatest power a step of one can reach, every command ends. -/
theorem Sound.perform_ends (h : v.Sound image)
    (hpower : toRat v.camera.settings.maxPower ≤ 2 ^ 24) (command : Command Float32) :
    (v.perform command).2 ≠ .error .endless := by
  obtain ⟨node, hnode, -⟩ := h.current.shown
  rcases h.perform_answers hnode command with ⟨_, hok⟩ | ⟨-, hendless⟩
  · rw [hok]
    rintro ⟨⟩
  · exact (hendless (Fitting.searchEnds_of_maxPower_le rfl hpower)).elim

/-- With such settings a new viewer can be given any commands, one after another. -/
theorem exists_run {settings : Settings Float32} {size : Size}
    (hv : create image settings size = .ok v) (hpower : toRat settings.maxPower ≤ 2 ^ 24)
    (commands : List (Command Float32)) :
    ∃ w, v.Run (commands.map .command) w ∧ w.camera.settings = settings := by
  induction commands using List.reverseRecOn with
  | nil => exact ⟨v, .start, (create_moved hv).1.settings⟩
  | append_singleton commands command ih =>
    obtain ⟨w, hrun, hsettings⟩ := ih
    have hsound := (hrun.reachable (.create hv)).sound
    have hends := hsound.perform_ends (hsettings ▸ hpower) command
    have hmoved := (w.perform_moved command).settings
    rw [Camera.resize?_settings, hsettings] at hmoved
    rw [List.map_append]
    exact ⟨_, .act (.command command) hrun (.command command hends), hmoved⟩

/-- Nothing that the viewer can be asked to do fails, and both matrices can be inverted. -/
structure NeverFails (v : Viewer Float32) (image : ImageBuffer Float32) : Prop where
  perform : ∀ node, v.stage.node? v.camera.buffer = some node → ∀ command,
    v.camera.Answers (command.fittedPose node.pose) image (v.perform command).2
  linkFrom : ∀ other : Viewer Float32, (v.linkFrom other).2 = .ok ()
  projection : ∃ n, v.camera.projection.inverse? = some n
  pose : ∃ node n, v.stage.node? v.camera.buffer = some node ∧ node.pose.inverse? = some n

/-- **A viewer never fails.** For every image, every settings and every canvas, creating a viewer
succeeds unless its search for a fit never ends, and of every viewer that commands and links can
lead to, no command and no link fails, but for a command whose search for a fit never ends. That
search is for the image in the pose it has, or the one that the command turns it to. The projection
and the pose of the image can always be inverted. -/
theorem never_fails (image : ImageBuffer Float32) :
    (∀ (settings : Settings Float32) (size : Size),
      ((ofNodes ⟨1, 0⟩ ⟨0, 0⟩ settings).resize size).Answers .identity image
        (create image settings size)) ∧
    ∀ v, Reachable image v → v.NeverFails image := by
  refine ⟨create_answers image, ?_⟩
  intro v hreachable
  have h := hreachable.sound
  obtain ⟨node, k, hnode, hpose⟩ := h.invertible.posed
  obtain ⟨n, hinverse⟩ := Option.isSome_iff_exists.mp (isSome_inverse?_turned k)
  exact ⟨fun _ => h.perform_answers, h.current.linkFrom_ok,
    h.invertible.projected.exists_inverse?, node, n, hnode, hpose ▸ hinverse⟩

/-- The case of an image of undefined width and infinite height. With the default settings every
search for a fit ends. -/
theorem never_fails_undefined :
    let image : ImageBuffer Float32 := ⟨.ofBits 0x7fc00000, .ofBits 0x7f800000⟩
    ∃ v, create image .default ⟨300, 100⟩ = .ok v ∧ v.NeverFails image := by
  intro image
  obtain ⟨v, hv⟩ := create_ok image maxPower_default_le ⟨300, 100⟩
  exact ⟨v, hv, (never_fails image).2 v (.create hv)⟩

end PanZoom.Viewer
