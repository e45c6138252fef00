import PanZoom.Proofs.Camera.Bounds

/-!
# What a failing operation leaves behind

An operation that reports an error has not touched the stage. The camera is another matter: most
operations write their result to it before they look for the node that is to show it, and
recentring drops the pan before it looks for the buffer.

* `Camera.perform`: everything that a camera can be asked to do;
* `Outcome.Spares`: what an error leaves as it was. The lemmas after it say so of every operation;
* `Camera.Kind.Atomic`: the nodes that have to be on the stage for an operation to be all or
  nothing;
* `Camera.failure_changes_nothing_iff`: on a stage without those nodes it is not, for some camera.
-/

namespace PanZoom

variable {α β γ : Type} [Scalar α] {c d : Camera α} {stage : Stage α} {p q : Prop}

def Stage.Holds (s : Stage α) (id : NodeId) : Prop :=
  ∃ node, s.node? id = some node

/-- The handle reaches a node that shows an image. -/
def Stage.Shows (s : Stage α) (id : NodeId) : Prop :=
  ∃ node image, s.node? id = some node ∧ node.buffer = some image

namespace Outcome

def Failed (o : Outcome α β) : Prop :=
  ∃ e, o.result = .error (.failed e)

/-- If the operation reports an error, the stage is as it was, and so is the camera under the
condition. -/
def Spares (o : Outcome α β) (c : Camera α) (stage : Stage α) (condition : Prop) : Prop :=
  o.Failed → o.stage = stage ∧ (condition → o.camera = c)

theorem not_failed_done (b : β) : ¬(done c stage b).Failed := by
  rintro ⟨e, ⟨⟩⟩

theorem failed_stopped (e : CameraError) : (stopped c stage (.failed e) : Outcome α β).Failed :=
  ⟨e, rfl⟩

theorem failed_answering {o : Outcome α β} (result : γ) :
    (o.answering result).Failed ↔ o.Failed := by
  unfold Failed answering andThen
  cases o.result <;> simp [done, stopped]

theorem answering_stage_of_failed {o : Outcome α β} (result : γ) (h : o.Failed) :
    (o.answering result).stage = o.stage := by
  obtain ⟨e, he⟩ := h
  simp [answering, andThen, he, stopped]

theorem Spares.mono {o : Outcome α β} (h : o.Spares c stage p) (hpq : q → p) :
    o.Spares c stage q :=
  fun hfailed => ⟨(h hfailed).1, fun hq => (h hfailed).2 (hpq hq)⟩

theorem Spares.answering {o : Outcome α β} (h : o.Spares c stage p) (result : γ) :
    (o.answering result).Spares c stage p := by
  intro hfailed
  have hinner := (failed_answering result).mp hfailed
  rw [answering_stage_of_failed result hinner, answering_camera]
  exact h hinner

theorem done_spares {d : Camera α} {after : Stage α} (b : β) :
    (done d after b).Spares c stage p :=
  fun hfailed => absurd hfailed (not_failed_done b)

theorem stopped_spares (stop : Stop) : (stopped c stage stop : Outcome α β).Spares c stage p :=
  fun _ => ⟨rfl, fun _ => rfl⟩

end Outcome

namespace Camera

open Outcome

theorem publish_of_not_holds (h : ¬stage.Holds c.node) :
    c.publish stage = .stopped c stage (.failed (.cameraNodeGone c.node)) := by
  have hnone : stage.node? c.node = none := by
    rw [Option.eq_none_iff_forall_ne_some]
    exact fun node hnode => h ⟨node, hnode⟩
  simp [Camera.publish, hnone]

/-- Publishing fails only for want of the camera's node. -/
theorem failed_publish_iff : (c.publish stage).Failed ↔ ¬stage.Holds c.node := by
  constructor
  · rintro hfailed ⟨node, hnode⟩
    simp [Camera.publish, hnode, not_failed_done] at hfailed
  · intro hgone
    rw [publish_of_not_holds hgone]
    exact failed_stopped _

theorem publish_answering (result : γ) :
    ((c.publish stage).answering result).answering () = c.publish stage := by
  unfold Camera.publish
  split <;> rfl

theorem publish_spares : (c.publish stage).Spares d stage (stage.Holds c.node) := by
  intro hfailed
  have hgone := failed_publish_iff.mp hfailed
  rw [publish_of_not_holds hgone]
  exact ⟨rfl, fun hholds => absurd hholds hgone⟩

/-- The image is found exactly if the buffer's node is on the stage and shows one. -/
theorem bufferGeometry_eq_ok_iff :
    (∃ geometry, c.bufferGeometry stage = .ok geometry) ↔ stage.Shows c.buffer := by
  unfold bufferGeometry Stage.Shows
  cases hnode : stage.node? c.buffer with
  | none => simp
  | some node => cases hbuffer : node.buffer <;> simp [hbuffer]

/-- A fit that finds no image stops there. One that finds an image goes on for ever or publishes a
zoom power. -/
theorem fit_cases (c : Camera α) (stage : Stage α) :
    (¬stage.Shows c.buffer ∧ ∃ e, c.fit stage = .stopped c stage (.failed e)) ∨
    stage.Shows c.buffer ∧ (c.fit stage = .stopped c stage .endless ∨
      ∃ power, c.fit stage = { c with zoomPower := power }.publish stage) := by
  rw [← bufferGeometry_eq_ok_iff]
  cases hgeometry : c.bufferGeometry stage with
  | error e => exact .inl ⟨by rintro ⟨_, ⟨⟩⟩, e, by simp [Camera.fit, fittedPower, hgeometry]⟩
  | ok geometry =>
    refine .inr ⟨⟨geometry, rfl⟩, ?_⟩
    cases hpower : (c.fitting geometry.1 geometry.2).power? with
    | none => exact .inl (fit_of_power?_eq_none hgeometry hpower)
    | some power => exact .inr ⟨power, fit_of_power?_eq_some hgeometry hpower⟩

/-- A fit that fails did so before it changed the camera, or for want of the camera's node. -/
theorem fit_spares : (c.fit stage).Spares d stage
    ((stage.Shows c.buffer → stage.Holds c.node) ∧ (stage.Shows c.buffer ∨ c = d)) := by
  rcases fit_cases c stage with ⟨hhidden, e, hfit⟩ | ⟨hshown, hfit | ⟨power, hfit⟩⟩ <;> rw [hfit]
  · exact fun _ => ⟨rfl, fun h => h.2.resolve_left hhidden⟩
  · rintro ⟨e, ⟨⟩⟩
  · exact publish_spares.mono fun h => h.1 hshown

theorem fitTo_spares (size : Size) :
    (c.fitTo stage size).Spares c stage (stage.Holds c.node ∧ stage.Shows c.buffer) :=
  Spares.mono (fit_spares (c := c.resize size)) fun h => ⟨fun _ => h.1, .inl h.2⟩

theorem recenter_spares :
    (c.recenter stage).Spares c stage (stage.Holds c.node ∧ stage.Shows c.buffer) :=
  Spares.mono (fit_spares (c := { c with pan := ⟨0, 0⟩ })) fun h => ⟨fun _ => h.1, .inl h.2⟩

/-- Zooming looks for all it needs before it changes anything. -/
theorem zoomAt_spares (anchor : Homogeneous α) (delta : α) :
    (c.zoomAt stage anchor delta).Spares c stage True := by
  rcases c.zoomAt_cases stage anchor delta with
    ⟨result, hzoom⟩ | ⟨composite, power, node, -, -, hnode, hzoom⟩ <;> rw [hzoom]
  · exact fun _ => ⟨rfl, fun _ => rfl⟩
  · exact publish_spares.mono fun _ => ⟨node, hnode⟩

theorem moveTo_spares (target : Point α) :
    (c.moveTo stage target).Spares c stage (stage.Shows c.buffer → stage.Holds c.node) := by
  rcases c.moveTo_cases stage target with
    ⟨e, hmove⟩ | ⟨geometry, goal, hgeometry, hmove⟩ <;> rw [hmove]
  · exact stopped_spares _
  · exact publish_spares.mono fun h => h (bufferGeometry_eq_ok_iff.mp ⟨geometry, hgeometry⟩)

theorem scroll_spares (delta : α) (canvas : Canvas α) :
    (c.scroll stage delta canvas).Spares c stage True := by
  rcases c.scroll_cases stage delta canvas with hscroll | ⟨anchor, hscroll⟩ <;> rw [hscroll]
  · exact done_spares _
  · exact zoomAt_spares _ _

theorem keyPressed_spares (keyboard : Keyboard) :
    (c.keyPressed stage keyboard).Spares c stage (stage.Holds c.node ∧ stage.Shows c.buffer) := by
  rcases c.keyPressed_cases stage keyboard with
    ⟨response, hpress⟩ | ⟨step, hpress⟩ | hpress <;> rw [hpress]
  · exact done_spares response
  · exact ((zoomAt_spares _ _).answering _).mono fun _ => trivial
  · exact recenter_spares.answering _

theorem tick_spares (keyboard : Keyboard) :
    (c.tick stage keyboard).Spares c stage (stage.Holds c.node) := by
  rcases c.tick_cases stage keyboard with ⟨response, htick⟩ | ⟨pan, htick⟩ <;> rw [htick]
  · exact done_spares response
  · exact publish_spares.answering _

/-! ## All or nothing -/

/-- Everything that a camera can be asked to do. -/
inductive Operation (α : Type) [Scalar α] where
  | act (a : Act α)
  | syncFrom (other : Camera α)

def perform (c : Camera α) (stage : Stage α) : Operation α → Outcome α Unit
  | .act a => c.act stage a
  | .syncFrom other => c.syncFrom other stage

/-- Which operation it is, whatever its arguments. -/
inductive Kind where
  | fitTo
  | resize
  | zoomAt
  | fit
  | recenter
  | moveTo
  | scroll
  | keyPressed
  | tick
  | drag
  | syncFrom
  deriving DecidableEq, Repr

def Operation.kind : Operation α → Kind
  | .act (.fitTo _) => .fitTo
  | .act (.resize _) => .resize
  | .act (.zoomAt _ _) => .zoomAt
  | .act .fit => .fit
  | .act .recenter => .recenter
  | .act (.moveTo _) => .moveTo
  | .act (.scroll _ _) => .scroll
  | .act (.keyPressed _) => .keyPressed
  | .act (.tick _) => .tick
  | .act (.drag _) => .drag
  | .syncFrom _ => .syncFrom

/-- What has to be on the stage for an operation to be all or nothing: the node that the camera
drives, the image that it shows, both, or nothing. -/
def Kind.Atomic (driven shown : Prop) : Kind → Prop
  | .zoomAt | .scroll | .resize => True
  | .fit | .moveTo => shown → driven
  | .recenter | .keyPressed | .fitTo => driven ∧ shown
  | .tick | .drag | .syncFrom => driven

theorem perform_spares (op : Operation α) :
    (c.perform stage op).Spares c stage
      (op.kind.Atomic (stage.Holds c.node) (stage.Shows c.buffer)) := by
  cases op with
  | act a =>
    cases a with
    | fitTo size => exact fitTo_spares size
    | resize size => exact done_spares ()
    | zoomAt anchor delta => exact zoomAt_spares anchor delta
    | fit => exact fit_spares.mono fun h => ⟨h, .inr rfl⟩
    | recenter => exact recenter_spares
    | moveTo target => exact moveTo_spares target
    | scroll delta canvas => exact scroll_spares delta canvas
    | keyPressed keyboard => exact (keyPressed_spares keyboard).answering ()
    | tick keyboard => exact (tick_spares keyboard).answering ()
    | drag way => exact publish_spares
  | syncFrom other => exact publish_spares

/-- A fit changes nothing about the camera but the zoom power. -/
theorem fit_camera (c : Camera α) (stage : Stage α) :
    ∃ power, (c.fit stage).camera = { c with zoomPower := power } := by
  rcases fit_cases c stage with ⟨-, e, hfit⟩ | ⟨-, hfit | ⟨power, hfit⟩⟩ <;> rw [hfit]
  · exact ⟨c.zoomPower, rfl⟩
  · exact ⟨c.zoomPower, rfl⟩
  · exact ⟨power, publish_camera _ _⟩

/-- In an empty viewport the image is fitted at unit zoom. -/
theorem fit_of_isEmpty (hempty : c.viewport.isEmpty = true) (hshown : stage.Shows c.buffer) :
    c.fit stage = { c with zoomPower := 0 }.publish stage := by
  obtain ⟨geometry, hgeometry⟩ := bufferGeometry_eq_ok_iff.mpr hshown
  refine fit_of_power?_eq_some hgeometry ?_
  simp [Fitting.power?, Fitting.isDegenerate, fitting, hempty]

theorem failed_fit_of_isEmpty (hempty : c.viewport.isEmpty = true)
    (hmissing : ¬(stage.Holds c.node ∧ stage.Shows c.buffer)) : (c.fit stage).Failed := by
  by_cases hshown : stage.Shows c.buffer
  · rw [fit_of_isEmpty hempty hshown, failed_publish_iff]
    exact fun hdriven => hmissing ⟨hdriven, hshown⟩
  · rcases fit_cases c stage with ⟨-, e, hfit⟩ | ⟨hfound, -⟩
    · rw [hfit]
      exact failed_stopped e
    · exact absurd hfound hshown

/-- Centring the view changes nothing about the camera but the pan, and the new pan does not depend
on the old. -/
theorem moveTo_of_shows (hshown : stage.Shows c.buffer) (target : Point α) :
    ∃ goal, ∀ pan, { c with pan }.moveTo stage target = { c with pan := goal }.publish stage := by
  obtain ⟨⟨pose, image⟩, hgeometry⟩ := bufferGeometry_eq_ok_iff.mpr hshown
  have hsame (pan : Point α) : { c with pan }.bufferGeometry stage = .ok (pose, image) := hgeometry
  refine ⟨(c.moveTo stage target).camera.pan, fun pan => ?_⟩
  simp only [Camera.moveTo, hsame pan, hgeometry, publish_camera]
  rfl

/-! ## No less will do -/

namespace Kind

/-- Some camera with these nodes is changed by an operation of this kind that reports an error. -/
def Harms (kind : Kind) (stage : Stage Float32) (node buffer : NodeId) : Prop :=
  ∃ (c : Camera Float32) (op : Operation Float32), c.node = node ∧ c.buffer = buffer ∧
    op.kind = kind ∧ (c.perform stage op).Failed ∧ (c.perform stage op).camera ≠ c

def cameraAt (node buffer : NodeId) (pan : Point Float32) : Camera Float32 :=
  { ofNodes node buffer .default with pan }

/-- A key held together with the modifier of the default bindings. -/
def keyboardHolding (key : Key) : Keyboard :=
  ⟨[key], { Modifiers.released with ctrl := true }⟩

variable {c d : Camera Float32} {stage : Stage Float32} {node buffer : NodeId}

theorem cameraAt_ne {pan goal : Point Float32} (h : goal ≠ pan) :
    cameraAt node buffer goal ≠ cameraAt node buffer pan :=
  fun hsame => h (congrArg Camera.pan hsame)

theorem one_zero_ne_zero_zero : (⟨1, 0⟩ : Point Float32) ≠ ⟨0, 0⟩ := by
  with_unfolding_all decide

/-- An operation that publishes a changed camera does harm if the node to publish it on is gone. -/
theorem Harms.of_publish (op : Operation Float32) (hop : c.perform stage op = d.publish stage)
    (hgone : ¬stage.Holds d.node) (hne : d ≠ c) : op.kind.Harms stage c.node c.buffer := by
  refine ⟨c, op, rfl, rfl, rfl, ?_, ?_⟩
  · rw [hop]
    exact failed_publish_iff.mpr hgone
  · rwa [hop, publish_camera]

theorem drag_harms (h : ¬stage.Holds node) : Kind.drag.Harms stage node buffer := by
  have hway : (⟨0 + 1, 0 + 0⟩ : Point Float32) ≠ ⟨0, 0⟩ := by with_unfolding_all decide
  exact Harms.of_publish (c := cameraAt node buffer ⟨0, 0⟩) (.act (.drag ⟨1, 0⟩)) rfl h
    (cameraAt_ne hway)

theorem syncFrom_harms (h : ¬stage.Holds node) : Kind.syncFrom.Harms stage node buffer :=
  Harms.of_publish (c := cameraAt node buffer ⟨0, 0⟩) (.syncFrom (cameraAt node buffer ⟨1, 0⟩))
    rfl h (cameraAt_ne one_zero_ne_zero_zero)

/-- One frame with the left arrow held moves the image by a step. -/
theorem perform_tick_left (node buffer : NodeId) (stage : Stage Float32) :
    (cameraAt node buffer ⟨0, 0⟩).perform stage (.act (.tick (keyboardHolding .left))) =
      (cameraAt node buffer ⟨1, 0⟩).publish stage := by
  let residual : Point Float32 := (Transform.zooming (1 / Scalar.pow 1.1 0)).shift
  have hpan : (⟨0 - (-1 + residual.x), 0 - (0 + residual.y)⟩ : Point Float32) = ⟨1, 0⟩ := by
    with_unfolding_all decide
  have htick : (cameraAt node buffer ⟨0, 0⟩).tick stage (keyboardHolding .left) =
      ((cameraAt node buffer ⟨1, 0⟩).publish stage).answering Response.consumed :=
    congrArg (fun pan => ((cameraAt node buffer pan).publish stage).answering Response.consumed)
      hpan
  rw [perform, act, htick, publish_answering]

theorem tick_harms (h : ¬stage.Holds node) : Kind.tick.Harms stage node buffer :=
  Harms.of_publish (.act (.tick (keyboardHolding .left))) (perform_tick_left node buffer stage) h
    (cameraAt_ne one_zero_ne_zero_zero)

theorem fit_harms (hshown : stage.Shows buffer) (h : ¬stage.Holds node) :
    Kind.fit.Harms stage node buffer := by
  let c : Camera Float32 := { cameraAt node buffer ⟨0, 0⟩ with zoomPower := 1 }
  refine Harms.of_publish (c := c) (.act .fit) (fit_of_isEmpty rfl hshown) h fun hsame => ?_
  have hpower : (0 : Float32) = 1 := congrArg Camera.zoomPower hsame
  exact absurd hpower (by with_unfolding_all decide)

/-- The goal does not depend on the pan, so of two cameras that differ in it one is not there. -/
theorem moveTo_harms (hshown : stage.Shows buffer) (h : ¬stage.Holds node) :
    Kind.moveTo.Harms stage node buffer := by
  obtain ⟨goal, hgoal⟩ :=
    moveTo_of_shows (c := cameraAt node buffer ⟨0, 0⟩) hshown ⟨0, 0⟩
  have hharms (pan : Point Float32) (hpan : goal ≠ pan) : Kind.moveTo.Harms stage node buffer :=
    Harms.of_publish (c := cameraAt node buffer pan) (d := cameraAt node buffer goal)
      (.act (.moveTo ⟨0, 0⟩)) (hgoal pan) h (cameraAt_ne hpan)
  by_cases hthere : goal = ⟨1, 0⟩
  · exact hharms ⟨0, 0⟩ (hthere ▸ one_zero_ne_zero_zero)
  · exact hharms ⟨1, 0⟩ hthere

/-- Recentring drops the pan, whether or not it succeeds. -/
theorem recenter_camera_ne (stage : Stage Float32) (node buffer : NodeId) :
    ((cameraAt node buffer ⟨1, 0⟩).recenter stage).camera ≠ cameraAt node buffer ⟨1, 0⟩ := by
  intro hsame
  obtain ⟨power, hcamera⟩ := fit_camera (cameraAt node buffer ⟨0, 0⟩) stage
  have hpan : (⟨0, 0⟩ : Point Float32) = ⟨1, 0⟩ := congrArg Camera.pan (hcamera.symm.trans hsame)
  exact one_zero_ne_zero_zero hpan.symm

theorem recenter_harms (h : ¬(stage.Holds node ∧ stage.Shows buffer)) :
    Kind.recenter.Harms stage node buffer :=
  ⟨cameraAt node buffer ⟨1, 0⟩, .act .recenter, rfl, rfl, rfl, failed_fit_of_isEmpty rfl h,
    recenter_camera_ne stage node buffer⟩

theorem keyPressed_harms (h : ¬(stage.Holds node ∧ stage.Shows buffer)) :
    Kind.keyPressed.Harms stage node buffer := by
  have hkey : (cameraAt node buffer ⟨1, 0⟩).keyPressed stage (keyboardHolding .home) =
      ((cameraAt node buffer ⟨1, 0⟩).recenter stage).answering .consumed := rfl
  refine ⟨cameraAt node buffer ⟨1, 0⟩, .act (.keyPressed (keyboardHolding .home)), rfl, rfl, rfl,
    ?_, ?_⟩
  · rw [perform, act, failed_answering, hkey, failed_answering]
    exact failed_fit_of_isEmpty rfl h
  · rw [perform, act, answering_camera, hkey, answering_camera]
    exact recenter_camera_ne stage node buffer

theorem fitTo_harms (h : ¬(stage.Holds node ∧ stage.Shows buffer)) :
    Kind.fitTo.Harms stage node buffer := by
  let c := cameraAt node buffer ⟨0, 0⟩
  refine ⟨c, .act (.fitTo ⟨0, 1⟩), rfl, rfl, rfl,
    failed_fit_of_isEmpty (c := c.resize ⟨0, 1⟩) rfl h, fun hsame => ?_⟩
  obtain ⟨power, hcamera⟩ := fit_camera (c.resize ⟨0, 1⟩) stage
  have hsize : (⟨0, 1⟩ : Size) = ⟨0, 0⟩ := congrArg Camera.viewport (hcamera.symm.trans hsame)
  exact absurd hsize (by decide)

/-- Without the nodes that make an operation all or nothing, it is not. -/
theorem harms_of_not_atomic (kind : Kind)
    (h : ¬kind.Atomic (stage.Holds node) (stage.Shows buffer)) : kind.Harms stage node buffer := by
  cases kind with
  | zoomAt | scroll | resize => exact absurd trivial h
  | fit =>
    obtain ⟨hshown, hgone⟩ := Classical.not_imp.mp h
    exact fit_harms hshown hgone
  | moveTo =>
    obtain ⟨hshown, hgone⟩ := Classical.not_imp.mp h
    exact moveTo_harms hshown hgone
  | recenter => exact recenter_harms h
  | keyPressed => exact keyPressed_harms h
  | fitTo => exact fitTo_harms h
  | tick => exact tick_harms h
  | drag => exact drag_harms h
  | syncFrom => exact syncFrom_harms h

end Kind

/-- An operation that reports an error never touches the stage. It never touches the camera either,
whatever the camera and the arguments, exactly if the nodes that its kind needs are there. -/
theorem failure_changes_nothing_iff (stage : Stage Float32) :
    (∀ (c : Camera Float32) (op : Operation Float32),
      (c.perform stage op).Failed → (c.perform stage op).stage = stage) ∧
    ∀ (node buffer : NodeId) (kind : Kind),
      (∀ (c : Camera Float32) (op : Operation Float32), c.node = node → c.buffer = buffer →
        op.kind = kind → (c.perform stage op).Failed → (c.perform stage op).camera = c) ↔
      kind.Atomic (stage.Holds node) (stage.Shows buffer) := by
  refine ⟨fun c op hfailed => (perform_spares op hfailed).1, fun node buffer kind => ?_⟩
  constructor
  · intro hspared
    by_contra hmissing
    obtain ⟨c, op, hnode, hbuffer, hkind, hfailed, hchanged⟩ := kind.harms_of_not_atomic hmissing
    exact hchanged (hspared c op hnode hbuffer hkind hfailed)
  · rintro hatomic c op rfl rfl rfl hfailed
    exact (perform_spares op hfailed).2 hatomic

def dragged : Outcome Float32 Unit :=
  (ofNodes ⟨1, 0⟩ ⟨0, 0⟩ .default).drag (stageOf ⟨10, 10⟩) ⟨3, 4⟩

/-- The stage after the drag, with the buffer's node taken away. -/
def bufferless : Stage Float32 :=
  ((dragged.stage.remove ⟨0, 0⟩).map Prod.snd).getD .empty

/-- Recentring in vain drops the pan all the same, and the camera's node, which is still on the
stage, goes on showing the view from before. -/
theorem recenter_in_vain :
    (dragged.camera.recenter bufferless).result = .error (.failed (.bufferNodeGone ⟨0, 0⟩)) ∧
    dragged.camera.pan = ⟨3, 4⟩ ∧ (dragged.camera.recenter bufferless).camera.pan = ⟨0, 0⟩ ∧
    (bufferless.node? ⟨1, 0⟩).map Node.pose = some dragged.camera.viewPose ∧
    dragged.camera.viewPose ≠ (dragged.camera.recenter bufferless).camera.viewPose := by
  decide +kernel

end Camera

end PanZoom
