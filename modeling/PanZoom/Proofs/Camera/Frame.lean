import PanZoom.Proofs.Camera.Failure
import PanZoom.Proofs.Exact.Anchor

namespace PanZoom

variable {α β γ : Type} [Scalar α] {c : Camera α} {stage : Stage α}

/-- Nothing but the pan, the zoom power and the camera's own node was changed. -/
structure Outcome.Confined (o : Outcome α β) (c : Camera α) (stage : Stage α) : Prop where
  camera : o.camera = { c with pan := o.camera.pan, zoomPower := o.camera.zoomPower }
  others : ∀ id, id ≠ c.node → o.stage.node? id = stage.node? id

namespace Outcome.Confined

theorem projection {o : Outcome α β} (h : o.Confined c stage) :
    o.camera.projection = c.projection := by
  rw [h.camera]

theorem node {o : Outcome α β} (h : o.Confined c stage) : o.camera.node = c.node := by
  rw [h.camera]

theorem buffer {o : Outcome α β} (h : o.Confined c stage) : o.camera.buffer = c.buffer := by
  rw [h.camera]

theorem andThen {o : Outcome α β} {next : Camera α → Stage α → β → Outcome α γ}
    (h : o.Confined c stage) (hnext : ∀ c stage b, (next c stage b).Confined c stage) :
    (o.andThen next).Confined c stage := by
  unfold Outcome.andThen
  split
  · rename_i b _
    obtain ⟨hcamera, hothers⟩ := hnext o.camera o.stage b
    constructor
    · rw [hcamera, h.camera]
    · intro id hid
      rw [hothers id (by rwa [h.node]), h.others id hid]
  · exact ⟨h.camera, h.others⟩

end Outcome.Confined

/-- The camera was only panned and zoomed, and the stage is as it was or a pose was published on the
camera's node. -/
structure Outcome.Moves (o : Outcome α β) (c : Camera α) (stage : Stage α) : Prop where
  camera : o.camera = { c with pan := o.camera.pan, zoomPower := o.camera.zoomPower }
  stage : o.stage = stage ∨ ∃ pose, o.stage = stage.update c.node (·.publish pose)

namespace Outcome.Moves

theorem done (c : Camera α) (stage : Stage α) (b : β) : (done c stage b).Moves c stage :=
  ⟨rfl, .inl rfl⟩

theorem stopped (c : Camera α) (stage : Stage α) (stop : Stop) :
    (stopped c stage stop : Outcome α β).Moves c stage :=
  ⟨rfl, .inl rfl⟩

theorem answering {o : Outcome α β} (h : o.Moves c stage) (result : γ) :
    (o.answering result).Moves c stage := by
  unfold Outcome.answering Outcome.andThen
  split <;> exact ⟨h.camera, h.stage⟩

theorem confined {o : Outcome α β} (h : o.Moves c stage) : o.Confined c stage := by
  refine ⟨h.camera, fun id hid => ?_⟩
  rcases h.stage with hsame | ⟨pose, hpublished⟩
  · rw [hsame]
  · rw [hpublished]
    exact stage.node?_update_of_ne _ hid

end Outcome.Moves

namespace Camera

open Outcome

theorem publish_moved_moves {pan : Point α} {power : α} :
    ({ c with pan, zoomPower := power }.publish stage).Moves c stage := by
  unfold Camera.publish
  split
  · exact ⟨rfl, .inl rfl⟩
  · exact ⟨rfl, .inr ⟨_, rfl⟩⟩

theorem publish_moves : (c.publish stage).Moves c stage :=
  publish_moved_moves (c := c)

theorem fit_moves : (c.fit stage).Moves c stage := by
  unfold Camera.fit
  split
  · exact .stopped c stage _
  · exact publish_moved_moves

theorem recenter_moves : (c.recenter stage).Moves c stage := by
  have hfit : ({ c with pan := ⟨0, 0⟩ }.fit stage).Moves { c with pan := ⟨0, 0⟩ } stage :=
    fit_moves
  exact ⟨hfit.camera, hfit.stage⟩

theorem zoomAt_moves (anchor : Homogeneous α) (delta : α) :
    (c.zoomAt stage anchor delta).Moves c stage := by
  rcases c.zoomAt_cases stage anchor delta with
    ⟨result, hzoom⟩ | ⟨composite, power, node, -, -, -, hzoom⟩ <;> rw [hzoom]
  · exact ⟨rfl, .inl rfl⟩
  · exact publish_moved_moves

theorem moveTo_moves (target : Point α) : (c.moveTo stage target).Moves c stage := by
  rcases c.moveTo_cases stage target with ⟨e, hmove⟩ | ⟨geometry, goal, -, hmove⟩ <;> rw [hmove]
  · exact .stopped c stage _
  · exact publish_moved_moves

theorem scroll_moves (delta : α) (canvas : Canvas α) :
    (c.scroll stage delta canvas).Moves c stage := by
  rcases c.scroll_cases stage delta canvas with hscroll | ⟨anchor, hscroll⟩ <;> rw [hscroll]
  · exact .done c stage ()
  · exact zoomAt_moves _ _

theorem keyPressed_moves (keyboard : Keyboard) :
    (c.keyPressed stage keyboard).Moves c stage := by
  rcases c.keyPressed_cases stage keyboard with
    ⟨response, hpress⟩ | ⟨step, hpress⟩ | hpress <;> rw [hpress]
  · exact .done c stage response
  · exact (zoomAt_moves _ _).answering _
  · exact recenter_moves.answering _

theorem tick_moves (keyboard : Keyboard) : (c.tick stage keyboard).Moves c stage := by
  rcases c.tick_cases stage keyboard with ⟨response, htick⟩ | ⟨pan, htick⟩ <;> rw [htick]
  · exact .done c stage response
  · exact publish_moved_moves.answering _

theorem drag_moves (way : Point α) : (c.drag stage way).Moves c stage :=
  publish_moved_moves

/-- What is asked of a camera is done by it or by its resized self. -/
theorem act_moves (c : Camera α) (stage : Stage α) (a : Act α) :
    (c.act stage a).Moves c stage ∨ ∃ size, (c.act stage a).Moves (c.resize size) stage := by
  cases a with
  | fitTo size => exact .inr ⟨size, fit_moves⟩
  | resize size => exact .inr ⟨size, .done (c.resize size) stage ()⟩
  | zoomAt anchor delta => exact .inl (zoomAt_moves anchor delta)
  | fit => exact .inl fit_moves
  | recenter => exact .inl recenter_moves
  | moveTo target => exact .inl (moveTo_moves target)
  | scroll delta canvas => exact .inl (scroll_moves delta canvas)
  | keyPressed keyboard => exact .inl ((keyPressed_moves keyboard).answering ())
  | tick keyboard => exact .inl ((tick_moves keyboard).answering ())
  | drag way => exact .inl (drag_moves way)

/-- Only a resize gives a camera another projection. -/
theorem act_projection (c : Camera α) (stage : Stage α) (a : Act α) :
    (c.act stage a).camera.projection = c.projection ∨
      ∃ size, (c.act stage a).camera.projection = (c.resize size).projection := by
  rcases c.act_moves stage a with hmoves | ⟨size, hmoves⟩
  · exact .inl hmoves.confined.projection
  · exact .inr ⟨size, hmoves.confined.projection⟩

theorem IsProjected.resize (h : c.IsProjected) (size : Size) : (c.resize size).IsProjected := by
  by_cases hsize : size.isEmpty = true
  · have hsame : (c.resize size).projection = c.projection := if_pos hsize
    unfold IsProjected
    rw [hsame]
    exact h
  · exact .inr ⟨size, Bool.eq_false_of_not_eq_true hsize, if_neg hsize⟩

/-- A camera with the projection of one that is projected is so itself. -/
theorem IsProjected.of_projection_eq {d : Camera α} (h : c.IsProjected)
    (hsame : d.projection = c.projection) : d.IsProjected := by
  unfold IsProjected
  rw [hsame]
  exact h

theorem Reachable.isProjected (h : c.Reachable) : c.IsProjected := by
  induction h with
  | start => exact .inl rfl
  | @act c stage a _ _ ih =>
    rcases act_projection c stage a with hsame | ⟨size, hsame⟩
    · exact ih.of_projection_eq hsame
    · exact (ih.resize size).of_projection_eq hsame
  | @syncFrom c other stage _ _ _ ih =>
    exact ih.of_projection_eq (by rw [Camera.syncFrom, publish_camera])

end Camera

end PanZoom
