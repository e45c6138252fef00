import PanZoom.Proofs.Camera.Cases
import PanZoom.Proofs.Camera.Current

namespace PanZoom

variable {α β γ : Type} [Scalar α] {c d : Camera α} {stage stage' : Stage α}
  {image : ImageBuffer α}

/-- Nothing was changed, or a camera of the same two nodes has published its view. -/
inductive Camera.Settles (c : Camera α) (stage : Stage α) : Camera α → Stage α → Prop
  | unchanged : Settles c stage c stage
  | published {d : Camera α} : d.node = c.node → d.buffer = c.buffer →
      Settles c stage d (stage.update c.node (·.publish d.viewPose))

namespace Outcome

/-- If the operation ends at all, it has changed nothing or published its view. -/
def IsSettled (o : Outcome α β) (c : Camera α) (stage : Stage α) : Prop :=
  o.result ≠ .error .endless → c.Settles stage o.camera o.stage

theorem IsSettled.done (c : Camera α) (stage : Stage α) (b : β) :
    (done c stage b).IsSettled c stage :=
  fun _ => .unchanged

theorem IsSettled.stopped (c : Camera α) (stage : Stage α) (stop : Stop) :
    (stopped c stage stop : Outcome α β).IsSettled c stage :=
  fun _ => .unchanged

theorem IsSettled.answering {o : Outcome α β} (h : o.IsSettled c stage) (result : γ) :
    (o.answering result).IsSettled c stage := by
  intro hends
  unfold Outcome.answering andThen at hends ⊢
  cases hr : o.result with
  | ok b =>
    apply h
    rw [hr]
    rintro ⟨⟩
  | error stop =>
    apply h
    rw [hr] at hends ⊢
    rintro ⟨⟩
    exact hends rfl

end Outcome

namespace Camera

open Outcome

/-- A seated camera with the same nodes publishes its own view. -/
theorem Seated.publish_settled (h : d.Seated stage image) (hnode : d.node = c.node)
    (hbuffer : d.buffer = c.buffer) : (d.publish stage).IsSettled c stage := by
  intro _
  rw [h.publish, hnode]
  exact .published hnode hbuffer

/-- A fit that ends publishes, whatever was published before. -/
theorem Seated.fit_settled (h : d.Seated stage image) (hnode : d.node = c.node)
    (hbuffer : d.buffer = c.buffer) : (d.fit stage).IsSettled c stage := by
  obtain ⟨pose, hgeometry⟩ := h.bufferGeometry
  cases hpower : (d.fitting pose image).power? with
  | none =>
    rw [fit_of_power?_eq_none hgeometry hpower]
    exact fun hends => absurd rfl hends
  | some power =>
    rw [fit_of_power?_eq_some hgeometry hpower]
    exact Seated.publish_settled (h.of_nodes rfl rfl) hnode hbuffer

theorem Seated.recenter_settled (h : c.Seated stage image) :
    (c.recenter stage).IsSettled c stage :=
  Seated.fit_settled (d := { c with pan := ⟨0, 0⟩ }) (h.of_nodes rfl rfl) rfl rfl

theorem Seated.moveTo_settled (h : c.Seated stage image) (target : Point α) :
    (c.moveTo stage target).IsSettled c stage := by
  rcases c.moveTo_cases stage target with ⟨e, hmove⟩ | ⟨geometry, goal, -, hmove⟩ <;> rw [hmove]
  · exact .stopped c stage _
  · exact Seated.publish_settled (h.of_nodes rfl rfl) rfl rfl

theorem Seated.zoomAt_settled (h : c.Seated stage image) (anchor : Homogeneous α) (delta : α) :
    (c.zoomAt stage anchor delta).IsSettled c stage := by
  rcases c.zoomAt_cases stage anchor delta with
    ⟨result, hzoom⟩ | ⟨composite, power, node, -, -, -, hzoom⟩ <;> rw [hzoom]
  · exact fun _ => .unchanged
  · exact Seated.publish_settled (h.of_nodes rfl rfl) rfl rfl

theorem Seated.scroll_settled (h : c.Seated stage image) (delta : α) (canvas : Canvas α) :
    (c.scroll stage delta canvas).IsSettled c stage := by
  rcases c.scroll_cases stage delta canvas with hscroll | ⟨anchor, hscroll⟩ <;> rw [hscroll]
  · exact .done c stage ()
  · exact h.zoomAt_settled _ _

theorem Seated.keyPressed_settled (h : c.Seated stage image) (keyboard : Keyboard) :
    (c.keyPressed stage keyboard).IsSettled c stage := by
  rcases c.keyPressed_cases stage keyboard with
    ⟨response, hpress⟩ | ⟨step, hpress⟩ | hpress <;> rw [hpress]
  · exact .done c stage response
  · exact (h.zoomAt_settled _ _).answering _
  · exact h.recenter_settled.answering _

theorem Seated.tick_settled (h : c.Seated stage image) (keyboard : Keyboard) :
    (c.tick stage keyboard).IsSettled c stage := by
  rcases c.tick_cases stage keyboard with ⟨response, htick⟩ | ⟨pan, htick⟩ <;> rw [htick]
  · exact .done c stage response
  · apply IsSettled.answering
    exact Seated.publish_settled (h.of_nodes rfl rfl) rfl rfl

theorem Seated.drag_settled (h : c.Seated stage image) (way : Point α) :
    (c.drag stage way).IsSettled c stage :=
  Seated.publish_settled (h.of_nodes rfl rfl) rfl rfl

theorem Seated.syncFrom_settled (h : c.Seated stage image) (other : Camera α) :
    (c.syncFrom other stage).IsSettled c stage :=
  Seated.publish_settled (h.of_nodes rfl rfl) rfl rfl

theorem Seated.resize_settled (h : c.Seated stage image) (size : Size) :
    ((c.resize size).publish stage).IsSettled c stage :=
  Seated.publish_settled (h.of_nodes rfl rfl) rfl rfl

theorem Settles.current (h : c.Settles stage d stage') (hc : c.Current stage image) :
    d.Current stage' image := by
  cases h with
  | unchanged => exact hc
  | published hnode hbuffer =>
    have hseated : d.Seated stage image := hc.toSeated.of_nodes hnode hbuffer
    have hpublished := hseated.publish_current
    rw [hseated.publish, hnode] at hpublished
    exact hpublished (by rintro ⟨⟩)

theorem Settles.buffer (h : c.Settles stage d stage') : d.buffer = c.buffer := by
  cases h with
  | unchanged => rfl
  | published _ hbuffer => exact hbuffer

/-- No node but the camera's own is another. -/
theorem Settles.node?_of_ne (h : c.Settles stage d stage') {id : NodeId} (hid : id ≠ c.node) :
    stage'.node? id = stage.node? id := by
  cases h with
  | unchanged => rfl
  | published => exact stage.node?_update_of_ne _ hid

end Camera

end PanZoom
