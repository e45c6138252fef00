import PanZoom.Camera.Fit
import PanZoom.Proofs.Scene.Update

/-!
# The published view is current

A camera changes its stage by publishing its view and in no other way, so between operations its
node carries the view of its present settings, pan and zoom power:

* `Camera.Seated`: what publishing needs, and no operation can lose;
* `Camera.Current`: the published pose is the camera's view;
* `Outcome.IsCurrent`: an operation that ends leaves its camera current. Publishing and fitting do,
  whatever was published before. A fit that never ends leaves nothing.
-/

namespace PanZoom

variable {α β γ : Type} [Scalar α] {c d : Camera α} {stage : Stage α} {image : ImageBuffer α}

namespace Camera

/-- The camera drives one live node and looks at another, which shows the image. -/
structure Seated (c : Camera α) (stage : Stage α) (image : ImageBuffer α) : Prop where
  distinct : c.node ≠ c.buffer
  driven : ∃ node, stage.node? c.node = some node
  shown : ∃ node, stage.node? c.buffer = some node ∧ node.buffer = some image

/-- The pose of the camera's node is the camera's view. -/
structure Current (c : Camera α) (stage : Stage α) (image : ImageBuffer α) : Prop
    extends Seated c stage image where
  published : ∃ node, stage.node? c.node = some node ∧ node.pose = c.viewPose

/-- Only the two handles matter. -/
theorem Seated.of_nodes (h : c.Seated stage image) (hnode : d.node = c.node)
    (hbuffer : d.buffer = c.buffer) : d.Seated stage image :=
  ⟨by rw [hnode, hbuffer]; exact h.distinct, hnode ▸ h.driven, hbuffer ▸ h.shown⟩

theorem Seated.bufferGeometry_of_node {node : Node α} (h : c.Seated stage image)
    (hnode : stage.node? c.buffer = some node) :
    c.bufferGeometry stage = .ok (node.pose, image) := by
  obtain ⟨shown, hshown, hbuffer⟩ := h.shown
  obtain rfl : shown = node := Option.some_inj.mp (hshown.symm.trans hnode)
  simp only [Camera.bufferGeometry, hnode, hbuffer]

theorem Seated.bufferGeometry (h : c.Seated stage image) :
    ∃ pose, c.bufferGeometry stage = .ok (pose, image) := by
  obtain ⟨node, hnode, -⟩ := h.shown
  exact ⟨node.pose, h.bufferGeometry_of_node hnode⟩

/-- Changing the buffer's node without taking its image away leaves the camera current. -/
theorem Current.update_buffer {f : Node α → Node α} (h : c.Current stage image)
    (hf : ∀ node, (f node).buffer = node.buffer) : c.Current (stage.update c.buffer f) image := by
  obtain ⟨node, hnode, hbuffer⟩ := h.shown
  obtain ⟨driven, hdriven, hpose⟩ := h.published
  have hsame := stage.node?_update_of_ne f h.distinct
  refine ⟨⟨h.distinct, ⟨driven, by rw [hsame, hdriven]⟩, f node, ?_, by rw [hf, hbuffer]⟩,
    driven, by rw [hsame, hdriven], hpose⟩
  rw [Stage.node?_update_self, hnode, Option.map_some]

/-- Changing the camera's node without moving it leaves the camera current. -/
theorem Current.update_node {f : Node α → Node α} (h : c.Current stage image)
    (hf : ∀ node, (f node).pose = node.pose) : c.Current (stage.update c.node f) image := by
  obtain ⟨node, hnode, hbuffer⟩ := h.shown
  obtain ⟨driven, hdriven, hpose⟩ := h.published
  have hself : (stage.update c.node f).node? c.node = some (f driven) := by
    rw [Stage.node?_update_self, hdriven, Option.map_some]
  refine ⟨⟨h.distinct, ⟨f driven, hself⟩, node, ?_, hbuffer⟩, f driven, hself, by rw [hf, hpose]⟩
  rw [stage.node?_update_of_ne f h.distinct.symm, hnode]

end Camera

namespace Outcome

/-- If the operation ends at all, its camera is current afterwards. -/
def IsCurrent (o : Outcome α β) (image : ImageBuffer α) : Prop :=
  o.result ≠ .error .endless → o.camera.Current o.stage image

theorem IsCurrent.of_current {o : Outcome α β} (h : o.camera.Current o.stage image) :
    o.IsCurrent image :=
  fun _ => h

theorem IsCurrent.andThen {o : Outcome α β} {next : Camera α → Stage α → β → Outcome α γ}
    (h : o.IsCurrent image)
    (hnext : ∀ c stage b, c.Current stage image → (next c stage b).IsCurrent image) :
    (o.andThen next).IsCurrent image := by
  intro hends
  unfold Outcome.andThen at hends ⊢
  cases hr : o.result with
  | ok b =>
    simp only [hr] at hends
    exact hnext _ _ b (h (by rw [hr]; rintro ⟨⟩)) hends
  | error stop =>
    simp only [hr, stopped] at hends
    exact h (by rw [hr]; exact fun e => hends (by injection e with e; rw [e]))

end Outcome

namespace Camera

open Outcome

/-- A seated camera publishes its view, whatever was published before. -/
theorem Seated.publish (h : c.Seated stage image) :
    c.publish stage = .done c (stage.update c.node (·.publish c.viewPose)) () := by
  obtain ⟨node, hnode⟩ := h.driven
  simp [Camera.publish, hnode]

theorem Seated.publish_current (h : c.Seated stage image) : (c.publish stage).IsCurrent image := by
  obtain ⟨driven, hdriven⟩ := h.driven
  obtain ⟨node, hnode, hbuffer⟩ := h.shown
  have hself : (stage.update c.node (·.publish c.viewPose)).node? c.node =
      some (driven.publish c.viewPose) := by
    rw [Stage.node?_update_self, hdriven, Option.map_some]
  rw [h.publish]
  refine .of_current ⟨⟨h.distinct, ⟨_, hself⟩, node, ?_, hbuffer⟩, _, hself, rfl⟩
  simp only [done]
  rw [stage.node?_update_of_ne _ h.distinct.symm, hnode]

theorem fit_of_power?_eq_none {pose : Transform α} (hg : c.bufferGeometry stage = .ok (pose, image))
    (hp : (c.fitting pose image).power? = none) : c.fit stage = .stopped c stage .endless := by
  simp [Camera.fit, fittedPower, hg, hp]

theorem fit_of_power?_eq_some {pose : Transform α} {power : α}
    (hg : c.bufferGeometry stage = .ok (pose, image))
    (hp : (c.fitting pose image).power? = some power) :
    c.fit stage = { c with zoomPower := power }.publish stage := by
  simp [Camera.fit, fittedPower, hg, hp]

theorem Seated.fit_current (h : c.Seated stage image) : (c.fit stage).IsCurrent image := by
  obtain ⟨pose, hgeometry⟩ := h.bufferGeometry
  cases hpower : (c.fitting pose image).power? with
  | none =>
    rw [fit_of_power?_eq_none hgeometry hpower]
    exact fun hends => absurd rfl hends
  | some power =>
    rw [fit_of_power?_eq_some hgeometry hpower]
    exact Seated.publish_current (h.of_nodes rfl rfl)

theorem Seated.fitTo_current (h : c.Seated stage image) (size : Size) :
    (c.fitTo stage size).IsCurrent image :=
  Seated.fit_current (c := c.resize size) (h.of_nodes rfl rfl)

end Camera

end PanZoom
