import PanZoom.Proofs.Camera.Frame
import PanZoom.Proofs.Scene.Handles

/-!
# A camera touches only its own node

Any number of nodes and cameras may share a stage, and nothing but discipline keeps them apart. A
camera writes to its stage in one way, by publishing a pose on the node that it drives:

* `Stage.AgreesBut`: two stages that agree but for the pose and the redraw flag of one node.
  `Stage.update_publish_agreesBut` says that publishing a pose on the node leaves it at that;
* `Outcome.KeepsToOwnNode`: the camera has kept its handles, and the stages agree but for its node;
* `Camera.touches_only_own_node`: so it is after every operation, whether it succeeds or not.
-/

namespace PanZoom

namespace Stage

variable {α : Type} {s t : Stage α} {id : NodeId}

/-- The second stage has the names and the handles of the first, and at every handle but the given
one it has the same node under the same name. That node has kept its components; its pose is another
only if it waits for a redraw. If the handle is stale, nothing has changed at all. -/
structure AgreesBut (s : Stage α) (id : NodeId) (t : Stage α) : Prop where
  names : t.names = s.names
  generations : ∀ slot, t.generation? slot = s.generation? slot
  others : ∀ other, other ≠ id → t.tenant? other = s.tenant? other
  own : ∀ tenant, s.tenant? id = some tenant → ∃ pose redraw,
    t.tenant? id = some { tenant with node := { tenant.node with pose, redraw } } ∧
      (pose ≠ tenant.node.pose → redraw = true)
  gone : s.tenant? id = none → t = s

theorem AgreesBut.refl (id : NodeId) (s : Stage α) : s.AgreesBut id s where
  names := rfl
  generations _ := rfl
  others _ _ := rfl
  own tenant htenant := ⟨tenant.node.pose, tenant.node.redraw, htenant, fun hne => absurd rfl hne⟩
  gone _ := rfl

theorem update_publish_agreesBut (s : Stage α) (id : NodeId) (pose : Transform α) :
    s.AgreesBut id (s.update id (·.publish pose)) where
  names := s.names_update id _
  generations := s.generation?_update id _
  others _ hother := tenant?_update_of_ne _ hother
  own tenant htenant := by
    refine ⟨pose, true, ?_, fun _ => rfl⟩
    rw [tenant?_update_self, htenant]
    rfl
  gone hnone := update_of_tenant?_eq_none _ hnone

end Stage

variable {α β : Type} [Scalar α] {c d : Camera α} {stage : Stage α}

/-- The camera has kept its two handles, and the stage is as it was but for the pose and the redraw
flag of the camera's node. -/
structure Outcome.KeepsToOwnNode (o : Outcome α β) (c : Camera α) (stage : Stage α) :
    Prop where
  node : o.camera.node = c.node
  buffer : o.camera.buffer = c.buffer
  stage : stage.AgreesBut c.node o.stage

theorem Outcome.Moves.keepsToOwnNode {o : Outcome α β} (h : o.Moves d stage)
    (hnode : d.node = c.node) (hbuffer : d.buffer = c.buffer) : o.KeepsToOwnNode c stage where
  node := by rw [h.camera, hnode]
  buffer := by rw [h.camera, hbuffer]
  stage := by
    rw [← hnode]
    rcases h.stage with hsame | ⟨pose, hpublished⟩
    · rw [hsame]
      exact .refl d.node stage
    · rw [hpublished]
      exact stage.update_publish_agreesBut d.node pose

namespace Camera

/-- Neither a resize nor a synchronization gives the camera another node. -/
theorem perform_keepsToOwnNode (op : Operation α) :
    (c.perform stage op).KeepsToOwnNode c stage := by
  cases op with
  | act a =>
    rcases c.act_moves stage a with hmoves | ⟨size, hmoves⟩
    · exact hmoves.keepsToOwnNode rfl rfl
    · exact hmoves.keepsToOwnNode rfl rfl
  | syncFrom other =>
    let synced : Camera α := { other with node := c.node, buffer := c.buffer }
    exact (publish_moves (c := synced)).keepsToOwnNode rfl rfl

/-- **A camera touches only its own node.** Whatever the camera, the stage and the arguments, and
whether it succeeds or not, an operation keeps the camera's handles, the stage's names and handles
and every node but the camera's own. Of that one it keeps the components, and where it moves it, it
asks for a redraw. -/
theorem touches_only_own_node (c : Camera α) (stage : Stage α) :
    (c.publish stage).KeepsToOwnNode c stage ∧
      ∀ op : Operation α, (c.perform stage op).KeepsToOwnNode c stage :=
  ⟨publish_moves.keepsToOwnNode rfl rfl, fun op => perform_keepsToOwnNode op⟩

end Camera

end PanZoom
