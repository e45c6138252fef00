import PanZoom.Proofs.Viewer.Frame
import PanZoom.Proofs.Viewer.Run

namespace PanZoom.Viewer

variable {α : Type} [Scalar α] {v : Viewer α} {image : ImageBuffer α}

/-- What a renderer reads of a viewer. -/
structure Picture (α : Type) [Scalar α] where
  camera : Camera α
  cameraPose : Option (Transform α)
  bufferPose : Option (Transform α)
  deriving DecidableEq

def pose? (stage : Stage α) (id : NodeId) : Option (Transform α) :=
  (stage.node? id).map Node.pose

def picture (v : Viewer α) : Picture α :=
  ⟨v.camera, pose? v.stage v.camera.node, pose? v.stage v.camera.buffer⟩

omit [Scalar α] in
/-- Changing a node without moving it leaves every node where it is. -/
theorem pose?_update {stage : Stage α} {f : Node α → Node α}
    (hf : ∀ node, (f node).pose = node.pose) (id other : NodeId) :
    pose? (stage.update id f) other = pose? stage other := by
  unfold pose?
  by_cases hid : other = id
  · rw [hid, Stage.node?_update_self, Option.map_map]
    congr 1
    exact funext hf
  · rw [stage.node?_update_of_ne f hid]

theorem takeRedraw_picture (v : Viewer α) : v.takeRedraw.1.picture = v.picture := by
  simp [picture, takeRedraw, pose?_update]

/-- The quarter turns of a deed, counter-clockwise. -/
def Deed.turns : Deed α → ℤ
  | .command c => c.turns
  | .link _ => 0

theorem Deed.eq_rotate {d : Deed α} (h : d.turns ≠ 0) :
    d = .command .rotateCounterclockwise ∨ d = .command .rotateClockwise := by
  cases d with
  | command c => simpa using Command.eq_rotate h
  | link other => exact absurd rfl h

theorem Permits.rotate {d : Deed α} (hd : v.Permits d) (hturns : d.turns ≠ 0) :
    v.act d = (v.rotate d.turns).1 ∧ (v.rotate d.turns).2 ≠ .error .endless := by
  rcases Deed.eq_rotate hturns with rfl | rfl <;> cases hd with
  | command _ hends => exact ⟨rfl, hends⟩

/-- A turn that does not fail publishes the turned pose on the buffer's node. Neither the fit nor
the move after it touches that node. -/
theorem Current.rotate_bufferNode (hv : v.Current image) (turns : ℤ) :
    (∃ e, v.rotate turns = (v, .error (.failed e))) ∨
      ∃ node, v.stage.node? v.camera.buffer = some node ∧
        (v.rotate turns).1.stage.node? (v.rotate turns).1.camera.buffer =
          some (node.publish (.quarterTurns turns * node.pose)) := by
  rcases v.rotate_cases turns with hstays | ⟨node, center, hnode, hturns⟩
  · exact .inl hstays
  · have hconfined := v.turning_confined turns node center
    refine .inr ⟨node, hnode, ?_⟩
    rw [hturns]
    show (v.turning turns node center).stage.node? (v.turning turns node center).camera.buffer = _
    rw [hconfined.buffer, hconfined.others _ hv.distinct.symm, Stage.node?_update_self, hnode,
      Option.map_some]

theorem Current.act_settles (h : v.Current image) {d : Deed α} (hd : v.Permits d)
    (hturns : d.turns = 0) (htake : d ≠ .command .takeRedraw) : v.Settles (v.act d) := by
  cases hd with
  | @link other shown hother => exact h.linkFrom_settles other
  | command c hends =>
    apply h.perform_settles hends hturns
    rintro rfl
    exact htake rfl

/-- The buffer's node stays where it is, unless the deed turns it. -/
theorem Current.act_bufferPose (h : v.Current image) {d : Deed α} (hd : v.Permits d)
    (hturns : d.turns = 0) : (v.act d).picture.bufferPose = v.picture.bufferPose := by
  by_cases htake : d = .command .takeRedraw
  · subst htake
    exact congrArg Picture.bufferPose v.takeRedraw_picture
  · have hsettles := h.act_settles hd hturns htake
    show pose? _ _ = pose? _ _
    unfold pose?
    rw [hsettles.buffer, hsettles.node?_of_ne h.distinct.symm]

/-- An event that succeeds leaves the image where it is. -/
theorem Reachable.handle (h : Reachable image v) {event : Event α} {response : Response}
    (hok : (v.handle event).2 = .ok response) :
    Reachable image (v.handle event).1 ∧
      (v.handle event).1.picture.bufferPose = v.picture.bufferPose := by
  have hpermits : v.Permits (.command (.handle event)) :=
    .command _ (map_ne_endless_iff.mpr (ne_endless_of_ok hok))
  exact ⟨h.act hpermits, h.current.act_bufferPose hpermits rfl⟩

theorem create_bufferPose {settings : Settings α} {size : Size}
    (h : create image settings size = .ok v) : v.picture.bufferPose = some .identity := by
  show (v.stage.node? v.camera.buffer).map Node.pose = _
  rw [create_bufferNode h]
  rfl

/-- A deed leaves the pose of the image as it is, or turns it by quarter turns. -/
theorem Current.act_bufferPose_cases (h : v.Current image) {d : Deed α} (hd : v.Permits d) :
    (v.act d).picture.bufferPose = v.picture.bufferPose ∨
      ∃ pose, v.picture.bufferPose = some pose ∧
        (v.act d).picture.bufferPose = some (.quarterTurns d.turns * pose) := by
  by_cases hturns : d.turns = 0
  · exact .inl (h.act_bufferPose hd hturns)
  · rw [(hd.rotate hturns).1]
    rcases h.rotate_bufferNode d.turns with ⟨e, hstays⟩ | ⟨node, hnode, hturned⟩
    · rw [hstays]
      exact .inl rfl
    · refine .inr ⟨node.pose, ?_, ?_⟩
      · simp [picture, pose?, hnode]
      · simp [picture, pose?, hturned, Node.publish]

/-- What stays true of poses under quarter turns stays true of the image's pose. -/
theorem Current.act_bufferPose_holds {P : Transform α → Prop}
    (hturn : ∀ turns pose, P pose → P (.quarterTurns turns * pose)) (h : v.Current image)
    {d : Deed α} (hd : v.Permits d) (hv : ∃ pose, v.picture.bufferPose = some pose ∧ P pose) :
    ∃ pose, (v.act d).picture.bufferPose = some pose ∧ P pose := by
  obtain ⟨pose, hpose, hholds⟩ := hv
  rcases h.act_bufferPose_cases hd with hsame | ⟨before, hbefore, hturned⟩
  · exact ⟨pose, hsame.trans hpose, hholds⟩
  · obtain rfl : before = pose := Option.some.inj (hbefore.symm.trans hpose)
    exact ⟨_, hturned, hturn _ _ hholds⟩

/-- What is also true of the pose that an image begins with is true of every pose it can have. -/
theorem Reachable.bufferPose_induction {P : Transform α → Prop} (hidentity : P .identity)
    (hturn : ∀ turns pose, P pose → P (.quarterTurns turns * pose)) (h : Reachable image v) :
    ∃ pose, v.picture.bufferPose = some pose ∧ P pose := by
  induction h with
  | create h => exact ⟨.identity, create_bufferPose h, hidentity⟩
  | perform command hreachable hends ih =>
    exact hreachable.current.act_bufferPose_holds hturn (.command command hends) ih
  | linkFrom hreachable hother ih _ =>
    exact hreachable.current.act_bufferPose_holds hturn (.link hother) ih

end PanZoom.Viewer
