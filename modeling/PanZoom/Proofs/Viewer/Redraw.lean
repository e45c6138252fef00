import PanZoom.Proofs.Viewer.Picture
import PanZoom.Proofs.Viewer.Success

/-!
# No redraw is lost

A renderer asks a viewer whether it has to draw again and draws only if it has to. Two flags carry
the answer, one on each node:

* `Viewer.awaits`: a flag is up. `takeRedraw_answer` says that this is what the renderer is told,
  and `takeRedraw_awaits` that both flags are down afterwards;
* `Viewer.Noticed`: the picture is the same as before, or a flag is up. Every deed but taking the
  redraw keeps it so;
* `Viewer.no_redraw_is_lost`: hence a renderer that is told to draw nothing would have drawn the
  same as the last time it asked.
-/

namespace PanZoom.Viewer

variable {α : Type} [Scalar α] {v w u : Viewer α} {image : ImageBuffer α} {deeds : List (Deed α)}

/-- The flag of either node is up. -/
def awaits (v : Viewer α) : Bool :=
  awaitsRedraw v.stage v.camera.node || awaitsRedraw v.stage v.camera.buffer

omit [Scalar α] in
theorem awaitsRedraw_clear (stage : Stage α) (id other : NodeId) :
    awaitsRedraw (stage.update id ({ · with redraw := false })) other =
      (decide (other ≠ id) && awaitsRedraw stage other) := by
  unfold awaitsRedraw
  by_cases hid : other = id
  · subst hid
    rw [Stage.node?_update_self]
    cases stage.node? other <;> simp
  · rw [stage.node?_update_of_ne _ hid]
    simp [hid]

/-- The renderer is told of either flag, also where both nodes are the same. -/
theorem takeRedraw_answer (v : Viewer α) : v.takeRedraw.2 = v.awaits := by
  simp only [takeRedraw, awaits, awaitsRedraw_clear]
  by_cases hsame : v.camera.buffer = v.camera.node <;> simp [hsame]

theorem takeRedraw_awaits (v : Viewer α) : v.takeRedraw.1.awaits = false := by
  simp [takeRedraw, awaits, awaitsRedraw_clear]

/-- Asked again at once, the answer is no. -/
theorem takeRedraw_again (v : Viewer α) : v.takeRedraw.1.takeRedraw.2 = false := by
  rw [takeRedraw_answer, takeRedraw_awaits]

omit [Scalar α] in
theorem awaitsRedraw_publish {stage : Stage α} {id : NodeId} {node : Node α}
    (h : stage.node? id = some node) (pose : Transform α) :
    awaitsRedraw (stage.update id (·.publish pose)) id = true := by
  simp [awaitsRedraw, Stage.node?_update_self, h, Node.publish]

/-- The picture is what it was and so are the flags, or else a flag is up. -/
def Noticed (v w : Viewer α) : Prop :=
  w.picture = v.picture ∧ w.awaits = v.awaits ∨ w.awaits = true

theorem Noticed.refl (v : Viewer α) : v.Noticed v :=
  .inl ⟨rfl, rfl⟩

/-- A flag that is up stays up while only what is noticed happens. -/
theorem Noticed.trans (h : v.Noticed w) (hnext : w.Noticed u) : v.Noticed u := by
  rcases hnext with ⟨hpicture, hawaits⟩ | hawaits
  · unfold Noticed
    rw [hpicture, hawaits]
    exact h
  · exact .inr hawaits

theorem Settles.noticed (h : v.Settles w) (hv : v.Current image) : v.Noticed w := by
  obtain ⟨node, hnode⟩ := hv.driven
  unfold Settles at h
  unfold Noticed picture awaits
  generalize w.camera = camera, w.stage = stage at h ⊢
  cases h with
  | unchanged => exact .inl ⟨rfl, rfl⟩
  | published hself =>
    right
    rw [hself, awaitsRedraw_publish hnode, Bool.true_or]

/-- A turn raises the flag of the buffer's node. -/
theorem Current.rotate_noticed (hv : v.Current image) (turns : ℤ) :
    v.Noticed (v.rotate turns).1 := by
  rcases hv.rotate_bufferNode turns with ⟨e, hstays⟩ | ⟨node, -, hturned⟩
  · rw [hstays]
    exact .refl v
  · right
    simp [awaits, awaitsRedraw, hturned, Node.publish]

theorem Current.act_noticed (hv : v.Current image) {d : Deed α} (hd : v.Permits d)
    (htake : d ≠ .command .takeRedraw) : v.Noticed (v.act d) := by
  by_cases hturns : d.turns = 0
  · exact (hv.act_settles hd hturns htake).noticed hv
  · rw [(hd.rotate hturns).1]
    exact hv.rotate_noticed d.turns

theorem Run.noticed (h : v.Run deeds w) (hv : Reachable image v)
    (htake : .command .takeRedraw ∉ deeds) : v.Noticed w := by
  induction h with
  | start => exact .refl v
  | act d hrun hd ih =>
    simp only [List.mem_append, List.mem_singleton, not_or] at htake
    have hcurrent := (hrun.reachable hv).current
    exact (ih htake.1).trans (hcurrent.act_noticed hd fun he => htake.2 he.symm)

/-- **No redraw is lost.** Between two times that the redraw is taken, whatever else a reachable
viewer does: if the second time there is none, the camera and the poses of both nodes are what they
were the first time, to the bit, and so is the view projection. And whichever flags were up, taking
the redraw again at once finds none. -/
theorem no_redraw_is_lost :
    (∀ (image : ImageBuffer α) (v w : Viewer α) (deeds : List (Deed α)), Reachable image v →
      v.takeRedraw.1.Run deeds w → .command .takeRedraw ∉ deeds → w.takeRedraw.2 = false →
      w.picture = v.picture ∧ w.camera.viewProjection = v.camera.viewProjection) ∧
    ∀ v : Viewer α, v.takeRedraw.1.takeRedraw.2 = false := by
  refine ⟨?_, takeRedraw_again⟩
  intro image v w deeds hv hrun htake hnone
  have htaken : Reachable image v.takeRedraw.1 := hv.perform .takeRedraw (by rintro ⟨⟩)
  have hpicture : w.picture = v.picture := by
    rcases hrun.noticed htaken htake with ⟨hsame, -⟩ | hawaits
    · rw [hsame, takeRedraw_picture]
    · rw [takeRedraw_answer, hawaits] at hnone
      cases hnone
  exact ⟨hpicture, congrArg (·.camera.viewProjection) hpicture⟩

/-- The case of a click: it starts a drag and ends it where it began. -/
theorem no_redraw_is_lost_click :
    ∃ v w : Viewer Float32, Reachable ⟨200, 100⟩ v ∧
      v.takeRedraw.1.Run [.command (.handle (.mousePressed .left ⟨10, 20⟩)),
        .command (.handle (.mouseReleased .left ⟨10, 20⟩))] w ∧
      w.takeRedraw.2 = false ∧ w.picture = v.picture ∧
      w.camera.viewProjection = v.camera.viewProjection := by
  obtain ⟨v, hv⟩ := create_ok ⟨200, 100⟩ maxPower_default_le ⟨300, 100⟩
  let down : Deed Float32 := .command (.handle (.mousePressed .left ⟨10, 20⟩))
  let up : Deed Float32 := .command (.handle (.mouseReleased .left ⟨10, 20⟩))
  have hreached : Reachable ⟨200, 100⟩ v := .create hv
  have hdown : v.takeRedraw.1.Permits down := .command _ (by rintro ⟨⟩)
  have hup : (v.takeRedraw.1.act down).Permits up := .command _ (by rintro ⟨⟩)
  have hrun : v.takeRedraw.1.Run [down, up] _ := .act up (.act down .start hdown) hup
  have hnone : ((v.takeRedraw.1.act down).act up).takeRedraw.2 = false := takeRedraw_again v
  have hpicture := no_redraw_is_lost.1 _ v _ _ hreached hrun (by simp [down, up]) hnone
  exact ⟨v, _, hreached, hrun, hnone, hpicture⟩

end PanZoom.Viewer
