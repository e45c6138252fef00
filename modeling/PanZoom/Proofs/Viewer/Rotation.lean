import PanZoom.Proofs.Viewer.Picture
import PanZoom.Proofs.Viewer.Success

/-!
# Rotations do not drift

A rotation multiplies the pose of the image by a quarter turn, in single precision, and never looks
back at how often it has done so. Still no error adds up, since the products stay within four
matrices:

* `Viewer.Turned`: the pose is one of the four, the one of so many quarter turns;
* `Viewer.Turned.act`: a deed adds its own quarter turns, whatever else it does;
* `Viewer.rotations_do_not_drift`: hence the pose counts the rotations, modulo four.
-/

namespace PanZoom

theorem Transform.quarterTurns_congr {α : Type} [Scalar α] {s t : ℤ} (h : s % 4 = t % 4) :
    (quarterTurns s : Transform α) = quarterTurns t := by
  unfold quarterTurns
  rw [h]

namespace Camera

/-- The four poses are those of their quarter turns, but for the signs of zeros. -/
theorem turned_agrees : ∀ k : Fin 4, (turned k).agrees (.quarterTurns k.val) = true := by
  with_unfolding_all decide

end Camera

namespace Viewer

open Camera Precision

variable {v w u : Viewer Float32} {image : ImageBuffer Float32} {deeds : List (Deed Float32)}
  {n : ℤ}

/-- The pose of the image is the one of so many quarter turns. -/
def Turned (v : Viewer Float32) (n : ℤ) : Prop :=
  ∃ k : Fin 4, (k.val : ℤ) = n % 4 ∧ v.picture.bufferPose = some (turned k)

theorem create_turned {settings : Settings Float32} {size : Size}
    (h : create image settings size = .ok v) : v.Turned 0 := by
  refine ⟨0, rfl, ?_⟩
  show (v.stage.node? v.camera.buffer).map Node.pose = some (turned 0)
  rw [create_bufferNode h]
  rfl

/-- A quarter turn, either way, leads from one of the four poses to another. -/
theorem Deed.turns_turned {d : Deed Float32} (h : d.turns ≠ 0) (k : Fin 4) :
    ∃ j : Fin 4, (j.val : ℤ) = (k.val + d.turns) % 4 ∧
      .quarterTurns d.turns * turned k = turned j := by
  rcases Deed.eq_rotate h with rfl | rfl
  · exact ⟨k + 1, by revert k; decide, quarterTurn_turned k⟩
  · exact ⟨k + 3, by revert k; decide, quarterTurn_back_turned k⟩

theorem Turned.act (h : v.Turned n) (hv : v.Sound image) {d : Deed Float32} (hd : v.Permits d) :
    (v.act d).Turned (n + d.turns) := by
  obtain ⟨k, hk, hpose⟩ := h
  by_cases hturns : d.turns = 0
  · rw [hturns, add_zero]
    exact ⟨k, hk, (hv.current.act_bufferPose hd hturns).trans hpose⟩
  · rcases hv.current.rotate_bufferNode d.turns with ⟨e, hstays⟩ | ⟨node, hnode, hturned⟩
    · -- A sound viewer fails at no rotation, so the image does turn.
      obtain ⟨shown, hshown, -⟩ := hv.current.shown
      rcases hv.rotate_answers hshown d.turns with ⟨_, hok⟩ | ⟨hendless, -⟩
      · rw [hstays] at hok
        cases hok
      · exact absurd hendless (hd.rotate hturns).2
    · obtain ⟨j, hj, hproduct⟩ := Deed.turns_turned hturns k
      have hnodePose : node.pose = turned k := by
        simpa [picture, pose?, hnode] using hpose
      refine ⟨j, by omega, ?_⟩
      rw [(hd.rotate hturns).1]
      simp [picture, pose?, hturned, Node.publish, hnodePose, hproduct]

theorem Run.turned (h : v.Run deeds w) (hv : Reachable image v) (hturned : v.Turned n) :
    w.Turned (n + (deeds.map Deed.turns).sum) := by
  induction h with
  | start => simpa using hturned
  | act d hrun hd ih =>
    have hsound := (hrun.reachable hv).sound
    simpa [add_assoc] using ih.act hsound hd

def counterclockwise (deeds : List (Deed Float32)) : ℕ :=
  deeds.count (.command .rotateCounterclockwise)

def clockwise (deeds : List (Deed Float32)) : ℕ :=
  deeds.count (.command .rotateClockwise)

theorem Deed.turns_eq (d : Deed Float32) :
    d.turns = (if d = .command .rotateCounterclockwise then 1 else 0) -
      (if d = .command .rotateClockwise then 1 else 0) := by
  cases d with
  | command c => cases c <;> simp [Deed.turns, Command.turns]
  | link other => simp [Deed.turns]

theorem sum_turns (deeds : List (Deed Float32)) :
    (deeds.map Deed.turns).sum = counterclockwise deeds - clockwise deeds := by
  unfold counterclockwise clockwise
  induction deeds with
  | nil => rfl
  | cons d deeds ih =>
    rw [List.map_cons, List.sum_cons, ih, d.turns_eq, List.count_cons, List.count_cons]
    simp only [beq_iff_eq]
    split_ifs <;> push_cast <;> omega

/-- **Rotations do not drift.** After any run of a new viewer, with any number of rotations among
its deeds in any order, the pose of the image is equal to the quarter turns by which it was rotated
counter-clockwise less those by which it was rotated clockwise, modulo four, without any rounding.
The inverse of the pose exists and is equal to the quarter turns back. Deeds that are no rotations
leave the pose as it is, to the bit. -/
theorem rotations_do_not_drift {settings : Settings Float32} {size : Size}
    (hv : create image settings size = .ok v) (hrun : v.Run deeds w) :
    ∃ node inverse, w.stage.node? w.camera.buffer = some node ∧
      node.pose.agrees (.quarterTurns ((counterclockwise deeds - clockwise deeds : ℤ) % 4)) ∧
      node.pose.inverse? = some inverse ∧
      inverse.agrees (.quarterTurns (clockwise deeds - counterclockwise deeds)) ∧
      ∀ more u, w.Run more u → counterclockwise more = 0 → clockwise more = 0 →
        ∃ later, u.stage.node? u.camera.buffer = some later ∧ later.pose = node.pose := by
  have hreached : Reachable image v := .create hv
  have hturned := hrun.turned hreached (create_turned hv)
  rw [zero_add, sum_turns] at hturned
  obtain ⟨k, hk, hpose⟩ := hturned
  obtain ⟨node, hnode, hnodePose⟩ := Option.map_eq_some_iff.mp hpose
  obtain ⟨inverse, hinverse, hback⟩ := (Option.any_eq_true _ _).mp (inverse?_turned_agrees k)
  refine ⟨node, inverse, hnode, ?_, hnodePose ▸ hinverse, ?_, ?_⟩
  · rw [hnodePose, ← hk]
    exact turned_agrees k
  · rw [Transform.quarterTurns_congr (t := -(k.val : ℤ)) (by omega)]
    exact hback
  · intro more u hmore hleft hright
    have hlater := hmore.turned (hrun.reachable hreached) ⟨k, hk, hpose⟩
    rw [sum_turns, hleft, hright] at hlater
    obtain ⟨j, hj, hlaterPose⟩ := hlater
    obtain ⟨later, hfound, hsame⟩ := Option.map_eq_some_iff.mp hlaterPose
    have hjk : j = k := Fin.ext (by omega)
    exact ⟨later, hfound, by rw [hsame, hnodePose, hjk]⟩

/-- The case of a half turn in four rotations, among other commands. -/
theorem rotations_do_not_drift_half_turn :
    let commands : List (Command Float32) :=
      [.rotateCounterclockwise, .handle (.mouseWheel 1 ⟨10, 20⟩), .rotateCounterclockwise,
        .handle (.resized ⟨40, 30⟩), .rotateClockwise, .tick, .rotateCounterclockwise]
    ∃ (v w : Viewer Float32) (node : Node Float32) (inverse : Transform Float32),
      create ⟨200, 100⟩ .default ⟨300, 100⟩ = .ok v ∧ v.Run (commands.map .command) w ∧
      w.stage.node? w.camera.buffer = some node ∧ node.pose.agrees (.quarterTurns 2) ∧
      node.pose.inverse? = some inverse ∧ inverse.agrees (.quarterTurns (-2)) := by
  intro commands
  obtain ⟨v, hv⟩ := create_ok ⟨200, 100⟩ maxPower_default_le ⟨300, 100⟩
  obtain ⟨w, hrun, -⟩ := exists_run hv maxPower_default_le commands
  have hleft : counterclockwise (commands.map .command) = 3 := by decide
  have hright : clockwise (commands.map .command) = 1 := by decide
  obtain ⟨node, inverse, hnode, hpose, hinverse, hback, -⟩ := rotations_do_not_drift hv hrun
  rw [hleft, hright] at hpose hback
  exact ⟨v, w, node, inverse, hv, hrun, hnode, hpose, hinverse, hback⟩

end Viewer

end PanZoom
