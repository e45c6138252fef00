import PanZoom.Proofs.Viewer.Reachable

namespace PanZoom.Viewer

variable {α : Type} [Scalar α] {image : ImageBuffer α} {v w : Viewer α}

/-- One thing that happens to a viewer. -/
inductive Deed (α : Type) [Scalar α] where
  | command (command : Command α)
  | link (other : Viewer α)
  deriving DecidableEq

def act (v : Viewer α) : Deed α → Viewer α
  | .command c => (v.perform c).1
  | .link other => (v.linkFrom other).1

/-- The command ends, or the other viewer is one that can be reached. -/
inductive Permits (v : Viewer α) : Deed α → Prop
  | command (c : Command α) : (v.perform c).2 ≠ .error .endless → Permits v (.command c)
  | link {other : Viewer α} {shown : ImageBuffer α} :
      Reachable shown other → Permits v (.link other)

/-- The deeds lead from one viewer to the other. -/
inductive Run (v : Viewer α) : List (Deed α) → Viewer α → Prop
  | start : Run v [] v
  | act {deeds : List (Deed α)} {w : Viewer α} (d : Deed α) :
      Run v deeds w → w.Permits d → Run v (deeds ++ [d]) (w.act d)

def handleAll (v : Viewer α) (events : List (Event α)) : Viewer α :=
  events.foldl (fun v event => (v.handle event).1) v

/-- The viewer takes the events one after another, and none of them fails. -/
def Accepts (v : Viewer α) : List (Event α) → Prop
  | [] => True
  | event :: events =>
    (∃ response, (v.handle event).2 = .ok response) ∧ (v.handle event).1.Accepts events

/-- What the viewer at the end of a run accepts makes the run longer. -/
theorem Run.accepts {deeds : List (Deed α)} {events : List (Event α)} (h : v.Run deeds w)
    (haccepts : w.Accepts events) :
    v.Run (deeds ++ events.map fun event => .command (.handle event)) (w.handleAll events) := by
  induction events generalizing deeds w with
  | nil =>
    rw [List.map_nil, List.append_nil]
    exact h
  | cons event events ih =>
    obtain ⟨⟨response, hok⟩, hrest⟩ := haccepts
    have hends : (w.perform (.handle event)).2 ≠ .error .endless := by
      simp [perform, hok, Except.map]
    have hlonger := ih (h.act (.command (.handle event)) (.command _ hends)) hrest
    rwa [List.append_assoc] at hlonger

theorem Reachable.act {d : Deed α} (h : Reachable image v) (hd : v.Permits d) :
    Reachable image (v.act d) := by
  cases hd with
  | command c hends => exact h.perform c hends
  | link hother => exact h.linkFrom hother

theorem Run.reachable {deeds : List (Deed α)} (h : v.Run deeds w) (hv : Reachable image v) :
    Reachable image w := by
  induction h with
  | start => exact hv
  | act d _ hd ih => exact ih.act hd

end PanZoom.Viewer
