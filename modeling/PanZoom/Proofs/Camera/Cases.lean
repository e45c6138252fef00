import PanZoom.Camera.Center
import PanZoom.Camera.Control

namespace PanZoom.Camera

variable {α : Type} [Scalar α]

/-- A zoom leaves no trace. Or the step is finite, the bounds allow the power that it leads to, the
camera's node is there, and the zoomed camera is published on it. -/
theorem zoomAt_cases (c : Camera α) (stage : Stage α) (anchor : Homogeneous α) (delta : α) :
    (∃ result, c.zoomAt stage anchor delta = ⟨c, stage, result⟩) ∨
      ∃ composite target node, Scalar.isFinite delta = true ∧
        c.targetPower? delta = some target ∧ stage.node? c.node = some node ∧
        c.zoomAt stage anchor delta = (c.fold composite target).publish stage := by
  unfold zoomAt
  split
  · rename_i hfinite
    split
    · exact .inl ⟨_, rfl⟩
    · rename_i target htarget
      dsimp only
      split
      · exact .inl ⟨_, rfl⟩
      · split
        · exact .inl ⟨_, rfl⟩
        · rename_i node hnode
          split
          · exact .inl ⟨_, rfl⟩
          · exact .inr ⟨_, target, node, hfinite, htarget, hnode, rfl⟩
  · exact .inl ⟨_, rfl⟩

/-- Centring the view fails without a trace, or it has found the image and publishes another pan. -/
theorem moveTo_cases (c : Camera α) (stage : Stage α) (target : Point α) :
    (∃ e, c.moveTo stage target = .stopped c stage (.failed e)) ∨
      ∃ geometry goal, c.bufferGeometry stage = .ok geometry ∧
        c.moveTo stage target = { c with pan := goal }.publish stage := by
  unfold moveTo
  split
  · exact .inl ⟨_, rfl⟩
  · rename_i hgeometry
    exact .inr ⟨_, _, hgeometry, rfl⟩

/-- A frame leaves no trace, or it publishes another pan. -/
theorem tick_cases (c : Camera α) (stage : Stage α) (keyboard : Keyboard) :
    (∃ response, c.tick stage keyboard = .done c stage response) ∨
      ∃ pan, c.tick stage keyboard = ({ c with pan }.publish stage).answering .consumed := by
  unfold tick
  dsimp only
  split
  · split
    · exact .inl ⟨_, rfl⟩
    · exact .inr ⟨_, rfl⟩
  · exact .inl ⟨_, rfl⟩

/-- The wheel does nothing, or it zooms. -/
theorem scroll_cases (c : Camera α) (stage : Stage α) (delta : α) (canvas : Canvas α) :
    c.scroll stage delta canvas = .done c stage () ∨
      ∃ anchor, c.scroll stage delta canvas = c.zoomAt stage anchor delta := by
  unfold scroll
  split
  · exact .inl rfl
  · exact .inr ⟨_, rfl⟩

/-- A key press does nothing, or it zooms about the centre by some step, or it recentres. -/
theorem keyPressed_cases (c : Camera α) (stage : Stage α) (keyboard : Keyboard) :
    (∃ response, c.keyPressed stage keyboard = .done c stage response) ∨
      (∃ step, c.keyPressed stage keyboard =
        (c.zoomAt stage (.point 0 0) step).answering .consumed) ∨
      c.keyPressed stage keyboard = (c.recenter stage).answering .consumed := by
  unfold keyPressed
  dsimp only
  split
  · split
    · exact .inr (.inl ⟨_, rfl⟩)
    · split
      · exact .inr (.inl ⟨_, rfl⟩)
      · split
        · exact .inr (.inr rfl)
        · split <;> exact .inl ⟨_, rfl⟩
  · exact .inl ⟨_, rfl⟩

end PanZoom.Camera
