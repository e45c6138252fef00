import PanZoom.Proofs.Viewer.Success

/-!
# Which size a viewer goes by

The canvas knows its size from the resizes alone, while the camera takes over the viewport of any
camera that it is linked to. Between a link and the next resize the two may differ:

* `Viewer.lastSize`, `Viewer.lastLink?`: the size of the last resize, and the viewer that was linked
  last if no resize came after it;
* `Camera.Projects`: a projection is that of the viewport, while the viewport has pixels;
* `Viewer.goes_by_canvas_unless_linked`: what the fit, the projection and the wheel go by.
-/

namespace PanZoom

variable {α : Type} [Scalar α] {c d : Camera α}

namespace Camera

/-- The projection is that of the viewport, if the viewport has pixels. -/
def Projects (c : Camera α) : Prop :=
  c.viewport.isEmpty = false → c.projection = projectionOf c.viewport

theorem resize_projects (c : Camera α) (size : Size) : (c.resize size).Projects := by
  intro hpixels
  have hsize : size.isEmpty = false := hpixels
  simp [resize, hsize]

theorem Projects.resize? (h : c.Projects) (size? : Option Size) : (c.resize? size?).Projects := by
  cases size? with
  | none => exact h
  | some size => exact c.resize_projects size

theorem Projects.moved (h : c.Projects) (hmoved : c.Moved d) : d.Projects := by
  unfold Projects
  rw [hmoved.viewport, hmoved.projection]
  exact h

end Camera

namespace Viewer

open Camera

variable {v w : Viewer α} {image : ImageBuffer α} {deeds : List (Deed α)}

theorem Reachable.projects (h : Reachable image v) : v.camera.Projects := by
  induction h with
  | create h => exact (resize_projects _ _).moved (create_moved h).1
  | @perform image v command _ _ ih =>
    exact (ih.resize? command.size?).moved (v.perform_moved command)
  | @linkFrom image shown v other _ _ _ ihother =>
    rw [linkFrom_camera]
    exact ihother

/-- Linked or not, a camera has the projection of some viewport with pixels, or the first one. -/
theorem Reachable.isProjected (h : Reachable image v) : v.camera.IsProjected := by
  have hresize {c : Camera α} (hc : c.IsProjected) (size? : Option Size) :
      (c.resize? size?).IsProjected := by
    cases size? with
    | none => exact hc
    | some size => exact hc.resize size
  induction h with
  | create h =>
    exact (IsProjected.resize (.inl rfl) _).of_projection_eq (create_moved h).1.projection
  | @perform image v command _ _ ih =>
    exact (hresize ih command.size?).of_projection_eq (v.perform_moved command).projection
  | @linkFrom image shown v other _ _ _ ihother =>
    rw [linkFrom_camera]
    exact ihother

def Deed.size? : Deed α → Option Size
  | .command c => c.size?
  | .link _ => none

/-- The canvas's size after the deeds: that of the last resize, or the one it had. -/
def lastSize (size : Size) (deeds : List (Deed α)) : Size :=
  deeds.foldl (fun size d => d.size?.getD size) size

/-- The viewer that a deed links to, or else the one of before, unless the deed is a resize. -/
def Deed.link? (last : Option (Viewer α)) : Deed α → Option (Viewer α)
  | .link other => some other
  | .command c => if c.size?.isSome then none else last

/-- The viewer that was linked last, if no resize came after it. -/
def lastLink? (deeds : List (Deed α)) : Option (Viewer α) :=
  deeds.foldl Deed.link? none

theorem act_canvas_size (v : Viewer α) (d : Deed α) :
    (v.act d).canvas.size = d.size?.getD v.canvas.size := by
  cases d with
  | command c => exact v.perform_canvas_size c
  | link other => rfl

theorem Run.canvas_size (h : v.Run deeds w) : w.canvas.size = lastSize v.canvas.size deeds := by
  induction h with
  | start => rfl
  | act d _ _ ih =>
    rw [act_canvas_size, ih, lastSize, lastSize, List.foldl_append]
    rfl

/-- The viewport is the linked camera's, or else the canvas's size. -/
def GoesBy (v : Viewer α) (last : Option (Viewer α)) : Prop :=
  v.camera.viewport = last.elim v.canvas.size (·.camera.viewport)

theorem GoesBy.act {last : Option (Viewer α)} (h : v.GoesBy last) (d : Deed α) :
    (v.act d).GoesBy (d.link? last) := by
  unfold GoesBy at h ⊢
  cases d with
  | link other =>
    show (v.linkFrom other).1.camera.viewport = other.camera.viewport
    rw [linkFrom_camera]
  | command c =>
    have hviewport := (v.perform_moved c).viewport
    rw [resize?_viewport] at hviewport
    have hcanvas := v.perform_canvas_size c
    show (v.perform c).1.camera.viewport = _
    cases hsize : c.size? with
    | none => simp_all [Deed.link?, Viewer.act]
    | some size => simp_all [Deed.link?, Viewer.act]

theorem Run.goesBy (h : v.Run deeds w) (hv : v.GoesBy none) : w.GoesBy (lastLink? deeds) := by
  induction h with
  | start => exact hv
  | act d _ _ ih =>
    rw [lastLink?, List.foldl_append]
    exact ih.act d

/-- The camera fits the image to the size and projects from it. -/
structure Uses (v : Viewer α) (size : Size) : Prop where
  viewport : v.camera.viewport = size
  fit : ∀ pose image, (v.camera.fitting pose image).viewport = size
  projection : size.isEmpty = false → v.camera.projection = projectionOf size

theorem Reachable.uses (h : Reachable image v) : v.Uses v.camera.viewport :=
  ⟨rfl, fun _ _ => rfl, h.projects⟩

/-- The wheel zooms about the mouse's place on the canvas, whatever the camera's viewport. -/
theorem wheel_camera (v : Viewer α) (delta : α) (position : Point α)
    (h : v.canvas.size.isEmpty = false) :
    (v.handle (.mouseWheel delta position)).1.camera =
      (v.camera.zoomAt v.stage (v.canvas.size.toDevice position) delta).camera := by
  have hscroll : v.camera.scroll v.stage delta (v.canvas.observe (.mouseWheel delta position)) =
      v.camera.zoomAt v.stage (v.canvas.size.toDevice position) delta := by
    simp [scroll, Canvas.observe, h]
  show (Outcome.answering _ Response.consumed).camera = _
  rw [hscroll, Outcome.answering_camera]

/-- **A camera goes by its own canvas, unless it was linked.** After any run of a new viewer its
canvas has the size of the last resize, or the one it was created with. If no link came after that,
the camera's viewport has this size too, and the fit and, if it is not empty, the projection use it;
else they use that of the camera that was linked last. The wheel always goes by the canvas. -/
theorem goes_by_canvas_unless_linked {settings : Settings α} {size : Size}
    (hv : create image settings size = .ok v) (hrun : v.Run deeds w) :
    w.canvas.size = lastSize size deeds ∧
      (lastLink? deeds = none → w.Uses w.canvas.size) ∧
      (∀ other, lastLink? deeds = some other → w.Uses other.camera.viewport) ∧
      ∀ delta position, w.canvas.size.isEmpty = false →
        (w.handle (.mouseWheel delta position)).1.camera =
          (w.camera.zoomAt w.stage (w.canvas.size.toDevice position) delta).camera := by
  obtain ⟨hmoved, hcanvas⟩ := create_moved hv
  have hstart : v.GoesBy none := by
    rw [GoesBy, hmoved.viewport, hcanvas]
    rfl
  have hgoes : w.GoesBy (lastLink? deeds) := hrun.goesBy hstart
  have huses := (hrun.reachable (.create hv)).uses
  refine ⟨?_, ?_, ?_, fun delta position => w.wheel_camera delta position⟩
  · rw [hrun.canvas_size, hcanvas]
    rfl
  · intro hnone
    have hviewport : w.camera.viewport = w.canvas.size := by rw [hgoes, hnone]; rfl
    exact hviewport ▸ huses
  · intro other hsome
    have hviewport : w.camera.viewport = other.camera.viewport := by rw [hgoes, hsome]; rfl
    exact hviewport ▸ huses

/-- A link from a larger canvas leaves the camera with a viewport that is not its own canvas's. -/
theorem viewport_differs_when_linked :
    ∃ v other : Viewer Float32, create ⟨10, 10⟩ .default ⟨20, 20⟩ = .ok v ∧
      create ⟨10, 10⟩ .default ⟨40, 30⟩ = .ok other ∧
      Reachable ⟨10, 10⟩ (v.linkFrom other).1 ∧
      (v.linkFrom other).1.camera.viewport = ⟨40, 30⟩ ∧
      (v.linkFrom other).1.canvas.size = ⟨20, 20⟩ ∧
      (v.linkFrom other).1.camera.viewport ≠ (v.linkFrom other).1.canvas.size := by
  obtain ⟨v, hv⟩ := create_ok ⟨10, 10⟩ maxPower_default_le ⟨20, 20⟩
  obtain ⟨other, hother⟩ := create_ok ⟨10, 10⟩ maxPower_default_le ⟨40, 30⟩
  have hviewport : (v.linkFrom other).1.camera.viewport = ⟨40, 30⟩ := by
    rw [linkFrom_camera]
    exact (create_moved hother).1.viewport
  have hcanvas : (v.linkFrom other).1.canvas.size = ⟨20, 20⟩ :=
    congrArg Canvas.size (create_moved hv).2
  refine ⟨v, other, hv, hother, .linkFrom (.create hv) (.create hother), hviewport, hcanvas, ?_⟩
  rw [hviewport, hcanvas]
  decide

/-- The case of a link to a larger canvas, and of a resize after it. -/
theorem goes_by_canvas_unless_linked_resized :
    ∃ v other linked resized : Viewer Float32, create ⟨10, 10⟩ .default ⟨20, 20⟩ = .ok v ∧
      create ⟨10, 10⟩ .default ⟨40, 30⟩ = .ok other ∧
      v.Run [.link other] linked ∧ linked.canvas.size = ⟨20, 20⟩ ∧ linked.Uses ⟨40, 30⟩ ∧
      v.Run [.link other, .command (.handle (.resized ⟨50, 50⟩))] resized ∧
      resized.Uses ⟨50, 50⟩ := by
  obtain ⟨v, hv⟩ := create_ok ⟨10, 10⟩ maxPower_default_le ⟨20, 20⟩
  obtain ⟨other, hother⟩ := create_ok ⟨10, 10⟩ maxPower_default_le ⟨40, 30⟩
  have hlink : v.Run [.link other] (v.act (.link other)) := .act _ .start (.link (.create hother))
  have hsettings : (v.act (.link other)).camera.settings = .default := by
    show (v.linkFrom other).1.camera.settings = .default
    rw [linkFrom_camera]
    exact (create_moved hother).1.settings
  have hends := (hlink.reachable (.create hv)).sound.perform_ends
    (hsettings ▸ maxPower_default_le) (.handle (.resized ⟨50, 50⟩))
  have hresize := hlink.act _ (.command _ hends)
  have hviewport : other.camera.viewport = ⟨40, 30⟩ := (create_moved hother).1.viewport
  obtain ⟨hcanvas, -, huses, -⟩ := goes_by_canvas_unless_linked hv hlink
  obtain ⟨hresized, hown, -, -⟩ := goes_by_canvas_unless_linked hv hresize
  rw [hresized] at hown
  exact ⟨v, other, _, _, hv, hother, hlink, hcanvas, hviewport ▸ huses other rfl, hresize, hown rfl⟩

end Viewer

end PanZoom
