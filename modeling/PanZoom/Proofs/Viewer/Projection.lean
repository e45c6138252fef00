import PanZoom.Proofs.Viewer.Picture
import PanZoom.Proofs.Viewer.Success

/-!
# Which viewport a projection belongs to

A camera keeps its projection while its viewport is empty, and does not keep the viewport that the
projection is from. That one is a matter of history:

* `Viewer.History`: how a viewer came about, with how the viewers that it was linked to came about.
  `Viewer.reachable_iff_leads` says that the viewers with a history are those that can be reached;
* `Viewer.History.sizes`: the sizes that a camera goes by. A link puts those of the other camera in
  the place of its own, while `Viewer.History.reached` keeps count of them all;
* `Camera.Recalls`: a projection is that of the last size with pixels. No operation forgets it;
* `Viewer.projection_of_last_pixels`: so it is in every viewer, and no resize moves the view;
* `Viewer.projection_lost_by_link`: a camera that is linked to one without a projection has none.
-/

namespace PanZoom

variable {α : Type} [Scalar α] {c d : Camera α}

/-- The last of the sizes that has pixels. -/
def lastPixels? (sizes : List Size) : Option Size :=
  sizes.reverse.find? (!·.isEmpty)

theorem lastPixels?_append (older newer : List Size) :
    lastPixels? (older ++ newer) = (lastPixels? newer).or (lastPixels? older) := by
  rw [lastPixels?, List.reverse_append, List.find?_append, lastPixels?, lastPixels?]

theorem lastPixels?_singleton (size : Size) :
    lastPixels? [size] = if size.isEmpty then none else some size := by
  cases h : size.isEmpty <;> simp [lastPixels?, h]

namespace Camera

/-- The projection is that of the last size with pixels, if there was one, and this size is the
viewport, if the viewport has pixels. -/
structure Recalls (c : Camera α) (last? : Option Size) : Prop where
  projection : c.projection = last?.elim .identity projectionOf
  viewport : c.viewport.isEmpty = false → last? = some c.viewport

theorem recalls_ofNodes (node buffer : NodeId) (settings : Settings α) :
    (ofNodes node buffer settings).Recalls none := by
  refine ⟨rfl, ?_⟩
  rintro ⟨⟩

theorem Recalls.resize {sizes : List Size} (h : c.Recalls (lastPixels? sizes)) (size : Size) :
    (c.resize size).Recalls (lastPixels? (sizes ++ [size])) := by
  rw [lastPixels?_append, lastPixels?_singleton]
  cases hsize : size.isEmpty with
  | true =>
    refine ⟨?_, fun hpixels => ?_⟩
    · simp [Camera.resize, hsize, h.projection]
    · have hempty : (c.resize size).viewport.isEmpty = true := hsize
      rw [hempty] at hpixels
      cases hpixels
  | false =>
    refine ⟨?_, fun _ => rfl⟩
    simp [Camera.resize, hsize]

theorem Recalls.resize? {sizes : List Size} (h : c.Recalls (lastPixels? sizes))
    (size? : Option Size) : (c.resize? size?).Recalls (lastPixels? (sizes ++ size?.toList)) := by
  cases size? with
  | none =>
    rw [Option.toList_none, List.append_nil]
    exact h
  | some size => exact h.resize size

/-- Pan and zoom play no part in it, nor do the nodes. -/
theorem Recalls.congr {last? : Option Size} (h : c.Recalls last?)
    (hprojection : d.projection = c.projection) (hviewport : d.viewport = c.viewport) :
    d.Recalls last? := by
  constructor
  · rw [hprojection, h.projection]
  · rw [hviewport]
    exact h.viewport

end Camera

namespace Viewer

variable {v w : Viewer α} {image : ImageBuffer α}

/-- How a viewer came about: it was created, took a command, or was linked to another one. -/
inductive History (α : Type) [Scalar α] where
  | create (image : ImageBuffer α) (settings : Settings α) (size : Size)
  | perform (past : History α) (command : Command α)
  | link (past other : History α)

/-- The history leads to the viewer. Every command of it has ended. -/
inductive Leads : History α → Viewer α → Prop
  | create {image : ImageBuffer α} {settings : Settings α} {size : Size} {v : Viewer α} :
      Viewer.create image settings size = .ok v → Leads (.create image settings size) v
  | perform {past : History α} {v : Viewer α} (command : Command α) :
      Leads past v → (v.perform command).2 ≠ .error .endless →
      Leads (.perform past command) (v.perform command).1
  | link {past other : History α} {v w : Viewer α} :
      Leads past v → Leads other w → Leads (.link past other) (v.linkFrom w).1

namespace History

/-- The sizes that the camera goes by, the oldest first. A link drops those of before and takes over
those of the other camera. -/
def sizes : History α → List Size
  | create _ _ size => [size]
  | perform past command => past.sizes ++ command.size?.toList
  | link _ other => other.sizes

/-- All sizes that have ever reached the camera, with those that links have brought. -/
def reached : History α → List Size
  | create _ _ size => [size]
  | perform past command => past.reached ++ command.size?.toList
  | link past other => past.reached ++ other.reached

/-- If the camera goes by a size with pixels, it is the last one that has reached the camera. -/
theorem lastPixels?_reached (history : History α) {size : Size}
    (h : lastPixels? history.sizes = some size) : lastPixels? history.reached = some size := by
  induction history generalizing size with
  | create => exact h
  | perform past command ih =>
    rw [sizes, lastPixels?_append] at h
    rw [reached, lastPixels?_append]
    cases hnew : lastPixels? command.size?.toList with
    | some new =>
      rw [hnew, Option.some_or] at h
      rw [Option.some_or, h]
    | none =>
      rw [hnew, Option.none_or] at h
      rw [Option.none_or, ih h]
  | link past other _ ihother =>
    -- The sizes of the other camera have come last, and one of them has pixels.
    rw [reached, lastPixels?_append, ihother h]
    rfl

end History

variable {history : History α}

theorem Leads.reachable (h : Leads history v) : ∃ image, Reachable image v := by
  induction h with
  | create h => exact ⟨_, .create h⟩
  | perform command _ hends ih =>
    obtain ⟨image, hreachable⟩ := ih
    exact ⟨image, hreachable.perform command hends⟩
  | link _ _ ih ihother =>
    obtain ⟨image, hreachable⟩ := ih
    obtain ⟨shown, hother⟩ := ihother
    exact ⟨image, hreachable.linkFrom hother⟩

theorem Reachable.leads (h : Reachable image v) : ∃ history, Leads history v := by
  induction h with
  | create h => exact ⟨_, .create h⟩
  | perform command _ hends ih =>
    obtain ⟨past, hpast⟩ := ih
    exact ⟨_, hpast.perform command hends⟩
  | linkFrom _ _ ih ihother =>
    obtain ⟨past, hpast⟩ := ih
    obtain ⟨other, hother⟩ := ihother
    exact ⟨_, hpast.link hother⟩

theorem reachable_iff_leads : (∃ image, Reachable image v) ↔ ∃ history, Leads history v :=
  ⟨fun ⟨_, h⟩ => h.leads, fun ⟨_, h⟩ => h.reachable⟩

theorem Leads.recalls (h : Leads history v) : v.camera.Recalls (lastPixels? history.sizes) := by
  induction h with
  | @create image settings size v h =>
    have hmoved := (create_moved h).1
    have hstart : (Camera.ofNodes ⟨1, 0⟩ ⟨0, 0⟩ settings).Recalls (lastPixels? []) :=
      Camera.recalls_ofNodes _ _ _
    exact (hstart.resize? (some size)).congr hmoved.projection hmoved.viewport
  | @perform past v command _ _ ih =>
    have hmoved := v.perform_moved command
    exact (ih.resize? command.size?).congr hmoved.projection hmoved.viewport
  | link _ _ _ ihother =>
    -- A link takes over projection and viewport together.
    rw [linkFrom_camera]
    exact ihother.congr rfl rfl

/-- Pan and zoom power are what they were, and the camera's node has the pose that it had. -/
structure KeepsView (v w : Viewer α) : Prop where
  pan : w.camera.pan = v.camera.pan
  zoomPower : w.camera.zoomPower = v.camera.zoomPower
  pose : pose? w.stage w.camera.node = pose? v.stage v.camera.node

theorem Current.pose?_eq (h : v.Current image) :
    pose? v.stage v.camera.node = some v.camera.viewPose := by
  obtain ⟨node, hnode, hpose⟩ := h.published
  rw [pose?, hnode, Option.map_some, hpose]

/-- A resize publishes the pose that was published before. -/
theorem Current.resized_keepsView (h : v.Current image) (size : Size) :
    (v.handle (.resized size)).2 = .ok .consumed ∧
      v.KeepsView (v.handle (.resized size)).1 := by
  obtain ⟨hok, hcamera⟩ := h.handle_resized size
  have hafter := (h.handle_settles (ne_endless_of_ok hok)).current h
  refine ⟨hok, ?_, ?_, ?_⟩
  · rw [hcamera]
    rfl
  · rw [hcamera]
    rfl
  · rw [hafter.pose?_eq, h.pose?_eq, hcamera]
    rfl

/-! ## The projection of every viewer -/

/-- **The projection belongs to the last viewport with pixels.** Whatever has happened to a viewer,
its camera projects from the last size with pixels that it goes by, be it from its creation, from a
resize or from the camera that it was linked to last, and from the identity if there is none. While
its viewport has pixels, it is that size. No later size with pixels has ever reached the camera: it
is only that a link may leave it without any. A resize to any size leaves pan, zoom power and the
published pose as they are. -/
theorem projection_of_last_pixels :
    (∀ v : Viewer α, (∃ image, Reachable image v) ↔ ∃ history, Leads history v) ∧
      ∀ (history : History α) (v : Viewer α), Leads history v →
        v.camera.Recalls (lastPixels? history.sizes) ∧
          (∀ size, lastPixels? history.sizes = some size →
            lastPixels? history.reached = some size) ∧
          ∀ size, (v.handle (.resized size)).2 = .ok .consumed ∧
            v.KeepsView (v.handle (.resized size)).1 := by
  refine ⟨fun v => reachable_iff_leads, fun history v h => ?_⟩
  obtain ⟨image, hreachable⟩ := h.reachable
  exact ⟨h.recalls, fun _ => history.lastPixels?_reached,
    fun size => hreachable.current.resized_keepsView size⟩

/-- A camera with a projection loses it by a link to one that has not seen any pixels yet, although
the size that it was created with is still the last one with pixels that has reached it. -/
theorem projection_lost_by_link :
    let image : ImageBuffer Float32 := ⟨40, 30⟩
    let history : History Float32 :=
      .link (.create image .default ⟨40, 30⟩) (.create image .default ⟨0, 0⟩)
    ∃ v, Leads history v ∧ lastPixels? history.reached = some ⟨40, 30⟩ ∧
      v.camera.projection = .identity ∧
      v.camera.projection ≠ Camera.projectionOf ⟨40, 30⟩ := by
  intro image history
  obtain ⟨v, hv⟩ := create_ok image maxPower_default_le ⟨40, 30⟩
  obtain ⟨other, hother⟩ := create_ok image maxPower_default_le ⟨0, 0⟩
  have hprojection : (v.linkFrom other).1.camera.projection = .identity := by
    rw [linkFrom_camera]
    exact (create_moved hother).1.projection
  have hne : (.identity : Transform Float32) ≠ Camera.projectionOf ⟨40, 30⟩ := by
    with_unfolding_all decide
  refine ⟨_, .link (.create hv) (.create hother), by decide, hprojection, ?_⟩
  rw [hprojection]
  exact hne

/-- The case of a viewer that was created without pixels, linked to one that has some, and resized
to a canvas without height. -/
theorem projection_of_last_pixels_resized :
    let image : ImageBuffer Float32 := ⟨10, 10⟩
    let linked : History Float32 :=
      .link (.create image .default ⟨0, 0⟩) (.create image .default ⟨40, 30⟩)
    let history : History Float32 := .perform linked (.handle (.resized ⟨7, 0⟩))
    ∃ v, Leads history v ∧ v.camera.viewport = ⟨7, 0⟩ ∧
      v.camera.projection = Camera.projectionOf ⟨40, 30⟩ := by
  intro image linked history
  obtain ⟨v, hv⟩ := create_ok image maxPower_default_le ⟨0, 0⟩
  obtain ⟨other, hother⟩ := create_ok image maxPower_default_le ⟨40, 30⟩
  have hlinked : Leads linked (v.linkFrom other).1 := .link (.create hv) (.create hother)
  have hok := ((projection_of_last_pixels.2 linked _ hlinked).2.2 ⟨7, 0⟩).1
  have hends : ((v.linkFrom other).1.perform (.handle (.resized ⟨7, 0⟩))).2 ≠ .error .endless :=
    map_ne_endless_iff.mpr (ne_endless_of_ok hok)
  have hresized := hlinked.perform (.handle (.resized ⟨7, 0⟩)) hends
  have hviewport := ((v.linkFrom other).1.perform_moved (.handle (.resized ⟨7, 0⟩))).viewport
  obtain ⟨hrecalls, -, -⟩ := projection_of_last_pixels.2 history _ hresized
  exact ⟨_, hresized, hviewport, hrecalls.projection⟩

end Viewer

end PanZoom
