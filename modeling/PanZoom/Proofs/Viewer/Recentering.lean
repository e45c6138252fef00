import PanZoom.Proofs.Viewer.Sizes
import PanZoom.Proofs.Viewer.Picture

/-!
# Recentring forgets the history

A recentring drops the pan and looks for the power afresh, and the search reads the posed image, the
viewport and the settings only. A viewer whose image was never turned, with pixels in its viewport,
has all of these in common with a new viewer, and its projection too:

* `Camera.recentered`: the camera that a recentring leaves;
* `Viewer.Current.picture_congr`: viewers with one camera and one pose of the image show the same;
* `Viewer.recentering_forgets_history`: whatever happened before, a recentred viewer shows what a
  new one would show, and a second recentring changes nothing.
-/

namespace PanZoom

variable {α : Type} [Scalar α]

namespace Camera

variable {c : Camera α} {stage : Stage α} {image : ImageBuffer α} {pose : Transform α} {power : α}

def recentered (c : Camera α) (power : α) : Camera α :=
  { c with pan := ⟨0, 0⟩, zoomPower := power }

theorem recenter_of_power?_eq_some (hgeometry : c.bufferGeometry stage = .ok (pose, image))
    (hpower : (c.fitting pose image).power? = some power) :
    c.recenter stage = (c.recentered power).publish stage :=
  fit_of_power?_eq_some (c := { c with pan := ⟨0, 0⟩ }) hgeometry hpower

theorem recenter_of_power?_eq_none (hgeometry : c.bufferGeometry stage = .ok (pose, image))
    (hpower : (c.fitting pose image).power? = none) :
    (c.recenter stage).result = .error .endless :=
  congrArg Outcome.result
    (fit_of_power?_eq_none (c := { c with pan := ⟨0, 0⟩ }) hgeometry hpower)

end Camera

namespace Viewer

open Camera

variable {v w : Viewer α} {image : ImageBuffer α} {deeds : List (Deed α)} {pose : Transform α}
  {power : α}

theorem Current.bufferGeometry (h : v.Current image) (hpose : v.picture.bufferPose = some pose) :
    v.camera.bufferGeometry v.stage = .ok (pose, image) := by
  obtain ⟨node, hnode, -⟩ := h.shown
  have hsame : node.pose = pose := by
    simpa [picture, pose?, hnode] using hpose
  exact hsame ▸ h.bufferGeometry_of_node hnode

/-- Two current viewers with the same camera show the same, if their images are posed alike. -/
theorem Current.picture_congr {shown : ImageBuffer α} (hv : v.Current image) (hw : w.Current shown)
    (hcamera : w.camera = v.camera) (hpose : w.picture.bufferPose = v.picture.bufferPose) :
    w.picture = v.picture := by
  have hpublished {u : Viewer α} {image : ImageBuffer α} (hu : u.Current image) :
      u.picture = ⟨u.camera, some u.camera.viewPose, u.picture.bufferPose⟩ := by
    obtain ⟨node, hnode, hview⟩ := hu.published
    simp [picture, pose?, hnode, hview]
  rw [hpublished hw, hpublished hv, hcamera, hpose]

/-- What recentring a reachable viewer comes to, if a power is found. -/
theorem Reachable.recenter (h : Reachable image v) (hpose : v.picture.bufferPose = some pose)
    (hpower : (v.camera.fitting pose image).power? = some power) :
    v.recenter.2 = .ok () ∧ Reachable image v.recenter.1 ∧
      v.recenter.1.camera = v.camera.recentered power ∧
      v.recenter.1.picture.bufferPose = some pose := by
  have hseated : (v.camera.recentered power).Seated v.stage image :=
    h.current.toSeated.of_nodes rfl rfl
  have hrecenter := recenter_of_power?_eq_some (h.current.bufferGeometry hpose) hpower
  rw [hseated.publish] at hrecenter
  have hok : v.recenter.2 = .ok () := congrArg Outcome.result hrecenter
  have hpermits : v.Permits (.command .recenter) := .command .recenter (ne_endless_of_ok hok)
  exact ⟨hok, h.act hpermits, congrArg Outcome.camera hrecenter,
    (h.current.act_bufferPose hpermits rfl).trans hpose⟩

/-- All viewers look at the same two nodes of their stages. -/
theorem Reachable.nodes (h : Reachable image v) :
    v.camera.node = ⟨1, 0⟩ ∧ v.camera.buffer = ⟨0, 0⟩ := by
  induction h with
  | create h =>
    obtain ⟨hmoved, -⟩ := create_moved h
    exact ⟨hmoved.node, hmoved.buffer⟩
  | @perform image v command _ _ ih =>
    have hmoved := v.perform_moved command
    rw [hmoved.node, hmoved.buffer, resize?_node, resize?_buffer]
    exact ih
  | linkFrom _ _ ih _ =>
    rw [linkFrom_camera]
    exact ih

/-- Without turns the image stays where it is. -/
theorem Run.bufferPose (h : v.Run deeds w) (hv : Reachable image v)
    (hturns : ∀ d ∈ deeds, d.turns = 0) : w.picture.bufferPose = v.picture.bufferPose := by
  induction h with
  | start => rfl
  | act d hrun hd ih =>
    simp only [List.mem_append, List.mem_singleton] at hturns
    have hcurrent := (hrun.reachable hv).current
    exact (hcurrent.act_bufferPose hd (hturns d (.inr rfl))).trans
      (ih fun d hmem => hturns d (.inl hmem))

/-- The camera of a new viewer before its image is fitted. -/
def unfitted (settings : Settings α) (size : Size) : Camera α :=
  (ofNodes ⟨1, 0⟩ ⟨0, 0⟩ settings).resize size

theorem create_of_power?_eq_some {settings : Settings α} {size : Size}
    (hpower : ((unfitted settings size).fitting .identity image).power? = some power) :
    ∃ fresh, create image settings size = .ok fresh ∧
      fresh.camera = (unfitted settings size).recentered power := by
  have hgeometry : (unfitted settings size).bufferGeometry (opening image) =
      .ok (.identity, image) := rfl
  have hseated : ((unfitted settings size).recentered power).Seated (opening image) image :=
    (seated_opening image settings).of_nodes rfl rfl
  have hfit : (ofNodes ⟨1, 0⟩ ⟨0, 0⟩ settings).fitTo (opening image) size =
      ((unfitted settings size).recentered power).publish (opening image) :=
    fit_of_power?_eq_some hgeometry hpower
  rw [create_eq, hfit, hseated.publish]
  exact ⟨_, rfl, rfl⟩

/-- A camera of the same nodes with pixels in its viewport differs from the one of a new viewer in
pan and power only. -/
theorem recentered_eq_unfitted {c : Camera α} (hnodes : c.node = ⟨1, 0⟩ ∧ c.buffer = ⟨0, 0⟩)
    (hprojects : c.Projects) (hpixels : c.viewport.isEmpty = false) (power : α) :
    c.recentered power = (unfitted c.settings c.viewport).recentered power := by
  have hprojection : (unfitted c.settings c.viewport).projection = c.projection := by
    rw [hprojects hpixels]
    exact resize_projects _ _ hpixels
  obtain ⟨node, buffer, settings, projection, pan, zoomPower, viewport⟩ := c
  obtain ⟨rfl, rfl⟩ := hnodes
  simp only at hprojection
  simp only [recentered, hprojection]
  rfl

/-! ## Recentring -/

/-- **Recentring forgets the history.** Take any run of a new viewer without turns, with whatever
events, and with links to viewers that were reached in any way, turns included. If its viewport has
pixels and the recentring ends, then a new viewer of the same image, with the present settings and
the present viewport, can be created, and the recentred viewer shows exactly what that one shows:
the camera is the same, and so are the poses of both nodes. Recentring it again changes none of
them. -/
theorem recentering_forgets_history {settings : Settings α} {size : Size}
    (hv : create image settings size = .ok v) (hrun : v.Run deeds w)
    (hturns : ∀ d ∈ deeds, d.turns = 0) (hpixels : w.camera.viewport.isEmpty = false)
    (hends : w.recenter.2 ≠ .error .endless) :
    ∃ fresh, create image w.camera.settings w.camera.viewport = .ok fresh ∧
      w.recenter.2 = .ok () ∧ w.recenter.1.picture = fresh.picture ∧
      w.recenter.1.recenter.2 = .ok () ∧ w.recenter.1.recenter.1.picture = fresh.picture := by
  have hreached := hrun.reachable (.create hv)
  have hpose : w.picture.bufferPose = some .identity :=
    (hrun.bufferPose (.create hv) hturns).trans (create_bufferPose hv)
  have hgeometry := hreached.current.bufferGeometry hpose
  cases hpower : (w.camera.fitting .identity image).power? with
  | none => exact absurd (recenter_of_power?_eq_none hgeometry hpower) hends
  | some power =>
    obtain ⟨fresh, hfresh, hcamera⟩ :
        ∃ fresh, create image w.camera.settings w.camera.viewport = .ok fresh ∧
          fresh.camera = (unfitted w.camera.settings w.camera.viewport).recentered power :=
      create_of_power?_eq_some hpower
    rw [← recentered_eq_unfitted hreached.nodes hreached.projects hpixels] at hcamera
    have hshows {u : Viewer α} (hu : Reachable image u)
        (hucamera : u.camera = w.camera.recentered power)
        (hupose : u.picture.bufferPose = some .identity) : u.picture = fresh.picture :=
      (create_current hfresh).picture_congr hu.current (hucamera.trans hcamera.symm)
        (hupose.trans (create_bufferPose hfresh).symm)
    obtain ⟨hok, honce, honceCamera, honcePose⟩ := hreached.recenter hpose hpower
    -- A viewer that was only recentred since still has the same to compare.
    have hagain : (w.recenter.1.camera.fitting .identity image).power? = some power := by
      rw [honceCamera]
      exact hpower
    obtain ⟨hokAgain, htwice, htwiceCamera, htwicePose⟩ := honce.recenter honcePose hagain
    rw [honceCamera] at htwiceCamera
    exact ⟨fresh, hfresh, hok, hshows honce honceCamera honcePose, hokAgain,
      hshows htwice htwiceCamera htwicePose⟩

/-- The case of undefined and infinite inputs, an empty canvas and a link to a turned viewer. -/
theorem recentering_forgets_history_linked :
    let commands : List (Command Float32) :=
      [.handle (.mouseWheel (.ofBits 0x7fc00000) ⟨10, 20⟩), .handle (.resized ⟨0, 7⟩),
        .goTo ⟨.ofBits 0x7f800000, 3⟩, .tick]
    ∃ v other w fresh : Viewer Float32, create ⟨200, 100⟩ .default ⟨300, 100⟩ = .ok v ∧
      Reachable ⟨10, 10⟩ other ∧ other.camera.viewport = ⟨40, 30⟩ ∧
      v.Run (commands.map .command ++ [.link other]) w ∧
      create ⟨200, 100⟩ .default ⟨40, 30⟩ = .ok fresh ∧ w.recenter.2 = .ok () ∧
      w.recenter.1.picture = fresh.picture ∧ w.recenter.1.recenter.2 = .ok () ∧
      w.recenter.1.recenter.1.picture = fresh.picture := by
  intro commands
  obtain ⟨v, hv⟩ := create_ok ⟨200, 100⟩ maxPower_default_le ⟨300, 100⟩
  obtain ⟨start, hstart⟩ := create_ok ⟨10, 10⟩ maxPower_default_le ⟨40, 30⟩
  obtain ⟨other, hturned, hotherSettings⟩ :=
    exists_run hstart maxPower_default_le [.rotateClockwise]
  obtain ⟨before, hbefore, -⟩ := exists_run hv maxPower_default_le commands
  have hother := hturned.reachable (.create hstart)
  have hrun := hbefore.act (.link other) (.link hother)
  have hviewport : other.camera.viewport = ⟨40, 30⟩ := by
    have hgoes : start.GoesBy none := by
      rw [GoesBy, (create_moved hstart).1.viewport, (create_moved hstart).2]
      rfl
    rw [hturned.goesBy hgoes]
    show other.canvas.size = _
    rw [hturned.canvas_size, (create_moved hstart).2]
    rfl
  have hcamera : (before.act (.link other)).camera.settings = .default ∧
      (before.act (.link other)).camera.viewport = ⟨40, 30⟩ := by
    have hlinked : (before.act (.link other)).camera = _ := before.linkFrom_camera other
    rw [hlinked]
    exact ⟨hotherSettings, hviewport⟩
  have hends := (hrun.reachable (.create hv)).sound.perform_ends
    (hcamera.1 ▸ maxPower_default_le) .recenter
  have hturns : ∀ d ∈ commands.map .command ++ [Deed.link other], Deed.turns d = 0 := by
    simp [commands, Deed.turns, Command.turns]
  obtain ⟨fresh, hfresh, hshows⟩ :=
    recentering_forgets_history hv hrun hturns (by rw [hcamera.2]; rfl) hends
  rw [hcamera.1, hcamera.2] at hfresh
  exact ⟨v, other, _, fresh, hv, hother, hviewport, hrun, hfresh, hshows⟩

end Viewer

end PanZoom
