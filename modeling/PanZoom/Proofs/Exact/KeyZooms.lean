import PanZoom.Proofs.Exact.Center
import PanZoom.Proofs.Viewer.KeyPress
import PanZoom.Proofs.Viewer.Recentering

/-!
# Zooming by keys keeps the centred point

A zoom key zooms about the centre of the device, which every projection takes from the origin. So
the pan grows as the zoom does, and taken back through the zoom it stays the same. On that, on the
image and on its pose the centred point depends, and on nothing else:

* `Camera.unzoomedPan`: the pan before the zoom. `Camera.center_of_unzoomedPan` says that cameras
  that share it have one centred point;
* `Camera.zoomAt_middle`: what a zoom about the centre leaves, also where the bounds cut it short;
* `Viewer.ZoomsBy`: presses that zoom, releases of keys and resizes, in any order;
* `Viewer.key_zooms_keep_center`: the centred point outlives them all.
-/

namespace PanZoom

section

variable {K : Type} [Field K] [LinearOrder K] [IsStrictOrderedRing K] [ExactReading K]

/-- The power within the bounds of the settings that is nearest to the given one. -/
def Settings.nearestPower (s : Settings K) (power : K) : K :=
  max (-s.maxPower) (min s.maxPower power)

theorem Settings.nearestPower_of_abs_le {s : Settings K} {power : K} (h : |power| ≤ s.maxPower) :
    s.nearestPower power = power := by
  obtain ⟨hlow, hhigh⟩ := abs_le.mp h
  rw [nearestPower, min_eq_right hhigh, max_eq_right hlow]

namespace Camera

variable {c d : Camera K} {stage after : Stage K} {image : ImageBuffer K}
  {pose unpose : Transform K}

/-- The pan, in units of the posed image. -/
def unzoomedPan (c : Camera K) : Point K :=
  ⟨1 / c.zoom * c.pan.x, 1 / c.zoom * c.pan.y⟩

/-- Over an image whose pose can be undone there is a centred point, and any camera with the same
unzoomed pan has the same one. -/
theorem center_of_unzoomedPan (hc : c.bufferGeometry stage = .ok (pose, image))
    (hd : d.bufferGeometry after = .ok (pose, image)) (hunpose : unpose * pose = .identity)
    (hpan : d.unzoomedPan = c.unzoomedPan) :
    ∃ p, c.center stage = .ok p ∧ d.center after = .ok p := by
  have hinverse : pose.inverse? = some unpose := Transform.inverse?_eq_some_iff.mpr hunpose
  -- The way to the centred point looks at zoom and pan only together, as the unzoomed pan.
  have hway : d.wayFor unpose = c.wayFor unpose :=
    congrArg (fun pan : Point K =>
      Point.mk (unpose * Homogeneous.direction pan.x pan.y).x
        (unpose * Homogeneous.direction pan.x pan.y).y) hpan
  refine ⟨_, center_eq hc hinverse, ?_⟩
  rw [center_eq hd hinverse, hway]

theorem zoom_zoomedTo (c : Camera K) (u : Homogeneous K) (power : K) :
    (c.zoomedTo u power).zoom = c.zoom * c.growth power := by
  have hsum := ExactReading.power_add c.zoomPower (power - c.zoomPower) c.settings.isZoomFactor.2
  rw [add_sub_cancel] at hsum
  exact hsum

/-- About the centre the pan grows as the zoom does. -/
theorem unzoomedPan_zoomedTo (c : Camera K) (power : K) :
    (c.zoomedTo (.point 0 0) power).unzoomedPan = c.unzoomedPan := by
  have hzoom : c.zoom ≠ 0 := c.zoom_pos.ne'
  have hgrowth : c.growth power ≠ 0 := (PositiveReading.power_pos _ c.settings.isZoomFactor.2).ne'
  -- On each axis the growth of the pan cancels against that of the zoom.
  have haxis (pan : K) : 1 / (c.zoom * c.growth power) * (0 - (0 - pan) * c.growth power) =
      1 / c.zoom * pan := by
    field_simp
    ring
  unfold unzoomedPan
  rw [zoom_zoomedTo]
  exact congrArg₂ Point.mk (haxis c.pan.x) (haxis c.pan.y)

/-- The centre of the device is the origin on screen, so a zoom about it succeeds and leaves the
camera zoomed about the origin, as far as the bounds allow. -/
theorem zoomAt_middle (hpublished : c.Published stage) (hprojected : c.IsProjected) (delta : K) :
    (c.zoomAt stage (.point 0 0) delta).result = .ok () ∧
      (c.zoomAt stage (.point 0 0) delta).camera =
        c.zoomedTo (.point 0 0) (c.settings.nearestPower (c.zoomPower + delta)) := by
  obtain ⟨node, hnode, hpose⟩ := hpublished
  obtain ⟨s, hx, hy, hz, hs⟩ := hprojected.exists_scaling
  obtain ⟨hresult, hcamera⟩ := zoomAt_exact hnode hpose hx hy hz hs (.point 0 0) delta
  have horigin : Transform.scaling ⟨1 / s.x, 1 / s.y, 1 / s.z, 1⟩ * (.point 0 0 : Homogeneous K) =
      .point 0 0 := by
    simp [Transform.scaling_apply, Homogeneous.point]
  rw [fold_anchorPosition c (by rw [horigin]; rfl), horigin] at hcamera
  exact ⟨hresult, hcamera⟩

end Camera

end

namespace Viewer

/-! ## Presses that zoom -/

section

variable {α : Type} [Scalar α] {v w : Viewer α} {key : Key} {modifiers : Modifiers} {step : α}

/-- The press zooms by a step: the bound modifier is held with it, and the first of the bound keys
that are held then is the one for zooming in or the one for zooming out. -/
inductive PressZooms (v : Viewer α) (key : Key) (modifiers : Modifiers) : α → Prop
  | zoomIn : v.camera.settings.bindings.modifier.isHeld modifiers = true →
      (v.keyboard.press key).isHeld v.camera.settings.bindings.zoomIn = true →
      PressZooms v key modifiers 1
  | zoomOut : v.camera.settings.bindings.modifier.isHeld modifiers = true →
      (v.keyboard.press key).isHeld v.camera.settings.bindings.zoomIn = false →
      (v.keyboard.press key).isHeld v.camera.settings.bindings.zoomOut = true →
      PressZooms v key modifiers (-1)

/-- A press of the key for zooming in always does so. -/
theorem pressZooms_zoomIn (h : v.camera.settings.bindings.modifier.isHeld modifiers = true) :
    v.PressZooms v.camera.settings.bindings.zoomIn modifiers 1 := by
  apply PressZooms.zoomIn h
  rw [Keyboard.isHeld_press, decide_eq_true rfl, Bool.true_or]

theorem PressZooms.handled (h : v.PressZooms key modifiers step) :
    v.handled (.keyPressed key modifiers) =
      (v.camera.zoomAt v.stage (.point 0 0) step).answering .consumed := by
  have hacts := v.handled_actsBy key modifiers
  cases h with
  | zoomIn hmodifier hin => exact hacts.zoomIn hmodifier hin
  | zoomOut hmodifier hin hout =>
    exact hacts.zoomOut hmodifier (Bool.eq_false_iff.mp hin) hout

/-- The events lead from one viewer to the other. They are resizes, releases of keys, and presses
that zoom, by these steps. -/
inductive ZoomsBy (v : Viewer α) : List (Event α) → List α → Viewer α → Prop
  | start : ZoomsBy v [] [] v
  | resized {events : List (Event α)} {steps : List α} {w : Viewer α} (size : Size) :
      ZoomsBy v events steps w →
      ZoomsBy v (events ++ [.resized size]) steps (w.handle (.resized size)).1
  | released {events : List (Event α)} {steps : List α} {w : Viewer α} (key : Key)
      (modifiers : Modifiers) : ZoomsBy v events steps w →
      ZoomsBy v (events ++ [.keyReleased key modifiers]) steps
        (w.handle (.keyReleased key modifiers)).1
  | pressed {events : List (Event α)} {steps : List α} {w : Viewer α} {key : Key}
      {modifiers : Modifiers} {step : α} : ZoomsBy v events steps w →
      w.PressZooms key modifiers step →
      ZoomsBy v (events ++ [.keyPressed key modifiers]) (steps ++ [step])
        (w.handle (.keyPressed key modifiers)).1

end

section

variable {K : Type} [Field K] [LinearOrder K] [IsStrictOrderedRing K] [ExactReading K]
  {u v w : Viewer K} {image : ImageBuffer K} {key : Key} {modifiers : Modifiers} {step : K}
  {events : List (Event K)} {steps : List K}

/-- What zooms about the centre keep, and the power that their steps come to. -/
structure ZoomedInPlace (v w : Viewer K) (steps : List K) : Prop where
  bufferPose : w.picture.bufferPose = v.picture.bufferPose
  settings : w.camera.settings = v.camera.settings
  unzoomedPan : w.camera.unzoomedPan = v.camera.unzoomedPan
  zoomPower : w.camera.zoomPower =
    steps.foldl (fun power step => v.camera.settings.nearestPower (power + step)) v.camera.zoomPower

theorem ZoomedInPlace.refl (v : Viewer K) : v.ZoomedInPlace v [] :=
  ⟨rfl, rfl, rfl, rfl⟩

theorem ZoomedInPlace.trans {more : List K} (h : v.ZoomedInPlace w steps)
    (h' : w.ZoomedInPlace u more) : v.ZoomedInPlace u (steps ++ more) := by
  refine ⟨h'.bufferPose.trans h.bufferPose, h'.settings.trans h.settings,
    h'.unzoomedPan.trans h.unzoomedPan, ?_⟩
  rw [h'.zoomPower, h.settings, h.zoomPower, List.foldl_append]

/-- A resize leaves pan and power alone. -/
theorem Reachable.resized_inPlace (h : Reachable image v) (size : Size) :
    Reachable image (v.handle (.resized size)).1 ∧
      v.ZoomedInPlace (v.handle (.resized size)).1 [] := by
  obtain ⟨hok, hcamera⟩ := h.current.handle_resized size
  obtain ⟨hreachable, hpose⟩ := h.handle hok
  refine ⟨hreachable, hpose, ?_, ?_, ?_⟩ <;> rw [hcamera] <;> rfl

/-- A press that zooms succeeds, and goes as far as the bounds allow. -/
theorem Reachable.pressed_inPlace (h : Reachable image v)
    (hpress : v.PressZooms key modifiers step) :
    Reachable image (v.handle (.keyPressed key modifiers)).1 ∧
      v.ZoomedInPlace (v.handle (.keyPressed key modifiers)).1 [step] := by
  have hhandled := hpress.handled
  obtain ⟨hresult, hzoomed⟩ := Camera.zoomAt_middle h.current.published h.isProjected step
  have hok : (v.handle (.keyPressed key modifiers)).2 = .ok .consumed :=
    (congrArg Outcome.result hhandled).trans (Outcome.answering_result hresult _)
  have hcamera : (v.handle (.keyPressed key modifiers)).1.camera = v.camera.zoomedTo (.point 0 0)
      (v.camera.settings.nearestPower (v.camera.zoomPower + step)) := by
    rw [← hzoomed, ← Outcome.answering_camera _ Response.consumed]
    exact congrArg Outcome.camera hhandled
  obtain ⟨hreachable, hpose⟩ := h.handle hok
  refine ⟨hreachable, hpose, ?_, ?_, ?_⟩ <;> rw [hcamera]
  · rfl
  · exact v.camera.unzoomedPan_zoomedTo _
  · rfl

/-- A run of zooms about the centre ends in a reachable viewer. -/
theorem ZoomsBy.zoomedInPlace (h : v.ZoomsBy events steps w) (hv : Reachable image v) :
    Reachable image w ∧ v.ZoomedInPlace w steps := by
  induction h with
  | start => exact ⟨hv, .refl v⟩
  | @resized events steps w size _ ih =>
    obtain ⟨hw, hkept⟩ := ih
    obtain ⟨hreachable, hstep⟩ := hw.resized_inPlace size
    rw [← List.append_nil steps]
    exact ⟨hreachable, hkept.trans hstep⟩
  | @released events steps w key modifiers _ ih =>
    obtain ⟨hw, hkept⟩ := ih
    have hok : (w.handle (.keyReleased key modifiers)).2 = .ok .ignored := rfl
    exact ⟨(hw.handle hok).1, hkept.bufferPose, hkept.settings, hkept.unzoomedPan, hkept.zoomPower⟩
  | @pressed events steps w key modifiers step _ hpress ih =>
    obtain ⟨hw, hkept⟩ := ih
    obtain ⟨hreachable, hstep⟩ := hw.pressed_inPlace hpress
    exact ⟨hreachable, hkept.trans hstep⟩

/-- The pose of the image of a reachable viewer can be undone. -/
theorem Reachable.exists_unpose (h : Reachable image v) :
    ∃ pose, v.picture.bufferPose = some pose ∧ ∃ unpose, unpose * pose = .identity := by
  apply h.bufferPose_induction
  · exact ⟨.identity, Transform.identity_compose _⟩
  · rintro turns pose ⟨unpose, hunpose⟩
    refine ⟨unpose * .quarterTurns (-turns), ?_⟩
    calc unpose * .quarterTurns (-turns) * (.quarterTurns turns * pose)
        = unpose * (.quarterTurns (-turns) * .quarterTurns turns * pose) := by
          simp only [Transform.compose_assoc]
      _ = unpose * pose := by
          rw [Transform.quarterTurns_mul, neg_add_cancel, Transform.quarterTurns_zero,
            Transform.identity_compose]
      _ = .identity := hunpose

/-- A viewer over the real numbers that was given a canvas and sent to a point aside. A step of its
zoom is a factor of two. -/
theorem exists_aside :
    ∃ v : Viewer ℝ, Reachable ⟨200, 100⟩ v ∧ v.camera.settings.zoomFactor = 2 ∧
      v.camera.settings.bindings = .default ∧ v.camera.pan = ⟨70, 40⟩ ∧
      v.camera.viewport = ⟨300, 100⟩ ∧ v.camera.zoomPower = 0 := by
  let settings : Settings ℝ := ⟨2, 1, .default, ⟨rfl, one_lt_two⟩, ⟨rfl, zero_lt_one⟩⟩
  have hpower : ((unfitted settings ⟨0, 0⟩).fitting .identity ⟨200, 100⟩).power? = some 0 := by
    simp [Fitting.power?, Fitting.isDegenerate, Camera.fitting, unfitted, Camera.resize,
      Size.isEmpty]
  obtain ⟨fresh, hfresh, hunfitted⟩ := create_of_power?_eq_some hpower
  obtain ⟨hresized, hcamera⟩ := (create_current hfresh).handle_resized ⟨300, 100⟩
  obtain ⟨hsized, hkept⟩ := (Reachable.create hfresh).handle hresized
  generalize (fresh.handle (.resized ⟨300, 100⟩)).1 = sized at hcamera hsized hkept
  have hgeometry := hsized.current.bufferGeometry (hkept.trans (create_bufferPose hfresh))
  have hzoom : sized.camera.zoom = 1 := by
    rw [hcamera, hunfitted]
    exact ExactReading.power_zero one_lt_two
  have hmiddle : (⟨200, 100⟩ : ImageBuffer ℝ).center = ⟨100, 50⟩ := by
    have htwo : (Scalar.two : ℝ) = 2 := one_add_one_eq_two
    simp only [ImageBuffer.center, htwo]
    norm_num
  have hpan : sized.camera.panFor .identity ⟨100 - 30, 50 - 10⟩ = ⟨70, 40⟩ := by
    simp only [Camera.panFor, Transform.identity_apply, hzoom, Homogeneous.direction]
    norm_num
  have hseated : { sized.camera with pan := ⟨70, 40⟩ }.Seated sized.stage ⟨200, 100⟩ :=
    hsized.current.toSeated.of_nodes rfl rfl
  have hgoes := Camera.moveTo_eq hgeometry ⟨30, 10⟩
  rw [hmiddle, hpan, hseated.publish] at hgoes
  have hmoved : (sized.goTo ⟨30, 10⟩).1.camera = { sized.camera with pan := ⟨70, 40⟩ } :=
    congrArg Outcome.camera hgoes
  rw [hcamera, hunfitted] at hmoved
  have hok : (sized.goTo ⟨30, 10⟩).2 = .ok () := congrArg Outcome.result hgoes
  have hsettings : (sized.goTo ⟨30, 10⟩).1.camera.settings = settings :=
    congrArg Camera.settings hmoved
  exact ⟨_, hsized.perform (.goTo ⟨30, 10⟩) (ne_endless_of_ok hok),
    congrArg Settings.zoomFactor hsettings, congrArg Settings.bindings hsettings,
    congrArg Camera.pan hmoved, congrArg Camera.viewport hmoved, congrArg Camera.zoomPower hmoved⟩

/-- **Zooming by keys keeps the centred point.** From every reachable viewer, with whatever pan and
orientation of its image, any presses that zoom in or out, with releases of keys and resizes among
them, leave at the centre the point of the image that was there. Each press zooms by its step as far
as the bounds allow, which may be not at all. -/
theorem key_zooms_keep_center (hv : Reachable image v) (hzooms : v.ZoomsBy events steps w) :
    ∃ p, v.camera.center v.stage = .ok p ∧ w.camera.center w.stage = .ok p ∧
      w.camera.zoomPower =
        steps.foldl (fun power step => v.camera.settings.nearestPower (power + step))
          v.camera.zoomPower := by
  obtain ⟨hw, hkept⟩ := hzooms.zoomedInPlace hv
  obtain ⟨pose, hpose, unpose, hunpose⟩ := hv.exists_unpose
  have hsame : w.picture.bufferPose = some pose := hkept.bufferPose.trans hpose
  obtain ⟨p, hcenter, hafter⟩ := Camera.center_of_unzoomedPan (hv.current.bufferGeometry hpose)
    (hw.current.bufferGeometry hsame) hunpose hkept.unzoomedPan
  exact ⟨p, hcenter, hafter, hkept.zoomPower⟩

/-- The case of a viewer over the real numbers that was sent to a point aside, and of two presses
with a resize to an empty canvas between them. -/
theorem key_zooms_keep_center_aside :
    ∃ (v w : Viewer ℝ) (p : Point ℝ), Reachable ⟨200, 100⟩ v ∧ v.camera.pan = ⟨70, 40⟩ ∧
      v.camera.viewport = ⟨300, 100⟩ ∧ v.camera.zoomPower = 0 ∧
      v.ZoomsBy [.keyPressed .plus control, .resized ⟨0, 7⟩, .keyPressed .plus control] [1, 1] w ∧
      v.camera.center v.stage = .ok p ∧ w.camera.center w.stage = .ok p ∧
      w.camera.zoomPower = 2 := by
  obtain ⟨v, hv, hfactor, hbindings, hpan, hviewport, hpower⟩ := exists_aside
  have hpress {w : Viewer ℝ} (hw : w.camera.settings = v.camera.settings) :
      w.PressZooms .plus control 1 := by
    have hplus : w.PressZooms w.camera.settings.bindings.zoomIn control 1 :=
      pressZooms_zoomIn (by rw [hw, hbindings]; rfl)
    rwa [hw, hbindings] at hplus
  have hresized := (ZoomsBy.start.pressed (hpress rfl)).resized ⟨0, 7⟩
  have htwice := hresized.pressed (hpress (hresized.zoomedInPlace hv).2.settings)
  obtain ⟨p, hcenter, hafter, hzoomed⟩ := key_zooms_keep_center hv htwice
  refine ⟨v, _, p, hv, hpan, hviewport, hpower, htwice, hcenter, hafter, hzoomed.trans ?_⟩
  have hlimit : 4 ≤ v.camera.settings.maxPower := by
    unfold Settings.maxPower
    rw [hfactor]
    exact Camera.four_le_powerLimit_two
  have hstep (power : ℝ) (h : |power| ≤ 4) : v.camera.settings.nearestPower power = power :=
    Settings.nearestPower_of_abs_le (h.trans hlimit)
  rw [hpower]
  show v.camera.settings.nearestPower (v.camera.settings.nearestPower (0 + 1) + 1) = 2
  rw [hstep (0 + 1) (by norm_num), hstep (0 + 1 + 1) (by norm_num)]
  norm_num

end

end Viewer

end PanZoom
