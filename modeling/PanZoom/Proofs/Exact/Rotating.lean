import PanZoom.Proofs.Exact.Turns

/-!
# A rotation keeps the centred point

A rotation reads the centred point under the old pose and the old zoom, and brings it back under the
new ones, whatever they are. So the point survives any number of rotations, and nothing else does:
the power is that of the last fit, and the pan is the one that brings the point back.

* `Viewer.TurnsAbout`: what one rotation keeps and what it does not look at;
* `Viewer.Run.keeps_center`: what a run of rotations keeps;
* `Viewer.rotations_keep_center_and_refit`: every rotation does so, and rotations that come full
  circle have only fitted the image and moved back to the point.
-/

namespace PanZoom.Viewer

open Camera

variable {K : Type} [Field K] [LinearOrder K] [IsStrictOrderedRing K] [CountedReading K]
  {v w : Viewer K} {image : ImageBuffer K} {deeds : List (Deed K)} {pose : Transform K}
  {power : K} {center : Point K} {n : ℤ}

/-- The same point is at the centre, the image is turned on, and the power is the one that a fit of
the turned image finds, whatever the pan and the power were. -/
structure TurnsAbout (v w : Viewer K) (turns : ℤ) : Prop where
  center : ∃ p, v.camera.center v.stage = .ok p ∧ w.camera.center w.stage = .ok p
  pose : ∃ pose, v.picture.bufferPose = some pose ∧
    w.picture.bufferPose = some (.quarterTurns turns * pose)
  power : ∀ pan power,
    ({ v.camera with pan := pan, zoomPower := power }.fit w.stage).result = .ok () ∧
      ({ v.camera with pan := pan, zoomPower := power }.fit w.stage).camera.zoomPower =
        w.camera.zoomPower

/-- A fit of the image that is shown finds the power that it is shown at. -/
theorem Shows.fit (h : v.Shows w image pose power center)
    (hpower : (v.camera.fitting pose image).power? = some power) {c : Camera K}
    (hc : v.camera.Moved c) :
    (c.fit w.stage).result = .ok () ∧ (c.fit w.stage).camera.zoomPower = w.camera.zoomPower := by
  have hmoved : v.camera.Moved w.camera := by
    rw [h.camera]
    rfl
  have hnode : c.node = w.camera.node := hc.node.trans hmoved.node.symm
  have hbuffer : c.buffer = w.camera.buffer := hc.buffer.trans hmoved.buffer.symm
  have hgeometry : c.bufferGeometry w.stage = .ok (pose, image) :=
    (bufferGeometry_congr hbuffer rfl).trans (h.current.bufferGeometry h.posed)
  have hseated : ({ c with zoomPower := power } : Camera K).Seated w.stage image :=
    h.current.toSeated.of_nodes hnode hbuffer
  rw [← hc.fitting] at hpower
  rw [fit_of_power?_eq_some hgeometry hpower, hseated.publish, h.camera]
  exact ⟨rfl, rfl⟩

theorem Current.rotate_turnsAbout (h : v.Current image) (hposed : v.Posed n) (turns : ℤ) :
    v.TurnsAbout (v.rotate turns).1 turns := by
  obtain ⟨-, center, power, hcenter, hpower, hshows⟩ := h.rotate_shows hposed turns
  refine ⟨⟨center, hcenter, hshows.center⟩, ⟨_, hposed, ?_⟩, fun pan q => hshows.fit hpower rfl⟩
  rw [hshows.posed, Transform.quarterTurns_mul]

theorem Reachable.rotates (h : Reachable image v) {c : Command K} (hturns : c.turns ≠ 0) :
    (v.perform c).2 = .ok () ∧ v.TurnsAbout (v.perform c).1 c.turns := by
  obtain ⟨n, hposed⟩ := h.exists_posed
  rcases Command.eq_rotate hturns with rfl | rfl
  · exact ⟨(h.current.rotate_shows hposed 1).1, h.current.rotate_turnsAbout hposed 1⟩
  · exact ⟨(h.current.rotate_shows hposed (-1)).1, h.current.rotate_turnsAbout hposed (-1)⟩

def AllRotate (deeds : List (Deed K)) : Prop :=
  ∀ d ∈ deeds, d.turns ≠ 0

/-- No rotation stops a viewer from rotating on. -/
theorem Reachable.exists_rotations (h : Reachable image v) (commands : List (Command K))
    (hrotate : ∀ c ∈ commands, c.turns ≠ 0) : ∃ w, v.Run (commands.map .command) w := by
  induction commands using List.reverseRecOn with
  | nil => exact ⟨v, .start⟩
  | append_singleton commands c ih =>
    obtain ⟨w, hrun⟩ := ih fun e hmem => hrotate e (by simp [hmem])
    have hok := ((hrun.reachable h).rotates (hrotate c (by simp))).1
    rw [List.map_append]
    exact ⟨_, .act (.command c) hrun (.command c (ne_endless_of_ok hok))⟩

/-- A run of rotations keeps the centred point, and all of the camera but its pan and power. -/
theorem Run.keeps_center (hrun : v.Run deeds w) (h : Reachable image v) (hrotate : AllRotate deeds)
    (hcenter : v.camera.center v.stage = .ok center) :
    w.camera.center w.stage = .ok center ∧ v.camera.Moved w.camera := by
  obtain ⟨n, hposed⟩ := h.exists_posed
  induction hrun with
  | start => exact ⟨hcenter, .refl _⟩
  | @act deeds u d hbefore hd ih =>
    have hturns : d.turns ≠ 0 := hrotate d (by simp)
    obtain ⟨hkept, hmoved⟩ := ih fun e hmem => hrotate e (by simp [hmem])
    have hcurrent := (hbefore.reachable h).current
    obtain ⟨-, found, power, hfound, -, hshows⟩ :=
      hcurrent.rotate_shows (hbefore.posed h hposed) d.turns
    -- The point that the rotation finds is the one that was kept so far.
    obtain rfl : found = center := Except.ok.inj (hfound.symm.trans hkept)
    rw [(hd.rotate hturns).1]
    exact ⟨hshows.center, hmoved.trans (u.rotate_moved d.turns)⟩

/-- **Rotations keep the centred point and refit.** Every rotation of a reachable viewer, at any pan
and zoom, succeeds. The same point is at the centre before and after it, and the power is the one
that a fit finds for the turned image, whatever the power was. One or more rotations that come full
circle leave the picture, so the camera and both poses, that one fit leaves and a move to the point
that was at the centre. -/
theorem rotations_keep_center_and_refit (h : Reachable image v) :
    (∀ c : Command K, c.turns ≠ 0 →
      (v.perform c).2 = .ok () ∧ v.TurnsAbout (v.perform c).1 c.turns) ∧
    ∀ deeds w, v.Run deeds w → deeds ≠ [] → AllRotate deeds → (deeds.map Deed.turns).sum % 4 = 0 →
      ∃ center, v.camera.center v.stage = .ok center ∧ (v.refitAbout center).2 = .ok () ∧
        w.picture = (v.refitAbout center).1.picture := by
  refine ⟨fun c => h.rotates, ?_⟩
  intro deeds w hrun hsome hrotate hcircle
  obtain ⟨n, hposed⟩ := h.exists_posed
  obtain ⟨center, hcenter⟩ := exists_center (h.current.bufferGeometry hposed)
  -- What the rotations before the last one keep is enough to tell what that one leaves.
  cases hrun with
  | start => exact absurd rfl hsome
  | @act before u d hbefore hd =>
    have hreached := hbefore.reachable h
    obtain ⟨hkept, hmoved⟩ :=
      hbefore.keeps_center h (fun e hmem => hrotate e (by simp [hmem])) hcenter
    obtain ⟨-, found, power, hfound, hpower, hshows⟩ :=
      hreached.current.rotate_shows (hbefore.posed h hposed) d.turns
    obtain rfl : found = center := Except.ok.inj (hfound.symm.trans hkept)
    have hback : (Transform.quarterTurns (d.turns + ((before.map Deed.turns).sum + n)) :
        Transform K) = .quarterTurns n := by
      apply Transform.quarterTurns_congr
      simp only [List.map_append, List.map_cons, List.map_nil, List.sum_append,
        List.sum_singleton] at hcircle
      omega
    rw [hback] at hpower hshows
    rw [hmoved.fitting] at hpower
    have hshown : v.Shows (u.act d) image (.quarterTurns n) power found := by
      rw [(hd.rotate (hrotate d (by simp))).1]
      exact ⟨hshows.current, hshows.camera.trans (hmoved.centeredOn found), hshows.posed⟩
    obtain ⟨hok, hrefits⟩ := h.current.refitAbout hposed hpower found
    exact ⟨found, hcenter, hok, hshown.picture_eq hrefits⟩

/-- The case of a viewer over the rational numbers that was moved away from the middle of the image
and rotated clockwise four times. -/
theorem rotations_keep_center_and_refit_moved :
    ∃ v w : Viewer ℚ, Reachable ⟨200, 100⟩ v ∧ v.camera.center v.stage = .ok ⟨30, 10⟩ ∧
      v.Run (List.replicate 4 (.command .rotateClockwise)) w ∧
      (v.refitAbout ⟨30, 10⟩).2 = .ok () ∧ w.picture = (v.refitAbout ⟨30, 10⟩).1.picture := by
  let image : ImageBuffer ℚ := ⟨200, 100⟩
  obtain ⟨power, hpower⟩ :=
    ((unfitted .doubling ⟨300, 100⟩).fitting .identity image).exists_power?
  obtain ⟨start, hstart, -⟩ := create_of_power?_eq_some hpower
  have hposed := create_posed hstart
  have hgeometry := (create_current hstart).bufferGeometry hposed
  have hcentered : (start.camera.centeredOn (.quarterTurns 0) image start.camera.zoomPower
      ⟨30, 10⟩).Seated start.stage image := (create_current hstart).toSeated.of_nodes rfl rfl
  have hmove := (moveTo_of_bufferGeometry hgeometry ⟨30, 10⟩).trans hcentered.publish
  have hends : (start.perform (.goTo ⟨30, 10⟩)).2 ≠ .error .endless :=
    ne_endless_of_ok (congrArg Outcome.result hmove)
  have hreached : Reachable image (start.goTo ⟨30, 10⟩).1 := .perform _ (.create hstart) hends
  have hstill : (start.goTo ⟨30, 10⟩).1.Posed 0 :=
    ((create_current hstart).act_bufferPose (.command _ hends) rfl).trans hposed
  have hcenter := center_centeredOn (congrArg Outcome.camera hmove)
    (hreached.current.bufferGeometry hstill)
  obtain ⟨w, hrun⟩ := hreached.exists_rotations (List.replicate 4 .rotateClockwise) (by
    simp [Command.turns])
  obtain ⟨center, hfound, hok, hsame⟩ := (rotations_keep_center_and_refit hreached).2 _ w hrun
    (by simp) (by simp [AllRotate, Deed.turns, Command.turns]) (by rfl)
  obtain rfl : center = ⟨30, 10⟩ := Except.ok.inj (hfound.symm.trans hcenter)
  exact ⟨_, w, hreached, hcenter, hrun, hok, hsame⟩

end PanZoom.Viewer
