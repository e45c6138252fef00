import PanZoom.Proofs.Exact.Counted
import PanZoom.Proofs.Viewer.Refitting
import PanZoom.Proofs.Viewer.Rotation

namespace PanZoom

namespace Transform

variable {K : Type} [Field K] [LinearOrder K] [IsStrictOrderedRing K] [PositiveReading K]

theorem rotation_apply (s c : K) (v : Homogeneous K) :
    rotation s c * v = ⟨c * v.x - s * v.y, s * v.x + c * v.y, v.z, v.w⟩ := by
  show (rotation s c).apply v = _
  simp only [apply, rotation, Homogeneous.dot, Homogeneous.mk.injEq]
  refine ⟨?_, ?_, ?_, ?_⟩ <;> ring

/-- A number of quarter turns is one of four rotations. -/
theorem quarterTurns_cases (n : ℤ) :
    (quarterTurns n : Transform K) = rotation 0 1 ∨ (quarterTurns n : Transform K) = rotation 1 0 ∨
      (quarterTurns n : Transform K) = rotation 0 (-1) ∨
      (quarterTurns n : Transform K) = rotation (-1) 0 := by
  unfold quarterTurns
  rcases emod_four_cases n with h | h | h | h <;> simp [h]

/-- Turning back undoes a turn. -/
theorem quarterTurns_inverse? (n : ℤ) :
    (quarterTurns n : Transform K).inverse? = some (quarterTurns (-n)) := by
  rw [inverse?_eq_some_iff, quarterTurns_mul, neg_add_cancel, quarterTurns_zero]

/-- A turn takes directions of the plane to directions of the plane. -/
theorem quarterTurns_direction (n : ℤ) (x y : K) :
    ∃ x' y', (quarterTurns n : Transform K) * Homogeneous.direction x y = .direction x' y' := by
  obtain ⟨s, c, hpose⟩ : ∃ s c : K, quarterTurns n = rotation s c := by
    rcases quarterTurns_cases (K := K) n with h | h | h | h <;> exact ⟨_, _, h⟩
  rw [hpose, rotation_apply]
  exact ⟨_, _, rfl⟩

end Transform

namespace Camera

variable {K : Type} [Field K] [LinearOrder K] [IsStrictOrderedRing K] [PositiveReading K]
  {c d : Camera K} {stage : Stage K} {image : ImageBuffer K} {power : K} {target : Point K} {n : ℤ}

theorem exists_center (hgeometry : c.bufferGeometry stage = .ok (.quarterTurns n, image)) :
    ∃ target, c.center stage = .ok target := by
  simp [center, hgeometry, Transform.quarterTurns_inverse?]

/-- The way to a point is found again from the pan that brings it to the centre. -/
theorem unposed_panTo (hpan : c.pan = c.panTo (.quarterTurns n) image target) :
    Transform.quarterTurns (-n) * c.scale * Homogeneous.direction c.pan.x c.pan.y =
      .direction (image.center.x - target.x) (image.center.y - target.y) := by
  obtain ⟨x, y, hposed⟩ := Transform.quarterTurns_direction n (image.center.x - target.x)
    (image.center.y - target.y)
  have hpanned : c.pan = ⟨c.zoom * x, c.zoom * y⟩ := by
    simp only [hpan, panTo, unscale, Transform.mul_apply, hposed, Transform.zooming_direction]
    rfl
  calc Transform.quarterTurns (-n) * c.scale * Homogeneous.direction c.pan.x c.pan.y
      = Transform.quarterTurns (-n) * (Homogeneous.direction x y : Homogeneous K) := by
        rw [Transform.mul_apply, scale, hpanned, Transform.zooming_direction, unzoom_zoom,
          unzoom_zoom]
    _ = _ := by
        rw [← hposed, ← Transform.mul_apply, Transform.quarterTurns_mul, neg_add_cancel,
          Transform.quarterTurns_zero, Transform.identity_apply]

/-- A point that was brought to the centre is found there. -/
theorem center_centeredOn (hcamera : c = d.centeredOn (.quarterTurns n) image power target)
    (hgeometry : c.bufferGeometry stage = .ok (.quarterTurns n, image)) :
    c.center stage = .ok target := by
  have hpan : c.pan = c.panTo (.quarterTurns n) image target := by
    rw [hcamera]
    rfl
  simp only [center, hgeometry, Transform.quarterTurns_inverse?, unposed_panTo hpan]
  simp only [Homogeneous.direction, sub_sub_cancel]

end Camera

namespace Viewer

open Camera

variable {K : Type} [Field K] [LinearOrder K] [IsStrictOrderedRing K] [CountedReading K]
  {v w : Viewer K} {image : ImageBuffer K} {deeds : List (Deed K)} {power : K} {target : Point K}
  {n : ℤ}

def Posed (v : Viewer K) (n : ℤ) : Prop :=
  v.picture.bufferPose = some (.quarterTurns n)

theorem create_posed {settings : Settings K} {size : Size}
    (h : create image settings size = .ok v) : v.Posed 0 :=
  (create_bufferPose h).trans (congrArg some Transform.quarterTurns_zero.symm)

theorem Shows.center (h : v.Shows w image (.quarterTurns n) power target) :
    w.camera.center w.stage = .ok target :=
  center_centeredOn h.camera (h.current.bufferGeometry h.posed)

/-- A rotation of a current viewer succeeds, and shows the turned image as its fit finds it, with
the same point at the centre. -/
theorem Current.rotate_shows (h : v.Current image) (hposed : v.Posed n) (turns : ℤ) :
    (v.rotate turns).2 = .ok () ∧ ∃ center power, v.camera.center v.stage = .ok center ∧
      (v.camera.fitting (.quarterTurns (turns + n)) image).power? = some power ∧
      v.Shows (v.rotate turns).1 image (.quarterTurns (turns + n)) power center := by
  obtain ⟨center, hcenter⟩ := exists_center (h.bufferGeometry hposed)
  have hturned : (v.turn turns (.quarterTurns n)).Posed (turns + n) := by
    unfold Posed
    rw [h.turn_bufferPose, Transform.quarterTurns_mul]
  obtain ⟨power, hpower⟩ :=
    (v.camera.fitting (.quarterTurns (turns + n)) image).exists_power?
  obtain ⟨hok, hshows⟩ := (h.turn turns (.quarterTurns n)).refitAbout hturned hpower center
  rw [rotate_eq_refitAbout turns hposed hcenter]
  exact ⟨hok, center, power, hcenter, hpower, hshows.current, hshows.camera, hshows.posed⟩

/-- A deed adds its quarter turns. -/
theorem Posed.act (hposed : v.Posed n) (h : v.Current image) {d : Deed K} (hd : v.Permits d) :
    (v.act d).Posed (d.turns + n) := by
  by_cases hturns : d.turns = 0
  · rw [hturns, zero_add]
    exact (h.act_bufferPose hd hturns).trans hposed
  · obtain ⟨-, center, power, -, -, hshows⟩ := h.rotate_shows hposed d.turns
    rw [(hd.rotate hturns).1]
    exact hshows.posed

theorem Reachable.exists_posed (h : Reachable image v) : ∃ n, v.Posed n := by
  obtain ⟨_, hpose, n, rfl⟩ := h.bufferPose_induction
    (P := fun pose => ∃ n, pose = Transform.quarterTurns n)
    ⟨0, Transform.quarterTurns_zero.symm⟩ (by
      rintro turns _ ⟨n, rfl⟩
      exact ⟨turns + n, Transform.quarterTurns_mul turns n⟩)
  exact ⟨n, hpose⟩

theorem Run.posed (h : v.Run deeds w) (hv : Reachable image v) (hposed : v.Posed n) :
    w.Posed ((deeds.map Deed.turns).sum + n) := by
  induction h with
  | start => simpa using hposed
  | @act deeds w d hrun hd ih =>
    have hsum : ((deeds ++ [d]).map Deed.turns).sum + n =
        d.turns + ((deeds.map Deed.turns).sum + n) := by
      simp only [List.map_append, List.map_cons, List.map_nil, List.sum_append, List.sum_singleton]
      ring
    rw [hsum]
    exact ih.act (hrun.reachable hv).current hd

end Viewer

end PanZoom
