import PanZoom.Proofs.Camera.Frame
import PanZoom.Proofs.Exact.Inverse

/-!
# Steps of zoom about one anchor add up

In exact arithmetic a zoom about an anchor scales the way of the pan to the panned position `u` of
that anchor on screen. The position `u` is found through the projection alone, so it is the same
before and after the zoom, and one zoom after another scales that way by both factors:

* `Camera.zoomedTo`: the camera at another power, zoomed about a position;
* `Camera.zoomAt_leaves`: what one zoom leaves behind;
* `Camera.zoomAll_leaves`: what a list of zooms leaves behind depends on their sum only;
* `Camera.zoom_steps_add_up`: so steps about one anchor can be joined, taken back and reordered.
-/

namespace PanZoom

variable {K : Type} [Field K] [LinearOrder K] [IsStrictOrderedRing K] [ExactReading K]

/-- Points are taken to points and directions to directions. -/
def Transform.KeepsWeight (m : Transform K) : Prop :=
  ∀ v : Homogeneous K, (m * v).w = v.w

theorem Transform.KeepsWeight.of_inverse? {m n : Transform K} (h : m.KeepsWeight)
    (hinverse : m.inverse? = some n) : n.KeepsWeight := by
  intro v
  have hback : m * (n * v) = v := by
    rw [← mul_apply, mul_eq_identity_comm.mp (mul_of_inverse? hinverse), identity_apply]
  calc (n * v).w = (m * (n * v)).w := (h _).symm
    _ = v.w := by rw [hback]

section

variable {α : Type} [Scalar α] {c d e : Camera α} {stage : Stage α} {o o' : Outcome α Unit}

/-- The camera's node carries the camera's view. -/
def Camera.Published (c : Camera α) (stage : Stage α) : Prop :=
  ∃ node, stage.node? c.node = some node ∧ node.pose = c.viewPose

namespace Outcome

/-- The operation succeeds with the given camera, whose view is published, and has touched no node
of the stage but that camera's. -/
structure Leaves (o : Outcome α Unit) (d : Camera α) (stage : Stage α) : Prop where
  succeeds : o.result = .ok ()
  camera : o.camera = d
  published : d.Published o.stage
  others : ∀ id, id ≠ d.node → o.stage.node? id = stage.node? id

/-- Both operations succeed and leave the same camera, and every node in the same pose. -/
structure SameView (o o' : Outcome α Unit) : Prop where
  succeeds : o.result = .ok ()
  succeeds' : o'.result = .ok ()
  camera : o.camera = o'.camera
  poses : ∀ id, (o.stage.node? id).map Node.pose = (o'.stage.node? id).map Node.pose

theorem Leaves.sameView (h : o.Leaves d stage) (h' : o'.Leaves d stage) : o.SameView o' := by
  refine ⟨h.succeeds, h'.succeeds, h.camera.trans h'.camera.symm, ?_⟩
  intro id
  by_cases hid : id = d.node
  · obtain ⟨node, hnode, hpose⟩ := h.published
    obtain ⟨node', hnode', hpose'⟩ := h'.published
    rw [hid, hnode, hnode', Option.map_some, Option.map_some, hpose, hpose']
  · rw [h.others id hid, h'.others id hid]

theorem Leaves.done (h : c.Published stage) : (done c stage ()).Leaves c stage :=
  ⟨rfl, rfl, h, fun _ _ => rfl⟩

theorem Leaves.andThen {next : Camera α → Stage α → Unit → Outcome α Unit} (h : o.Leaves d stage)
    (hnext : ∀ after, d.Published after → (next d after ()).Leaves e after)
    (hnode : e.node = d.node) : (o.andThen next).Leaves e stage := by
  have hgoes : o.andThen next = next d o.stage () := by
    simp only [Outcome.andThen, h.succeeds, h.camera]
  obtain ⟨hsucceeds, hcamera, hpublished, hothers⟩ := hnext o.stage h.published
  rw [hgoes]
  refine ⟨hsucceeds, hcamera, hpublished, ?_⟩
  intro id hid
  exact (hothers id hid).trans (h.others id (hnode ▸ hid))

end Outcome

namespace Camera

theorem publish_leaves (h : ∃ node, stage.node? c.node = some node) :
    (c.publish stage).Leaves c stage := by
  obtain ⟨node, hnode⟩ := h
  have hpublish : c.publish stage = .done c (stage.update c.node (·.publish c.viewPose)) () := by
    simp only [Camera.publish, hnode]
  rw [hpublish]
  refine ⟨rfl, rfl, ⟨node.publish c.viewPose, ?_, rfl⟩, ?_⟩
  · simp only [Outcome.done, Stage.node?_update_self, hnode, Option.map_some]
  · intro id hid
    exact stage.node?_update_of_ne _ hid

def zoomAll (c : Camera α) (stage : Stage α) (anchor : Homogeneous α) : List α → Outcome α Unit
  | [] => .done c stage ()
  | delta :: steps =>
    (c.zoomAt stage anchor delta).andThen fun c stage _ => c.zoomAll stage anchor steps

end Camera

end

namespace Camera

open Outcome Transform

variable {c : Camera K} {stage : Stage K} {unproject : Transform K} {a u : Homogeneous K}

/-- By how much the zoom at another power is larger. -/
def growth (c : Camera K) (power : K) : K :=
  Scalar.pow c.settings.zoomFactor (power - c.zoomPower)

/-- The camera at another power, with the way from the pan to a position on screen scaled along. -/
def zoomedTo (c : Camera K) (u : Homogeneous K) (power : K) : Camera K :=
  { c with
    pan := ⟨u.x - (u.x - c.pan.x) * c.growth power, u.y - (u.y - c.pan.y) * c.growth power⟩
    zoomPower := power }

theorem growth_self (c : Camera K) : c.growth c.zoomPower = 1 := by
  unfold growth
  rw [sub_self]
  exact ExactReading.power_zero c.settings.isZoomFactor.2

theorem growth_zoomedTo (c : Camera K) (u : Homogeneous K) (p q : K) :
    c.growth p * (c.zoomedTo u p).growth q = c.growth q := by
  have hsum : q - c.zoomPower = (p - c.zoomPower) + (q - p) := by ring
  unfold growth
  rw [hsum]
  exact (ExactReading.power_add _ _ c.settings.isZoomFactor.2).symm

/-- The growth is the reciprocal of the factor that a zoom scales the view by. -/
theorem one_div_pow_neg (c : Camera K) (power : K) :
    1 / Scalar.pow c.settings.zoomFactor (-(power - c.zoomPower)) = c.growth power := by
  have hbase : 1 < c.settings.zoomFactor := c.settings.isZoomFactor.2
  have hback : Scalar.pow c.settings.zoomFactor (-(power - c.zoomPower)) ≠ 0 :=
    (PositiveReading.power_pos _ hbase).ne'
  rw [div_eq_iff hback]
  refine Eq.trans ?_ (ExactReading.power_add _ _ hbase)
  rw [add_neg_cancel]
  exact (ExactReading.power_zero hbase).symm

/-- A camera is zoomed nowhere by no steps. -/
theorem zoomedTo_self (c : Camera K) (u : Homogeneous K) : c.zoomedTo u c.zoomPower = c := by
  simp [zoomedTo, growth_self]

/-- Of two zooms about one position the second one's power counts. -/
theorem zoomedTo_zoomedTo (c : Camera K) (u : Homogeneous K) (p q : K) :
    (c.zoomedTo u p).zoomedTo u q = c.zoomedTo u q := by
  have haxis (t pan : K) : t - (t - (t - (t - pan) * c.growth p)) * (c.zoomedTo u p).growth q =
      t - (t - pan) * c.growth q := by
    rw [← growth_zoomedTo c u p q]
    ring
  have hpan : ((c.zoomedTo u p).zoomedTo u q).pan = (c.zoomedTo u q).pan :=
    congrArg₂ Point.mk (haxis u.x c.pan.x) (haxis u.y c.pan.y)
  calc (c.zoomedTo u p).zoomedTo u q
      = { c.zoomedTo u q with pan := ((c.zoomedTo u p).zoomedTo u q).pan } := rfl
    _ = c.zoomedTo u q := by rw [hpan]

/-- The folded composite of a zoom is the camera zoomed about the unprojected anchor. -/
theorem fold_anchorPosition (c : Camera K) {n : Transform K} (hweight : (n * a).w = 1) (power : K) :
    c.fold (c.anchoredScale (c.anchorPosition c.viewPose n a) (power - c.zoomPower)) power =
      c.zoomedTo (n * a) power := by
  have haxis (t pan : K) : pan - (t - pan) * (c.growth power - 1) =
      t - (t - pan) * c.growth power := by
    ring
  rw [anchorPosition_viewPose, fold_anchoredScale]
  simp only [one_div_pow_neg, hweight, mul_one, haxis]
  rfl

/-- A zoom within the bounds leaves the camera zoomed about the unprojected anchor. -/
theorem zoomAt_leaves (hpublished : c.Published stage)
    (hinverse : c.projection.inverse? = some unproject) (hweight : (unproject * a).w = 1)
    {delta : K} (hwithin : |c.zoomPower + delta| ≤ c.settings.maxPower) :
    (c.zoomAt stage a delta).Leaves (c.zoomedTo (unproject * a) (c.zoomPower + delta)) stage := by
  obtain ⟨hlow, hhigh⟩ := abs_le.mp hwithin
  have htarget : c.targetPower? delta = some (c.zoomPower + delta) := by
    unfold targetPower?
    rw [Scalar.clamp?_of_le (hlow.trans hhigh), min_eq_right hhigh, max_eq_right hlow]
  by_cases hstays : delta = 0
  · have hdone : c.zoomAt stage a delta = .done c stage () := by
      rw [zoomAt, htarget]
      simp [hstays]
    have hsame : c.zoomedTo (unproject * a) (c.zoomPower + delta) = c := by
      rw [hstays, add_zero, zoomedTo_self]
    rw [hdone, hsame]
    exact .done hpublished
  · obtain ⟨node, hnode, hpose⟩ := hpublished
    have hpublish : c.zoomAt stage a delta =
        (c.zoomedTo (unproject * a) (c.zoomPower + delta)).publish stage := by
      rw [← fold_anchorPosition c hweight, ← hpose]
      simp [zoomAt, htarget, hnode, hinverse, hstays]
    rw [hpublish]
    exact publish_leaves ⟨node, hnode⟩

/-! ## Many zooms -/

/-- From the given power on, every step ends within the bounds. -/
def Permits (c : Camera K) : (power : K) → List K → Prop
  | _, [] => True
  | power, delta :: steps =>
    |power + delta| ≤ c.settings.maxPower ∧ c.Permits (power + delta) steps

theorem permits_zoomedTo {p power : K} {steps : List K} :
    (c.zoomedTo u p).Permits power steps ↔ c.Permits power steps := by
  induction steps generalizing power with
  | nil => exact Iff.rfl
  | cons delta steps ih => exact and_congr_right fun _ => ih

/-- A list of zooms leaves what one zoom by their sum would. -/
theorem zoomAll_leaves {steps : List K} (hpublished : c.Published stage)
    (hinverse : c.projection.inverse? = some unproject) (hweight : (unproject * a).w = 1)
    (hpermits : c.Permits c.zoomPower steps) :
    (c.zoomAll stage a steps).Leaves
      (c.zoomedTo (unproject * a) (c.zoomPower + steps.sum)) stage := by
  induction steps generalizing c stage with
  | nil =>
    rw [List.sum_nil, add_zero, zoomedTo_self]
    exact .done hpublished
  | cons delta steps ih =>
    obtain ⟨hwithin, hrest⟩ := hpermits
    have hstep := zoomAt_leaves hpublished hinverse hweight hwithin
    refine hstep.andThen (fun after hafter => ?_) rfl
    -- What the first zoom leaves has published and projects as before: the rest starts alike.
    have hall := ih hafter hinverse (permits_zoomedTo.mpr hrest)
    rw [zoomedTo_zoomedTo] at hall
    rwa [List.sum_cons, ← add_assoc]

/-- Powers of two may grow to sixteen at least. -/
theorem four_le_powerLimit_two : (4 : ℝ) ≤ Scalar.powerLimit (2 : ℝ) := by
  have hlog : 4 * Real.log 2 ≤ Real.log (10 ^ 18) := by
    have hpower : 4 * Real.log 2 = Real.log (2 ^ 4) := by simp
    rw [hpower]
    exact Real.log_le_log (by norm_num) (by norm_num)
  have hfloor : (4 : ℤ) ≤ ⌊Real.log (10 ^ 18) / Real.log 2⌋ := by
    rw [Int.le_floor, le_div_iff₀ (Real.log_pos one_lt_two)]
    exact_mod_cast hlog
  show (4 : ℝ) ≤ (⌊Real.log (10 ^ 18) / Real.log 2⌋ : ℝ)
  exact_mod_cast hfloor

/-- The projection can be undone and takes points to points. -/
structure ProjectsPoints (c : Camera K) : Prop where
  invertible : ∃ unproject, c.projection.inverse? = some unproject
  keepsWeight : c.projection.KeepsWeight

theorem IsProjected.projectsPoints (h : c.IsProjected) : c.ProjectsPoints := by
  obtain ⟨s, hx, hy, hz, hs⟩ := h.exists_scaling
  refine ⟨⟨_, hs ▸ inverse?_scaling hx hy hz⟩, ?_⟩
  intro v
  rw [hs, scaling_apply]

/-- **Steps of zoom about one anchor add up.** Every camera that operations can lead to has a
projection that can be undone and keeps points points. With such a projection and a published view,
zooms about a point of the device that stay within the bounds leave the camera and the poses that
one zoom by their sum leaves. So a step and its opposite change nothing, and the order of steps does
not count. -/
theorem zoom_steps_add_up (c : Camera K) :
    (c.Reachable → c.ProjectsPoints) ∧
    (c.ProjectsPoints → ∀ stage, c.Published stage → ∀ a : Homogeneous K, a.w = 1 →
      (∀ d₁ d₂, |c.zoomPower + d₁| ≤ c.settings.maxPower →
        |c.zoomPower + d₁ + d₂| ≤ c.settings.maxPower →
        SameView
          ((c.zoomAt stage a d₁).andThen fun after stage _ => after.zoomAt stage a d₂)
          (c.zoomAt stage a (d₁ + d₂))) ∧
      (∀ d, |c.zoomPower| ≤ c.settings.maxPower → |c.zoomPower + d| ≤ c.settings.maxPower →
        SameView
          ((c.zoomAt stage a d).andThen fun after stage _ => after.zoomAt stage a (-d))
          (.done c stage ())) ∧
      (∀ steps steps' : List K, steps.Perm steps' → c.Permits c.zoomPower steps →
        c.Permits c.zoomPower steps' →
        SameView (c.zoomAll stage a steps) (c.zoomAll stage a steps'))) := by
  refine ⟨fun hreachable => hreachable.isProjected.projectsPoints, ?_⟩
  rintro ⟨⟨unproject, hinverse⟩, hkeeps⟩ stage hpublished a ha
  have hweight : (unproject * a).w = 1 := (hkeeps.of_inverse? hinverse a).trans ha
  have htwo (d₁ d₂ : K) (h₁ : |c.zoomPower + d₁| ≤ c.settings.maxPower)
      (h₂ : |c.zoomPower + d₁ + d₂| ≤ c.settings.maxPower) :
      ((c.zoomAt stage a d₁).andThen fun after stage _ => after.zoomAt stage a d₂).Leaves
        (c.zoomedTo (unproject * a) (c.zoomPower + d₁ + d₂)) stage := by
    have hfirst := zoomAt_leaves hpublished hinverse hweight h₁
    refine hfirst.andThen (fun after hafter => ?_) rfl
    have hsecond := zoomAt_leaves hafter hinverse hweight h₂
    rwa [zoomedTo_zoomedTo] at hsecond
  refine ⟨?_, ?_, ?_⟩
  · intro d₁ d₂ h₁ h₂
    have hsum := add_assoc c.zoomPower d₁ d₂
    have hone := zoomAt_leaves hpublished hinverse hweight (hsum ▸ h₂)
    exact (htwo d₁ d₂ h₁ h₂).sameView (hsum ▸ hone)
  · intro d h₀ h
    have hback : c.zoomPower + d + -d = c.zoomPower := add_neg_cancel_right _ _
    have hboth := htwo d (-d) h (hback.symm ▸ h₀)
    rw [hback, zoomedTo_self] at hboth
    exact hboth.sameView (.done hpublished)
  · intro steps steps' hperm hsteps hsteps'
    have hleft := zoomAll_leaves hpublished hinverse hweight hsteps
    have hright := zoomAll_leaves hpublished hinverse hweight hsteps'
    rw [← hperm.sum_eq] at hright
    exact hleft.sameView hright

/-- The case of a camera over the real numbers that was given a viewport and dragged aside, and of
three steps in and one out about an anchor away from the centre. -/
theorem zoom_steps_add_up_aside :
    ∃ (c : Camera ℝ) (stage : Stage ℝ), c.Reachable ∧ c.pan = ⟨3, -1⟩ ∧
      SameView
        ((c.zoomAt stage (.point (1 / 2) (1 / 4)) 3).andThen fun after stage _ =>
          after.zoomAt stage (.point (1 / 2) (1 / 4)) (-1))
        (c.zoomAt stage (.point (1 / 2) (1 / 4)) (3 + -1)) := by
  have hfactor : IsZoomFactor (2 : ℝ) := ⟨rfl, one_lt_two⟩
  have hstep : IsPanStep (1 : ℝ) := ⟨rfl, zero_lt_one⟩
  let stage : Stage ℝ := ⟨[⟨0, some ⟨cameraName, .ofPose .identity⟩⟩], []⟩
  let sized : Camera ℝ :=
    (ofNodes ⟨0, 0⟩ ⟨1, 0⟩ ⟨2, 1, .default, hfactor, hstep⟩).resize ⟨4, 2⟩
  let dragged := sized.drag stage ⟨3, -1⟩
  have hleaves : dragged.Leaves dragged.camera stage :=
    publish_leaves (c := { sized with pan := ⟨0 + 3, 0 + -1⟩ }) ⟨_, rfl⟩
  have hends : dragged.result ≠ .error .endless := by
    rw [hleaves.succeeds]
    rintro ⟨⟩
  have hsized : sized.Reachable := .act stage (.resize ⟨4, 2⟩) (.start _ _ _) (by rintro ⟨⟩)
  have hreachable : dragged.camera.Reachable := .act stage (.drag ⟨3, -1⟩) hsized hends
  have hpan : dragged.camera.pan = ⟨3, -1⟩ :=
    congrArg₂ Point.mk (zero_add 3) (zero_add (-1))
  have hpower : dragged.camera.zoomPower = 0 := rfl
  have hlimit : 4 ≤ dragged.camera.settings.maxPower := four_le_powerLimit_two
  have hthree : |dragged.camera.zoomPower + 3| ≤ dragged.camera.settings.maxPower := by
    rw [hpower]
    exact le_trans (by norm_num) hlimit
  have htwo : |dragged.camera.zoomPower + 3 + -1| ≤ dragged.camera.settings.maxPower := by
    rw [hpower]
    exact le_trans (by norm_num) hlimit
  obtain ⟨hplain, hsame⟩ := zoom_steps_add_up dragged.camera
  exact ⟨dragged.camera, dragged.stage, hreachable, hpan,
    (hsame (hplain hreachable) _ hleaves.published _ rfl).1 3 (-1) hthree htwo⟩

end Camera

end PanZoom
