import PanZoom.Proofs.Camera.Frame
import PanZoom.Proofs.Precision.Pivot

/-!
# Why a camera does not fail

A camera looks up two nodes, inverts two matrices and takes a power between two bounds. On a stage
with both nodes the lookups succeed, and the bounds of any settings are in order. What is left are
the matrices, in single precision:

* `Camera.IsProjected.exists_inverse?`: the projection of any viewport can be inverted;
* `Camera.turned`: the four poses that quarter turns lead to. All can be inverted;
* `Camera.Invertible`: a camera with such a projection that looks at an image in such a pose. No
  operation makes it another;
* `Camera.Answers`: hence no operation of such a camera fails, unless a search for a fit never ends.
-/

namespace PanZoom

open Precision Single

namespace Single

variable {x y : Float32} {i j k l : ℤ}

/-- A quotient of numbers between powers of two. -/
theorem div_within_zpow (hx : Within x (2 ^ i) (2 ^ j)) (hy : Within y (2 ^ k) (2 ^ l))
    (hlow : -149 ≤ i - l) (hij : i - l ≤ j - k) (hhigh : j - k ≤ 127) :
    Within (x / y) (2 ^ (i - l)) (2 ^ (j - k)) := by
  have hxpos : 0 < toRat x := lt_of_lt_of_le (by positivity) hx.le
  have hypos : 0 < toRat y := lt_of_lt_of_le (by positivity) hy.le
  have hle : (2 : ℚ) ^ (i - l) ≤ toRat x / toRat y := by
    rw [zpow_sub₀ two_ne_zero]
    exact div_le_div₀ hxpos.le hx.le hypos hy.ge
  have hge : toRat x / toRat y ≤ (2 : ℚ) ^ (j - k) := by
    rw [zpow_sub₀ two_ne_zero]
    exact div_le_div₀ (by positivity) hx.ge (by positivity) hy.le
  have hroom : |toRat x / toRat y| ≤ roomy .binary32 := by
    rw [abs_of_pos (div_pos hxpos hypos), roomy_single]
    exact hge.trans (zpow_le_zpow_right₀ one_le_two hhigh)
  have hmin : (Machine.format Float32).minExponent = -149 := rfl
  exact (div_roundsTo hx.finite hy.finite hypos.ne' hroom).within
    (.two_zpow (hmin ▸ hlow)) (.two_zpow (hmin ▸ hlow.trans hij)) hle hge

/-- A number of pixels. -/
theorem ofCount_within {n : UInt32} (h : n ≠ 0) :
    Within (Scalar.ofCount n : Float32) (2 ^ (0 : ℤ)) (2 ^ (32 : ℤ)) := by
  have hpos : 1 ≤ n.toNat := Nat.pos_of_ne_zero fun hn => h (UInt32.toNat_inj.mp hn)
  have hlt : n.toNat ≤ 2 ^ 32 := n.toNat_lt.le
  have hmin : (Machine.format Float32).minExponent = -149 := rfl
  refine (toFloat32_roundsTo n).within (.two_zpow (hmin ▸ by norm_num))
    (.two_zpow (hmin ▸ by norm_num)) ?_ ?_
  · exact_mod_cast hpos
  · exact_mod_cast hlt

/-- The scale of a projection along an axis with pixels. -/
theorem leads_reciprocal {n : UInt32} (h : n ≠ 0) :
    Elimination.Leads ((1 : Float32) / (Scalar.ofCount n / Scalar.two)) := by
  have htwo : Within (Scalar.two : Float32) (2 ^ (1 : ℤ)) (2 ^ (1 : ℤ)) := by
    with_unfolding_all decide
  have hone : Within (1 : Float32) (2 ^ (0 : ℤ)) (2 ^ (0 : ℤ)) := by
    with_unfolding_all decide
  have hhalf := div_within_zpow (ofCount_within h) htwo (by norm_num) (by norm_num) (by norm_num)
  have hscale := div_within_zpow hone hhalf (by norm_num) (by norm_num) (by norm_num)
  refine leads hscale.finite ?_
  refine le_trans ?_ (le_trans hscale.le (le_abs_self _))
  norm_num

theorem leads_one : Elimination.Leads (1 : Float32) := by
  have hone : Within (1 : Float32) 1 1 := one_within
  refine leads hone.finite ?_
  rw [hone.eq]
  norm_num

theorem leads_neg_one : Elimination.Leads (-1 : Float32) := by
  have hone : Within (-1 : Float32) (-1) (-1) := by with_unfolding_all decide
  refine leads hone.finite ?_
  rw [hone.eq]
  norm_num

end Single

theorem Fitting.searchEnds_of_maxPower_le {f : Fitting Float32} {s : Settings Float32}
    (hsettings : f.settings = s) (h : toRat s.maxPower ≤ 2 ^ 24) : f.SearchEnds := by
  subst hsettings
  obtain ⟨n, -, hlimit⟩ := f.exists_limit
  have hfew : toRat f.limit ≤ 2 ^ 24 := h
  rw [hlimit.eq] at hfew
  exact Fitting.searchEnds hlimit (by exact_mod_cast hfew)

theorem maxPower_default_le : toRat Settings.default.maxPower ≤ 2 ^ 24 := by
  rw [Settings.maxPower_le_iff]
  with_unfolding_all decide

namespace Camera

theorem exists_inverse?_identity :
    ∃ n, (Transform.identity : Transform Float32).inverse? = some n := by
  refine Transform.exists_inverse? ?_ ?_
  · intro i j hij
    fin_cases i <;> fin_cases j <;> first | exact absurd rfl hij | rfl
  · intro i
    fin_cases i <;> exact leads_one

theorem exists_inverse?_projectionOf {size : Size} (h : size.isEmpty = false) :
    ∃ n, (projectionOf size : Transform Float32).inverse? = some n := by
  have hpixels : size.width ≠ 0 ∧ size.height ≠ 0 := by
    simpa [Size.isEmpty] using h
  have hzero : Scalar.agrees (0 : Float32) 0 = true := by with_unfolding_all decide
  have hdepth : Scalar.agrees (-((1 : Float32) + -1) / (1 - -1)) 0 = true := by
    with_unfolding_all decide
  refine Transform.exists_inverse? ?_ ?_
  · intro i j hij
    fin_cases i <;> fin_cases j <;>
      first | exact absurd rfl hij | exact hzero | exact hdepth
  · intro i
    fin_cases i
    · exact leads_reciprocal hpixels.1
    · exact leads_reciprocal hpixels.2
    · exact leads_neg_one
    · exact leads_one

variable {c d : Camera Float32} {stage : Stage Float32} {image : ImageBuffer Float32}
  {pose : Transform Float32}

theorem IsProjected.exists_inverse? (h : c.IsProjected) :
    ∃ n, c.projection.inverse? = some n := by
  rcases h with hidentity | ⟨size, hpixels, hsize⟩
  · rw [hidentity]
    exact exists_inverse?_identity
  · rw [hsize]
    exact exists_inverse?_projectionOf hpixels

/-! ## The pose of the image -/

/-- The poses that quarter turns lead to, counter-clockwise in turn. -/
def turned : Fin 4 → Transform Float32
  | 0 => .identity
  | 1 => .quarterTurns 1
  | 2 => .quarterTurns 1 * .quarterTurns 1
  | 3 => .quarterTurns (-1)

/-- A quarter turn leads from one of the poses to the next, without rounding. -/
theorem quarterTurn_turned : ∀ k : Fin 4, .quarterTurns 1 * turned k = turned (k + 1) := by
  with_unfolding_all decide

/-- A quarter turn back leads to the one before. -/
theorem quarterTurn_back_turned : ∀ k : Fin 4, .quarterTurns (-1) * turned k = turned (k + 3) := by
  with_unfolding_all decide

/-- The four poses are undone by the quarter turns back, but for the signs of zeros. -/
theorem inverse?_turned_agrees :
    ∀ k : Fin 4, (turned k).inverse?.any (·.agrees (.quarterTurns (-k.val))) = true := by
  decide +kernel

theorem isSome_inverse?_turned (k : Fin 4) : (turned k).inverse?.isSome = true := by
  obtain ⟨inverse, hinverse, -⟩ := (Option.any_eq_true _ _).mp (inverse?_turned_agrees k)
  rw [hinverse]
  rfl

/-- The projection is that of a viewport with pixels or of none, and the image was only turned. -/
structure Invertible (c : Camera Float32) (stage : Stage Float32) : Prop where
  projected : c.IsProjected
  posed : ∃ node k, stage.node? c.buffer = some node ∧ node.pose = turned k

/-- An operation on the camera's own node leaves it so. -/
theorem Invertible.of_confined {β : Type} {o : Outcome Float32 β} (h : c.Invertible stage)
    (hdistinct : c.node ≠ c.buffer) (ho : o.Confined c stage) : o.camera.Invertible o.stage := by
  obtain ⟨node, k, hnode, hpose⟩ := h.posed
  refine ⟨h.projected.of_projection_eq ho.projection, node, k, ?_, hpose⟩
  rw [ho.buffer, ho.others _ hdistinct.symm, hnode]

/-! ## The operations -/

section

variable {β γ : Type}

/-- The result is a success, or else the search for a fit of the image in this pose does not end. -/
def Answers (c : Camera Float32) (pose : Transform Float32) (image : ImageBuffer Float32)
    (result : Except Stop β) : Prop :=
  (∃ b, result = .ok b) ∨ result = .error .endless ∧ ¬(c.fitting pose image).SearchEnds

theorem Answers.ok {result : Except Stop β} {b : β} (h : result = .ok b) :
    c.Answers pose image result :=
  .inl ⟨b, h⟩

theorem Answers.map {result : Except Stop β} (h : c.Answers pose image result) (f : β → γ) :
    c.Answers pose image (result.map f) := by
  rcases h with ⟨b, rfl⟩ | ⟨rfl, hendless⟩
  · exact .ok rfl
  · exact .inr ⟨rfl, hendless⟩

theorem Answers.andThen {o : Outcome Float32 β}
    {next : Camera Float32 → Stage Float32 → β → Outcome Float32 γ} (h : c.Answers pose image o.result)
    (hnext : ∀ b, o.result = .ok b → c.Answers pose image (next o.camera o.stage b).result) :
    c.Answers pose image (o.andThen next).result := by
  unfold Outcome.andThen
  rcases h with ⟨b, hb⟩ | ⟨hstop, hendless⟩
  · simp only [hb]
    exact hnext b hb
  · simp only [hstop]
    exact .inr ⟨rfl, hendless⟩

theorem Answers.answering {o : Outcome Float32 β} (h : c.Answers pose image o.result) (result : γ) :
    c.Answers pose image (o.answering result).result :=
  h.andThen fun _ _ => .ok rfl

end

theorem Seated.publish_answers (h : c.Seated stage image) :
    d.Answers pose image (c.publish stage).result := by
  rw [h.publish]
  exact .ok rfl

/-- A fit succeeds if its search ends. -/
theorem Seated.fit_answers (h : c.Seated stage image)
    (hgeometry : c.bufferGeometry stage = .ok (pose, image)) :
    c.Answers pose image (c.fit stage).result := by
  cases hpower : (c.fitting pose image).power? with
  | none =>
    rw [fit_of_power?_eq_none hgeometry hpower]
    exact .inr ⟨rfl, Fitting.power?_eq_none_iff.mp hpower⟩
  | some power =>
    rw [fit_of_power?_eq_some hgeometry hpower]
    exact Seated.publish_answers (h.of_nodes rfl rfl)

theorem Seated.recenter_answers (h : c.Seated stage image)
    (hgeometry : c.bufferGeometry stage = .ok (pose, image)) :
    c.Answers pose image (c.recenter stage).result :=
  Seated.fit_answers (c := { c with pan := ⟨0, 0⟩ }) (h.of_nodes rfl rfl) hgeometry

theorem Seated.moveTo_answers (h : c.Seated stage image) (target : Point Float32) :
    d.Answers pose image (c.moveTo stage target).result := by
  obtain ⟨shown, hgeometry⟩ := h.bufferGeometry
  unfold Camera.moveTo
  rw [hgeometry]
  exact Seated.publish_answers (h.of_nodes rfl rfl)

theorem Seated.drag_answers (h : c.Seated stage image) (way : Point Float32) :
    c.Answers pose image (c.drag stage way).result :=
  Seated.publish_answers (h.of_nodes rfl rfl)

theorem Seated.tick_answers (h : c.Seated stage image) (keyboard : Keyboard) :
    c.Answers pose image (c.tick stage keyboard).result := by
  rcases c.tick_cases stage keyboard with ⟨response, htick⟩ | ⟨pan, htick⟩ <;> rw [htick]
  · exact .ok rfl
  · refine Answers.answering (Seated.publish_answers ?_) _
    exact h.of_nodes rfl rfl

/-- The bounds of the zoom power are in order, so any power, finite or not, has a nearest one. -/
theorem exists_targetPower? (c : Camera Float32) (delta : Float32) :
    ∃ target, c.targetPower? delta = some target := by
  obtain ⟨n, -, hlimit⟩ := c.settings.exists_maxPower
  have hordered : -c.settings.maxPower ≤ c.settings.maxPower := by
    have hnonneg := c.settings.maxPower_nonneg
    rw [le_iff_toRat hlimit.finite.neg hlimit.finite, toRat_neg hlimit.finite]
    linarith
  exact ⟨_, if_pos hordered⟩

/-- With a projection that can be inverted, zooming succeeds. -/
theorem Seated.zoomAt_answers (h : c.Seated stage image) (hprojected : c.IsProjected)
    (anchor : Homogeneous Float32) (delta : Float32) :
    c.Answers pose image (c.zoomAt stage anchor delta).result := by
  obtain ⟨target, htarget⟩ := c.exists_targetPower? delta
  obtain ⟨node, hnode⟩ := h.driven
  obtain ⟨unproject, hinverse⟩ := hprojected.exists_inverse?
  unfold Camera.zoomAt
  split
  · rw [htarget]
    dsimp only
    split
    · exact .ok rfl
    · rw [hnode, hinverse]
      exact Seated.publish_answers (h.of_nodes rfl rfl)
  · exact .ok rfl

theorem Seated.scroll_answers (h : c.Seated stage image) (hprojected : c.IsProjected)
    (delta : Float32) (canvas : Canvas Float32) :
    c.Answers pose image (c.scroll stage delta canvas).result := by
  rcases c.scroll_cases stage delta canvas with hscroll | ⟨anchor, hscroll⟩ <;> rw [hscroll]
  · exact .ok rfl
  · exact h.zoomAt_answers hprojected _ _

theorem Seated.keyPressed_answers (h : c.Seated stage image) (hprojected : c.IsProjected)
    (hgeometry : c.bufferGeometry stage = .ok (pose, image)) (keyboard : Keyboard) :
    c.Answers pose image (c.keyPressed stage keyboard).result := by
  rcases c.keyPressed_cases stage keyboard with
    ⟨response, hpress⟩ | ⟨step, hpress⟩ | hpress <;> rw [hpress]
  · exact .ok rfl
  · exact (h.zoomAt_answers hprojected _ _).answering _
  · exact (h.recenter_answers hgeometry).answering _

/-- The image's pose can be inverted, so the centred point is known. -/
theorem Invertible.exists_center (h : c.Invertible stage) (hseated : c.Seated stage image) :
    ∃ p, c.center stage = .ok p := by
  obtain ⟨node, k, hnode, hpose⟩ := h.posed
  have hgeometry : c.bufferGeometry stage = .ok (turned k, image) :=
    hpose ▸ hseated.bufferGeometry_of_node hnode
  obtain ⟨unpose, hinverse⟩ := Option.isSome_iff_exists.mp (isSome_inverse?_turned k)
  unfold center
  rw [hgeometry]
  simp only [hinverse]
  exact ⟨_, rfl⟩

end Camera

end PanZoom
