import PanZoom.Proofs.Camera.Cases
import PanZoom.Proofs.Camera.Current
import PanZoom.Proofs.Camera.Search

/-!
# The zoom stays bounded

Two ways lead to a zoom power: a step is held within the bounds, and a fit is searched from unit
zoom. The search downward begins at the power minus one without asking whether the bounds allow it,
so a fit leaves them where the greatest power is zero. Nothing else does:

* `Camera.InBounds`: the zoom power is finite and within the bounds;
* `Camera.Reachable`: the cameras that any sequence of operations can lead to;
* `clamp?_within`, `Fitting.power?_allowed`: what the two ways lead to;
* `Camera.Reachable.isAllowed`: no reachable camera has any other power;
* `Settings.zoom_bounded_iff`: the settings under which every reachable camera is in bounds.
-/

namespace PanZoom

open Precision Single

/-! ## Reachable cameras -/

namespace Camera

section

variable {α : Type} [Scalar α]

/-- The zoom power is a number within the bounds of the present settings. -/
structure InBounds (c : Camera α) : Prop where
  finite : Scalar.isFinite c.zoomPower = true
  low : -c.settings.maxPower ≤ c.zoomPower
  high : c.zoomPower ≤ c.settings.maxPower

/-- What a camera can be asked to do on its own. -/
inductive Act (α : Type) where
  | fitTo (size : Size)
  | resize (size : Size)
  | zoomAt (anchor : Homogeneous α) (delta : α)
  | fit
  | recenter
  | moveTo (target : Point α)
  | scroll (delta : α) (canvas : Canvas α)
  | keyPressed (keyboard : Keyboard)
  | tick (keyboard : Keyboard)
  | drag (way : Point α)

def act (c : Camera α) (stage : Stage α) : Act α → Outcome α Unit
  | .fitTo size => c.fitTo stage size
  | .resize size => .done (c.resize size) stage ()
  | .zoomAt anchor delta => c.zoomAt stage anchor delta
  | .fit => c.fit stage
  | .recenter => c.recenter stage
  | .moveTo target => c.moveTo stage target
  | .scroll delta canvas => c.scroll stage delta canvas
  | .keyPressed keyboard => (c.keyPressed stage keyboard).answering ()
  | .tick keyboard => (c.tick stage keyboard).answering ()
  | .drag way => c.drag stage way

/-- The cameras that are left after any finite number of operations, each on any stage. A fit that
never ends leaves none. -/
inductive Reachable : Camera α → Prop where
  | start (node buffer : NodeId) (settings : Settings α) : Reachable (ofNodes node buffer settings)
  | act {c : Camera α} (stage : Stage α) (a : Act α) :
      Reachable c → (c.act stage a).result ≠ .error .endless → Reachable (c.act stage a).camera
  | syncFrom {c other : Camera α} (stage : Stage α) :
      Reachable c → Reachable other → Reachable (c.syncFrom other stage).camera

end

end Camera

/-- A number is held within finite bounds, also if it is infinite. -/
theorem clamp?_within {low high x : Float32} (hlow : IsFinite low) (hhigh : IsFinite high)
    (hle : toRat low ≤ toRat high) (hx : IsFinite x ∨ ∃ sign, read x = .infinity sign) :
    ∃ y, Scalar.clamp? low high x = some y ∧ Within y (toRat low) (toRat high) := by
  have hordered : low ≤ high := (le_iff_toRat hlow hhigh).mpr hle
  by_cases hbelow : x < low
  · have hlevel : ¬high < low := by rwa [lt_iff_toRat hhigh hlow, not_lt]
    exact ⟨low, by simp [Scalar.clamp?, hordered, hbelow, hlevel], hlow, le_rfl, hle⟩
  · by_cases habove : high < x
    · exact ⟨high, by simp [Scalar.clamp?, hordered, hbelow, habove], hhigh, hle, le_rfl⟩
    · have hfinite : IsFinite x := by
        rcases hx with hx | ⟨sign, hx⟩
        · exact hx
        · cases sign with
          | negative => exact absurd (lt_of_negative_infinity hx hlow) hbelow
          | positive => exact absurd (lt_of_positive_infinity hx hhigh) habove
      refine ⟨x, by simp [Scalar.clamp?, hordered, hbelow, habove], hfinite, ?_, ?_⟩
      · rwa [lt_iff_toRat hfinite hlow, not_lt] at hbelow
      · rwa [lt_iff_toRat hhigh hfinite, not_lt] at habove

/-- A zoom power that operations can lead to: within the bounds, or minus one if there is no room
between them. -/
def Settings.Allows (s : Settings Float32) (p : Float32) : Prop :=
  Within p (-toRat s.maxPower) (toRat s.maxPower) ∨ toRat s.maxPower = 0 ∧ Within p (-1) (-1)

theorem Settings.maxPower_nonneg (s : Settings Float32) : 0 ≤ toRat s.maxPower := by
  obtain ⟨n, -, hlimit⟩ := s.exists_maxPower
  rw [hlimit.eq]
  positivity

theorem Settings.allows_zero (s : Settings Float32) : s.Allows 0 := by
  have hlimit := s.maxPower_nonneg
  refine .inl ⟨zero_within.finite, ?_, ?_⟩
  · rw [zero_within.eq]
    linarith
  · rwa [zero_within.eq]

namespace Fitting

variable {f : Fitting Float32} {p : Float32}

theorem allows_of_climb (h : f.climb = some p) : f.settings.Allows p := by
  obtain ⟨k, -, hlimit⟩ := f.settings.exists_maxPower
  obtain ⟨n, hp, -, hbefore⟩ := firstStop_eq_some h
  change p = countUp n at hp
  have hcount := countUp_min n
  have hfew : min n (2 ^ 24) ≤ k := by
    cases n with
    | zero => omega
    | succ n =>
      have hgoes : f.goesUp f.settings.maxPower (countUp n) = true := hbefore n (Nat.lt_succ_self n)
      have hlast := countUp_min n
      have hbelow := of_decide_eq_true (Bool.and_eq_true_iff.mp hgoes).1
      rw [lt_iff_toRat hlast.finite hlimit.finite, hlast.eq, hlimit.eq] at hbelow
      have hbelow : min n (2 ^ 24) < k := by exact_mod_cast hbelow
      omega
  rw [hp, Settings.Allows, hlimit.eq]
  refine .inl ⟨hcount.finite, ?_, ?_⟩
  · rw [hcount.eq]
    exact (neg_nonpos.mpr (by positivity)).trans (by positivity)
  · rw [hcount.eq]
    exact_mod_cast hfew

theorem allows_of_descend (h : f.descend = some p) : f.settings.Allows p := by
  obtain ⟨k, -, hlimit⟩ := f.settings.exists_maxPower
  obtain ⟨n, hp, -, hbefore⟩ := firstStop_eq_some h
  change p = countDown n at hp
  have hcount := countDown_min n
  have hfew : min (n + 1) (2 ^ 24) ≤ k ∨ k = 0 ∧ n = 0 := by
    cases n with
    | zero => omega
    | succ n =>
      have hgoes : f.goesDown f.settings.maxPower (countDown n) = true :=
        hbefore n (Nat.lt_succ_self n)
      have hlast := countDown_min n
      have habove := of_decide_eq_true (Bool.and_eq_true_iff.mp hgoes).1
      rw [lt_iff_toRat hlimit.finite.neg hlast.finite, hlast.eq, toRat_neg hlimit.finite, hlimit.eq,
        neg_lt_neg_iff] at habove
      have habove : min (n + 1) (2 ^ 24) < k := by exact_mod_cast habove
      omega
  rw [hp, Settings.Allows, hlimit.eq]
  rcases hfew with hfew | ⟨rfl, rfl⟩
  · refine .inl ⟨hcount.finite, ?_, ?_⟩
    · rw [hcount.eq, neg_le_neg_iff]
      exact_mod_cast hfew
    · rw [hcount.eq]
      exact (neg_nonpos.mpr (by positivity)).trans (by positivity)
  · exact .inr ⟨Nat.cast_zero, by simpa using hcount⟩

/-- Whatever power a fit finds is allowed. -/
theorem power?_allowed (h : f.power? = some p) : f.settings.Allows p := by
  rw [power?] at h
  split at h
  · cases h
    exact f.settings.allows_zero
  · split at h
    · exact allows_of_climb h
    · split at h
      · exact allows_of_descend h
      · cases h
        exact f.settings.allows_zero

end Fitting

theorem Outcome.answering_camera {α β γ : Type} [Scalar α] (o : Outcome α β) (result : γ) :
    (o.answering result).camera = o.camera := by
  unfold Outcome.answering Outcome.andThen
  split <;> rfl

theorem Outcome.answering_result {α β γ : Type} [Scalar α] {o : Outcome α β} {b : β}
    (h : o.result = .ok b) (result : γ) : (o.answering result).result = .ok result := by
  simp only [Outcome.answering, Outcome.andThen, h]
  rfl

namespace Camera

variable {c : Camera Float32}

theorem publish_camera {α : Type} [Scalar α] (c : Camera α) (stage : Stage α) :
    (c.publish stage).camera = c := by
  unfold Camera.publish
  split <;> rfl

def IsAllowed (c : Camera Float32) : Prop :=
  c.settings.Allows c.zoomPower

theorem IsAllowed.fit (h : c.IsAllowed) (stage : Stage Float32) :
    (c.fit stage).camera.IsAllowed := by
  unfold Camera.fit fittedPower
  cases hg : c.bufferGeometry stage with
  | error e => exact h
  | ok geometry =>
    obtain ⟨pose, buffer⟩ := geometry
    dsimp only
    cases hp : (c.fitting pose buffer).power? with
    | none => exact h
    | some power =>
      dsimp only
      rw [publish_camera, IsAllowed]
      have hsettings : (c.fitting pose buffer).settings = c.settings := rfl
      rw [← hsettings]
      exact Fitting.power?_allowed hp

/-- The bounds hold a step from any finite power. -/
theorem IsAllowed.targetPower? (h : c.IsAllowed) {delta : Float32} (hdelta : IsFinite delta) :
    ∃ target, c.targetPower? delta = some target ∧ c.settings.Allows target := by
  obtain ⟨n, -, hlimit⟩ := c.settings.exists_maxPower
  have hpower : IsFinite c.zoomPower := by
    rcases h with h | ⟨-, h⟩
    · exact h.finite
    · exact h.finite
  have hneg := toRat_neg hlimit.finite
  obtain ⟨target, htarget, hwithin⟩ := clamp?_within hlimit.finite.neg hlimit.finite
    (by rw [hneg]; linarith [c.settings.maxPower_nonneg])
    ((add_defined hpower hdelta).imp_left RoundsTo.finite)
  rw [hneg] at hwithin
  exact ⟨target, htarget, .inl hwithin⟩

theorem IsAllowed.zoomAt (h : c.IsAllowed) (stage : Stage Float32) (anchor : Homogeneous Float32)
    (delta : Float32) : (c.zoomAt stage anchor delta).camera.IsAllowed := by
  rcases c.zoomAt_cases stage anchor delta with
    ⟨result, hzoom⟩ | ⟨composite, power, node, hdelta, hpower, -, hzoom⟩ <;> rw [hzoom]
  · exact h
  · obtain ⟨target, htarget, hallows⟩ := h.targetPower? hdelta
    obtain rfl : target = power := Option.some.inj (htarget.symm.trans hpower)
    rw [publish_camera]
    exact hallows

theorem IsAllowed.moveTo (h : c.IsAllowed) (stage : Stage Float32) (target : Point Float32) :
    (c.moveTo stage target).camera.IsAllowed := by
  rcases c.moveTo_cases stage target with ⟨e, hmove⟩ | ⟨geometry, goal, -, hmove⟩ <;> rw [hmove]
  · exact h
  · rw [publish_camera]
    exact h

theorem IsAllowed.scroll (h : c.IsAllowed) (stage : Stage Float32) (delta : Float32)
    (canvas : Canvas Float32) : (c.scroll stage delta canvas).camera.IsAllowed := by
  rcases c.scroll_cases stage delta canvas with hscroll | ⟨anchor, hscroll⟩ <;> rw [hscroll]
  · exact h
  · exact h.zoomAt _ _ _

theorem IsAllowed.recenter (h : c.IsAllowed) (stage : Stage Float32) :
    (c.recenter stage).camera.IsAllowed :=
  IsAllowed.fit (c := { c with pan := ⟨0, 0⟩ }) h stage

theorem IsAllowed.keyPressed (h : c.IsAllowed) (stage : Stage Float32) (keyboard : Keyboard) :
    (c.keyPressed stage keyboard).camera.IsAllowed := by
  rcases c.keyPressed_cases stage keyboard with
    ⟨response, hpress⟩ | ⟨step, hpress⟩ | hpress <;> rw [hpress]
  · exact h
  · rw [Outcome.answering_camera]
    exact h.zoomAt _ _ _
  · rw [Outcome.answering_camera]
    exact h.recenter _

theorem IsAllowed.tick (h : c.IsAllowed) (stage : Stage Float32) (keyboard : Keyboard) :
    (c.tick stage keyboard).camera.IsAllowed := by
  rcases c.tick_cases stage keyboard with ⟨response, htick⟩ | ⟨pan, htick⟩ <;> rw [htick]
  · exact h
  · rw [Outcome.answering_camera, publish_camera]
    exact h

theorem IsAllowed.act (h : c.IsAllowed) (stage : Stage Float32) (a : Act Float32) :
    (c.act stage a).camera.IsAllowed := by
  cases a with
  | fitTo size => exact IsAllowed.fit (c := c.resize size) h stage
  | resize size => exact h
  | zoomAt anchor delta => exact h.zoomAt stage anchor delta
  | fit => exact h.fit stage
  | recenter => exact h.recenter stage
  | moveTo target => exact h.moveTo stage target
  | scroll delta canvas => exact h.scroll stage delta canvas
  | keyPressed keyboard =>
    rw [Camera.act, Outcome.answering_camera]
    exact h.keyPressed stage keyboard
  | tick keyboard =>
    rw [Camera.act, Outcome.answering_camera]
    exact h.tick stage keyboard
  | drag way =>
    rw [Camera.act, drag, publish_camera]
    exact h

theorem Reachable.isAllowed (h : c.Reachable) : c.IsAllowed := by
  induction h with
  | start node buffer settings => exact settings.allows_zero
  | act stage a _ _ ih => exact ih.act stage a
  | syncFrom stage _ _ _ ih =>
    rw [Camera.syncFrom, publish_camera]
    exact ih

/-! ## Where there is no room -/

theorem IsAllowed.inBounds (h : c.IsAllowed) (hroom : 1 ≤ toRat c.settings.maxPower) :
    c.InBounds := by
  obtain ⟨n, -, hlimit⟩ := c.settings.exists_maxPower
  rcases h with h | ⟨hzero, -⟩
  · refine ⟨h.finite, ?_, ?_⟩
    · rw [le_iff_toRat hlimit.finite.neg h.finite, toRat_neg hlimit.finite]
      exact h.le
    · rw [le_iff_toRat h.finite hlimit.finite]
      exact h.ge
  · rw [hzero] at hroom
    exact absurd hroom (by norm_num)

end Camera

/-- The search downward leaves bounds that are both zero. -/
theorem Fitting.power?_ofWideBuffer {s : Settings Float32} (h : toRat s.maxPower = 0) :
    (ofWideBuffer s).power? = some (-1) := by
  obtain ⟨n, hfew, hlimit⟩ := s.exists_maxPower
  have hn : n = 0 := by
    rw [hlimit.eq] at h
    exact_mod_cast h
  obtain ⟨hover, hfits⟩ :=
    overflows_of_wide (f := ofWideBuffer s) rfl wideSide_within (zoom_zero_within _)
  have hstop := goesDown_limit (f := ofWideBuffer s) hlimit (by omega)
  rw [hn, Nat.zero_sub] at hstop
  have htries : 0 < Scalar.stepsPast (ofWideBuffer s).limit := by
    rw [stepsPast_limit (f := ofWideBuffer s) hlimit hfew]
    exact Nat.succ_pos _
  have hdescend : (ofWideBuffer s).descend = some (-1) := firstStop_of_stop hstop htries
  have hnone : ¬(ofWideBuffer s).fits 0 = true := Bool.not_eq_true _ ▸ hfits
  rw [power?, isDegenerate_ofWideBuffer, if_neg Bool.false_ne_true]
  exact (if_neg hnone).trans ((if_pos hover).trans hdescend)

def stageOf (image : ImageBuffer Float32) : Stage Float32 :=
  ⟨[⟨0, some ⟨Camera.bufferName, .ofBuffer image⟩⟩,
    ⟨0, some ⟨Camera.cameraName, .ofPose .identity⟩⟩], []⟩

def wideStage : Stage Float32 :=
  stageOf ⟨Fitting.wideSide, Fitting.wideSide⟩

/-- Without room between the bounds, the fit of the wide buffer goes below them. -/
theorem fitTo_wideStage {s : Settings Float32} (h : toRat s.maxPower = 0) :
    (Camera.ofNodes ⟨1, 0⟩ ⟨0, 0⟩ s).fitTo wideStage ⟨1, 1⟩ =
      Camera.publish { (Camera.ofNodes ⟨1, 0⟩ ⟨0, 0⟩ s).resize ⟨1, 1⟩ with zoomPower := -1 }
        wideStage := by
  let c := (Camera.ofNodes ⟨1, 0⟩ ⟨0, 0⟩ s).resize ⟨1, 1⟩
  have hgeometry : c.bufferGeometry wideStage =
      .ok (.identity, ⟨Fitting.wideSide, Fitting.wideSide⟩) := rfl
  have hpower : (c.fitting .identity ⟨Fitting.wideSide, Fitting.wideSide⟩).power? = some (-1) := by
    rw [Fitting.fitting_wideBuffer rfl]
    exact Fitting.power?_ofWideBuffer h
  exact Camera.fit_of_power?_eq_some hgeometry hpower

theorem Settings.one_le_maxPower (s : Settings Float32) :
    1 ≤ s.maxPower ↔ toRat s.maxPower ≠ 0 := by
  obtain ⟨n, -, hlimit⟩ := s.exists_maxPower
  have hone : (1 : Float32) ≤ s.maxPower ↔ 1 ≤ n := by
    rw [le_iff_toRat one_within.finite hlimit.finite, one_within.eq, hlimit.eq]
    norm_num
  rw [hlimit.eq, Nat.cast_ne_zero, ← Nat.one_le_iff_ne_zero]
  exact hone

/-- Every reachable camera is in bounds, exactly if there is room for a step between the bounds. -/
theorem Settings.zoom_bounded_iff (s : Settings Float32) :
    (∀ c : Camera Float32, c.Reachable → c.settings = s → c.InBounds) ↔ 1 ≤ s.maxPower := by
  rw [s.one_le_maxPower]
  constructor
  · intro hall hzero
    obtain ⟨n, -, hlimit⟩ := s.exists_maxPower
    have hone : Within (-1 : Float32) (-1) (-1) := by with_unfolding_all decide
    have hfit := fitTo_wideStage hzero
    have hends : ((Camera.ofNodes ⟨1, 0⟩ ⟨0, 0⟩ s).fitTo wideStage ⟨1, 1⟩).result ≠
        .error .endless := by
      rw [hfit]
      rintro ⟨⟩
    have hreached := Camera.Reachable.act wideStage (.fitTo ⟨1, 1⟩) (.start ⟨1, 0⟩ ⟨0, 0⟩ s) hends
    rw [Camera.act, hfit, Camera.publish_camera] at hreached
    have hlow : -s.maxPower ≤ (-1 : Float32) := (hall _ hreached rfl).low
    rw [le_iff_toRat hlimit.finite.neg hone.finite, toRat_neg hlimit.finite, hzero, hone.eq] at hlow
    exact absurd hlow (by norm_num)
  · rintro hroom c hreached rfl
    obtain ⟨n, -, hlimit⟩ := c.settings.exists_maxPower
    refine hreached.isAllowed.inBounds ?_
    rw [hlimit.eq] at hroom ⊢
    exact_mod_cast Nat.one_le_iff_ne_zero.mpr (Nat.cast_ne_zero.mp hroom)

/-- A camera with a factor above the greatest zoom, fitted to less than the buffer's size. -/
def escapedCamera : Camera Float32 :=
  ((Camera.ofNodes ⟨1, 0⟩ ⟨0, 0⟩ (.ofRequest .default 2e18 1 .default)).act (stageOf ⟨10, 10⟩)
    (.fitTo ⟨5, 5⟩)).camera

theorem escapedCamera_out_of_bounds : escapedCamera.Reachable ∧ ¬escapedCamera.InBounds := by
  have hfit : (((Camera.ofNodes ⟨1, 0⟩ ⟨0, 0⟩ (.ofRequest .default 2e18 1 .default)).act
      (stageOf ⟨10, 10⟩) (.fitTo ⟨5, 5⟩)).result ≠ .error .endless) ∧
      ¬-escapedCamera.settings.maxPower ≤ escapedCamera.zoomPower := by
    decide +kernel
  obtain ⟨hends, hlow⟩ := hfit
  constructor
  · exact .act (stageOf ⟨10, 10⟩) (.fitTo ⟨5, 5⟩) (.start _ _ _) hends
  · intro h
    exact hlow h.low

end PanZoom
