import PanZoom.Input.Bindings

/-!
# Conflicts between key bindings

The repair looks at the actions in their order. An action whose key is an arrow or the key of an
action before it goes back to its default key, and nobody asks whether that one is taken as well:

* `Bindings.ConflictFree`: no chosen key is an arrow, and no two actions share one;
* `Bindings.repaired_key?`: what the repair leaves of an action's key;
* `Bindings.repaired_repaired`: a second repair changes nothing;
* `Bindings.repaired_conflictFree_iff_before`: a conflict stays where an action finds both its key
  and its default key taken;
* `Bindings.repaired_conflictFree_iff`: the bindings for which that happens.
-/

namespace PanZoom.Bindings

variable {b : Bindings} {action : Action} {key fallback : Key}

/-- The keys that can be chosen, in the order of their actions. -/
def keys (b : Bindings) : List Key :=
  [b.zoomIn, b.zoomOut, b.recenter]

/-- No chosen key pans, and each stands for one action. -/
structure ConflictFree (b : Bindings) : Prop where
  noArrow : ∀ key ∈ b.keys, key.isArrow = false
  distinct : b.keys.Nodup

/-- The key chosen for an action. Panning has no key to choose. -/
def key? (b : Bindings) : Action → Option Key
  | .pan => none
  | .zoomIn => some b.zoomIn
  | .zoomOut => some b.zoomOut
  | .recenter => some b.recenter

def before (b : Bindings) : Action → List Key
  | .pan => []
  | .zoomIn => Key.arrows
  | .zoomOut => b.zoomIn :: Key.arrows
  | .recenter => b.zoomIn :: b.zoomOut :: Key.arrows

theorem mem_arrows_iff : key ∈ Key.arrows ↔ key.isArrow = true := by
  simp [Key.isArrow]

/-- One step of the repair: an action keeps its key unless an action before it has the key. -/
theorem keep_of_key? (fallback : Key) (h : b.key? action = some key) :
    b.keep key action fallback = if key ∈ b.before action then fallback else key := by
  cases action with
  | pan => cases h
  | zoomIn | zoomOut | recenter =>
    cases h
    simp only [keep, action?, before, Key.isArrow, List.mem_cons]
    grind

/-- The steps before an action are done when its own is made, and no later one undoes them: its
key is compared with the final keys of the actions before it. -/
theorem repaired_key? (hkey : b.key? action = some key)
    (hdefault : default.key? action = some fallback) :
    b.repaired.key? action =
      some (if key ∈ b.repaired.before action then fallback else key) := by
  cases action with
  | pan => cases hkey
  | zoomIn | zoomOut | recenter =>
    cases hkey
    cases hdefault
    exact congrArg some (keep_of_key? _ rfl)

theorem conflictFree_iff :
    b.ConflictFree ↔ ∀ action key, b.key? action = some key → key ∉ b.before action := by
  constructor
  · rintro ⟨hnoArrow, hdistinct⟩ action key hkey
    simp only [keys, Key.isArrow, List.mem_cons, List.nodup_cons] at hnoArrow hdistinct
    cases action with
    | pan => cases hkey
    | zoomIn | zoomOut | recenter =>
      cases hkey
      simp only [before, List.mem_cons]
      grind
  · intro h
    have hzoomIn := h .zoomIn _ rfl
    have hzoomOut := h .zoomOut _ rfl
    have hrecenter := h .recenter _ rfl
    simp only [before, List.mem_cons] at hzoomIn hzoomOut hrecenter
    constructor
    · simp only [keys, Key.isArrow]
      grind
    · simp only [keys]
      grind

theorem exists_key? (b' : Bindings) (h : b.key? action = some key) :
    ∃ chosen fallback, b'.key? action = some chosen ∧ default.key? action = some fallback := by
  cases action with
  | pan => cases h
  | zoomIn | zoomOut | recenter => exact ⟨_, _, rfl, rfl⟩

/-- An action whose key is no arrow and no final key of an action before it keeps that key. -/
theorem repaired_key?_of_free (hkey : b.key? action = some key)
    (hfree : key ∉ b.repaired.before action) : b.repaired.key? action = some key := by
  obtain ⟨-, fallback, -, hdefault⟩ := exists_key? b hkey
  rw [repaired_key? hkey hdefault, if_neg hfree]

/-- The repair leaves a conflict exactly where both the key chosen for an action and its default key
belong to actions before it. -/
theorem repaired_conflictFree_iff_before :
    b.repaired.ConflictFree ↔ ∀ action key fallback, b.key? action = some key →
      default.key? action = some fallback →
      key ∈ b.repaired.before action → fallback ∉ b.repaired.before action := by
  rw [conflictFree_iff]
  constructor
  · intro h action key fallback hkey hdefault htaken
    exact h action fallback (by rw [repaired_key? hkey hdefault, if_pos htaken])
  · intro h action key hkey
    obtain ⟨chosen, fallback, hchosen, hdefault⟩ := exists_key? b hkey
    rw [repaired_key? hchosen hdefault, Option.some_inj] at hkey
    split at hkey
    · rename_i htaken
      exact hkey ▸ h action chosen fallback hchosen hdefault htaken
    · rename_i hfree
      exact hkey ▸ hfree

theorem key_mem_keys (h : key ∈ b.keys) : ∃ action, b.key? action = some key := by
  simp only [keys, List.mem_cons, List.not_mem_nil, or_false] at h
  rcases h with rfl | rfl | rfl
  · exact ⟨.zoomIn, rfl⟩
  · exact ⟨.zoomOut, rfl⟩
  · exact ⟨.recenter, rfl⟩

theorem default_noArrow (h : default.key? action = some key) : key.isArrow = false := by
  cases action <;> cases h <;> rfl

theorem arrow_mem_before (b' : Bindings) (h : b.key? action = some key)
    (harrow : key.isArrow = true) : key ∈ b'.before action := by
  cases action with
  | pan => cases h
  | zoomIn | zoomOut | recenter => simp [before, mem_arrows_iff, harrow]

/-- The repair leaves no arrow. -/
theorem repaired_noArrow (b : Bindings) : ∀ key ∈ b.repaired.keys, key.isArrow = false := by
  intro key hmem
  obtain ⟨action, hkey⟩ := key_mem_keys hmem
  obtain ⟨chosen, fallback, hchosen, hdefault⟩ := exists_key? b hkey
  rw [repaired_key? hchosen hdefault, Option.some_inj] at hkey
  split at hkey
  · exact hkey ▸ default_noArrow hdefault
  · rename_i hfree
    rw [← hkey, Bool.eq_false_iff]
    exact fun harrow => hfree (arrow_mem_before _ hchosen harrow)

/-- An action that finds the same keys taken before it as the first time has the same key left. -/
theorem repaired_repaired_key? (b : Bindings) (action : Action)
    (hbefore : b.repaired.repaired.before action = b.repaired.before action) :
    b.repaired.repaired.key? action = b.repaired.key? action := by
  cases hkey : b.key? action with
  | none =>
    cases action with
    | pan => rfl
    | zoomIn | zoomOut | recenter => cases hkey
  | some key =>
    obtain ⟨-, fallback, -, hdefault⟩ := exists_key? b hkey
    have hfirst := repaired_key? hkey hdefault
    rw [repaired_key? hfirst hdefault, hbefore, hfirst, Option.some_inj]
    by_cases htaken : key ∈ b.repaired.before action
    · simp only [htaken, if_true, ite_self]
    · simp only [htaken, if_false]

/-- Repaired bindings stay as they are, even where a conflict is left. -/
theorem repaired_repaired (b : Bindings) : b.repaired.repaired = b.repaired := by
  have hzoomIn : b.repaired.repaired.zoomIn = b.repaired.zoomIn :=
    Option.some_inj.mp (repaired_repaired_key? b .zoomIn rfl)
  have hzoomOut : b.repaired.repaired.zoomOut = b.repaired.zoomOut :=
    Option.some_inj.mp (repaired_repaired_key? b .zoomOut (by simp only [before, hzoomIn]))
  have hrecenter : b.repaired.repaired.recenter = b.repaired.recenter :=
    Option.some_inj.mp
      (repaired_repaired_key? b .recenter (by simp only [before, hzoomIn, hzoomOut]))
  show Bindings.mk _ b.repaired.repaired.zoomIn b.repaired.repaired.zoomOut
    b.repaired.repaired.recenter = _
  rw [hzoomIn, hzoomOut, hrecenter]

/-! ## The bindings that keep a conflict -/

/-- The default key for zooming in takes the place of arrows only. -/
theorem repaired_zoomIn_eq_iff (hplus : key ≠ .plus) (harrow : key.isArrow = false) :
    b.repaired.zoomIn = key ↔ b.zoomIn = key := by
  have hstep : b.repaired.key? .zoomIn =
      some (if b.zoomIn ∈ b.repaired.before .zoomIn then .plus else b.zoomIn) :=
    repaired_key? rfl rfl
  rw [key?, Option.some_inj, before] at hstep
  rw [hstep]
  split
  · rename_i htaken
    constructor
    · exact fun h => absurd h.symm hplus
    · rintro rfl
      rw [mem_arrows_iff, harrow] at htaken
      cases htaken
  · exact Iff.rfl

/-- The repair of the zoom keys neither brings the home key in nor takes it from both. -/
theorem repaired_zoom_eq_home_iff :
    b.repaired.zoomIn = .home ∨ b.repaired.zoomOut = .home ↔
      b.zoomIn = .home ∨ b.zoomOut = .home := by
  have hstep : b.repaired.key? .zoomOut =
      some (if b.zoomOut ∈ b.repaired.before .zoomOut then .minus else b.zoomOut) :=
    repaired_key? rfl rfl
  have hfirst : b.repaired.zoomIn = .home ↔ b.zoomIn = .home :=
    repaired_zoomIn_eq_iff (by decide) rfl
  rw [key?, Option.some_inj, before] at hstep
  rw [← hfirst, hstep]
  by_cases hin : b.repaired.zoomIn = .home
  · simp [hin]
  · simp only [hin, false_or]
    split
    · rename_i htaken
      constructor
      · rintro ⟨⟩
      · intro hout
        rw [hout] at htaken
        simp [Ne.symm hin, Key.arrows] at htaken
    · exact Iff.rfl

/-- The repair leaves no arrow. It leaves two actions on one key exactly if zooming out goes back to
the minus key while zooming in has that key, or recentring goes back to the home key while one of
the zoom actions has it. -/
theorem repaired_conflictFree_iff (b : Bindings) :
    (∀ key ∈ b.repaired.keys, key.isArrow = false) ∧
    (b.repaired.ConflictFree ↔
      ¬(b.zoomIn = .minus ∧ (b.zoomOut = .minus ∨ b.zoomOut.isArrow = true)) ∧
      ¬((b.zoomIn = .home ∨ b.zoomOut = .home) ∧
        (b.recenter = b.repaired.zoomIn ∨ b.recenter = b.repaired.zoomOut ∨
          b.recenter.isArrow = true))) := by
  have hfirst : b.repaired.zoomIn = .minus ↔ b.zoomIn = .minus :=
    repaired_zoomIn_eq_iff (by decide) rfl
  refine ⟨repaired_noArrow b, ?_⟩
  rw [repaired_conflictFree_iff_before, ← repaired_zoom_eq_home_iff, ← hfirst]
  constructor
  · intro h
    have hzoomOut := h .zoomOut _ _ rfl rfl
    have hrecenter := h .recenter _ _ rfl rfl
    simp only [before, List.mem_cons, mem_arrows_iff] at hzoomOut hrecenter
    constructor
    · rintro ⟨hin, hout⟩
      rw [← hin] at hout
      exact hzoomOut hout (.inl hin.symm)
    · rintro ⟨hhome, htaken⟩
      exact hrecenter htaken (hhome.imp Eq.symm fun h => .inl h.symm)
  · rintro ⟨hzoomOut, hrecenter⟩ action key fallback hkey hdefault
    have hdefaultKey := default_noArrow hdefault
    cases action with
    | pan => cases hkey
    | zoomIn =>
      -- No action comes before zooming in, so only an arrow could have its key.
      intro _ htaken
      rw [before, mem_arrows_iff, hdefaultKey] at htaken
      cases htaken
    | zoomOut =>
      cases hkey
      cases hdefault
      simp only [before, List.mem_cons, mem_arrows_iff, hdefaultKey, Bool.false_eq_true, or_false]
      intro htaken hin
      exact hzoomOut ⟨hin.symm, by rwa [← hin] at htaken⟩
    | recenter =>
      cases hkey
      cases hdefault
      simp only [before, List.mem_cons, mem_arrows_iff, hdefaultKey, Bool.false_eq_true, or_false]
      intro htaken hhome
      exact hrecenter ⟨hhome.imp Eq.symm Eq.symm, htaken⟩

/-- Both zoom keys are set to minus, which is the default for zooming out. -/
def bothMinus : Bindings :=
  { default with zoomIn := .minus, zoomOut := .minus }

theorem repaired_bothMinus_conflict : ¬bothMinus.repaired.ConflictFree := by
  rintro ⟨-, hdistinct⟩
  exact absurd hdistinct (by decide)

end PanZoom.Bindings
