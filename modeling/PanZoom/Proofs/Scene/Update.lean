import PanZoom.Scene.Stage

namespace PanZoom.Stage

variable {α : Type} {s : Stage α} {id other : NodeId}

theorem update_of_tenant?_eq_none (f : Node α → Node α) (h : s.tenant? id = none) :
    s.update id f = s := by
  simp [update, h]

theorem update_of_tenant?_eq_some (f : Node α → Node α) {tenant : Tenant α}
    (h : s.tenant? id = some tenant) :
    s.update id f = { s with
      slots :=
        s.slots.set id.slot ⟨id.generation, some { tenant with node := f tenant.node }⟩ } := by
  simp [update, h]

theorem names_update (s : Stage α) (id : NodeId) (f : Node α → Node α) :
    (s.update id f).names = s.names := by
  unfold update
  split <;> rfl

/-- A handle that finds a tenant names a slot that exists and is in the handle's generation. -/
theorem slot_of_tenant?_eq_some {tenant : Tenant α} (h : s.tenant? id = some tenant) :
    s.slots[id.slot]? = some ⟨id.generation, some tenant⟩ := by
  unfold tenant? at h
  split at h
  · rename_i slot hslot
    split at h
    · rename_i hgen
      rw [hslot, ← hgen, ← h]
    · cases h
  · cases h

theorem tenant?_update_self (f : Node α → Node α) :
    (s.update id f).tenant? id = (s.tenant? id).map fun t => { t with node := f t.node } := by
  cases h : s.tenant? id with
  | none => rw [update_of_tenant?_eq_none f h, h]; rfl
  | some tenant =>
    have hslot := slot_of_tenant?_eq_some h
    have hlt : id.slot < s.slots.length := (List.getElem?_eq_some_iff.mp hslot).1
    rw [update_of_tenant?_eq_some f h]
    simp [tenant?, hlt]

theorem tenant?_update_of_ne (f : Node α → Node α) (h : other ≠ id) :
    (s.update id f).tenant? other = s.tenant? other := by
  cases ht : s.tenant? id with
  | none => rw [update_of_tenant?_eq_none f ht]
  | some tenant =>
    have hslot := slot_of_tenant?_eq_some ht
    have hlt : id.slot < s.slots.length := (List.getElem?_eq_some_iff.mp hslot).1
    rw [update_of_tenant?_eq_some f ht]
    by_cases hs : other.slot = id.slot
    · -- The slot is shared, so the generations differ and neither stage knows the other handle.
      have hg : id.generation ≠ other.generation := by
        intro hg
        exact h (by cases other; cases id; simp_all)
      simp only [tenant?, hs, hslot, List.getElem?_set_self hlt, hg, ↓reduceIte]
    · simp [tenant?, Ne.symm hs]

/-- The handle finds the changed node, if it found one. -/
theorem node?_update_self (f : Node α → Node α) :
    (s.update id f).node? id = (s.node? id).map f := by
  simp [node?, tenant?_update_self, Function.comp_def]

/-- Other handles find what they found before. -/
theorem node?_update_of_ne (f : Node α → Node α) (h : other ≠ id) :
    (s.update id f).node? other = s.node? other := by
  simp [node?, tenant?_update_of_ne f h]

end PanZoom.Stage
