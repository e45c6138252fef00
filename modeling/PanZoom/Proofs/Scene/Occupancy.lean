import PanZoom.Proofs.Scene.Update

namespace PanZoom.Stage

variable {α : Type} {s s' : Stage α} {id other : NodeId} {name name' : String} {node : Node α}
  {tenant : Tenant α}

theorem tenant?_eq_some_iff :
    s.tenant? id = some tenant ↔ s.slots[id.slot]? = some ⟨id.generation, some tenant⟩ := by
  refine ⟨slot_of_tenant?_eq_some, fun h => ?_⟩
  simp [tenant?, h]

theorem slot_lt_of_tenant? (h : s.tenant? id = some tenant) : id.slot < s.slots.length :=
  (List.getElem?_eq_some_iff.mp (tenant?_eq_some_iff.mp h)).1

theorem tenant?_eq_none_of_slot {slot : Slot α} (hslot : s.slots[id.slot]? = some slot)
    (h : slot.tenant = none ∨ slot.generation ≠ id.generation) : s.tenant? id = none := by
  rcases h with h | h <;> simp [tenant?, hslot, h]

theorem add_eq_ok_iff :
    s.add name node = .ok (id, s') ↔ s.find? name = none ∧ id = s.nextId ∧
      s' = ⟨s.putSlot id.slot ⟨id.generation, some ⟨name, node⟩⟩, (name, id) :: s.names⟩ := by
  unfold add
  cases s.find? name with
  | some taken => simp
  | none =>
    simp only [Except.ok.injEq, Prod.mk.injEq, true_and]
    constructor
    · rintro ⟨rfl, rfl⟩
      exact ⟨rfl, rfl⟩
    · rintro ⟨rfl, rfl⟩
      exact ⟨rfl, rfl⟩

theorem add_eq_error_iff {e : StageError} :
    s.add name node = .error e ↔ e = .duplicateName name ∧ ∃ id, s.find? name = some id := by
  unfold add
  cases s.find? name <;> simp [eq_comm]

/-- A new node gets a free slot in its next generation, or a slot past the last in its first. -/
theorem nextId_free (s : Stage α) :
    (∃ generation, s.slots[s.nextId.slot]? = some ⟨generation, none⟩ ∧
      s.nextId.generation = generation + 1) ∨
    s.nextId = ⟨s.slots.length, 0⟩ := by
  unfold nextId freeSlot?
  cases hfree : s.slots.findIdx? (·.tenant.isNone) with
  | none => exact .inr rfl
  | some i =>
    obtain ⟨hlt, hnone, -⟩ := List.findIdx?_eq_some_iff_getElem.mp hfree
    refine .inl ⟨s.slots[i].generation, ?_, by simp [hlt]⟩
    rw [Option.isNone_iff_eq_none] at hnone
    rw [List.getElem?_eq_getElem hlt, ← hnone]

theorem nextId_slot_le (s : Stage α) : s.nextId.slot ≤ s.slots.length := by
  rcases s.nextId_free with ⟨_, hslot, -⟩ | h
  · exact Nat.le_of_lt (List.getElem?_eq_some_iff.mp hslot).1
  · exact Nat.le_of_eq (congrArg NodeId.slot h)

theorem getElem?_set_slot {i : Nat} (hi : i < s.slots.length) (slot : Slot α) (j : Nat) :
    (s.slots.set i slot)[j]? = if j = i then some slot else s.slots[j]? := by
  by_cases hj : j = i
  · rw [hj, List.getElem?_set_self hi, if_pos rfl]
  · rw [List.getElem?_set_ne (Ne.symm hj), if_neg hj]

theorem getElem?_putSlot {i : Nat} (hi : i ≤ s.slots.length) (slot : Slot α) (j : Nat) :
    (s.putSlot i slot)[j]? = if j = i then some slot else s.slots[j]? := by
  unfold putSlot
  split
  · rename_i hlt
    exact getElem?_set_slot hlt slot j
  · obtain rfl : i = s.slots.length := by omega
    by_cases hj : j = s.slots.length
    · rw [hj, List.getElem?_concat_length, if_pos rfl]
    · rw [if_neg hj, List.getElem?_append]
      split
      · rfl
      · rename_i hpast
        rw [List.getElem?_eq_none (by simp; omega), List.getElem?_eq_none (by omega)]

/-- No handle of the slot that a new node gets finds anything. -/
theorem tenant?_of_slot_eq_nextId (h : id.slot = s.nextId.slot) : s.tenant? id = none := by
  rcases s.nextId_free with ⟨generation, hslot, -⟩ | hnew
  · exact tenant?_eq_none_of_slot (h ▸ hslot) (.inl rfl)
  · have hpast : s.slots[id.slot]? = none := by simp [h, hnew]
    simp [tenant?, hpast]

theorem slots_add (h : s.add name node = .ok (id, s')) (j : Nat) :
    s'.slots[j]? = if j = id.slot then some ⟨id.generation, some ⟨name, node⟩⟩
      else s.slots[j]? := by
  obtain ⟨-, rfl, rfl⟩ := add_eq_ok_iff.mp h
  exact getElem?_putSlot s.nextId_slot_le _ j

theorem tenant?_add_self (h : s.add name node = .ok (id, s')) :
    s'.tenant? id = some ⟨name, node⟩ := by
  rw [tenant?_eq_some_iff, slots_add h, if_pos rfl]

theorem tenant?_add_of_ne (h : s.add name node = .ok (id, s')) (hne : other ≠ id) :
    s'.tenant? other = s.tenant? other := by
  by_cases hslot : other.slot = id.slot
  · -- The slot was free, and its tenant is found in the new generation only.
    have hgeneration : id.generation ≠ other.generation := by
      intro hg
      exact hne (by cases other; cases id; simp_all)
    rw [tenant?_eq_none_of_slot (by rw [slots_add h, if_pos hslot]) (.inr hgeneration),
      tenant?_of_slot_eq_nextId (by rw [hslot, (add_eq_ok_iff.mp h).2.1])]
  · simp only [tenant?, slots_add h, if_neg hslot]

theorem find?_add_self (h : s.add name node = .ok (id, s')) : s'.find? name = some id := by
  obtain ⟨-, -, rfl⟩ := add_eq_ok_iff.mp h
  simp [find?]

theorem find?_add_of_ne (h : s.add name node = .ok (id, s')) (hne : name' ≠ name) :
    s'.find? name' = s.find? name' := by
  obtain ⟨-, -, rfl⟩ := add_eq_ok_iff.mp h
  simp [find?, List.lookup_cons, beq_eq_false_iff_ne.mpr hne]

/-! ## Removing -/

theorem remove_eq_some_iff :
    s.remove id = some (node, s') ↔ ∃ name, s.tenant? id = some ⟨name, node⟩ ∧
      s' = ⟨s.slots.set id.slot ⟨id.generation, none⟩,
        s.names.filter fun entry => entry.1 ≠ name⟩ := by
  unfold remove
  cases s.tenant? id with
  | none => simp
  | some tenant =>
    obtain ⟨name, node'⟩ := tenant
    simp only [Option.some.injEq, Prod.mk.injEq, Tenant.mk.injEq]
    constructor
    · rintro ⟨rfl, rfl⟩
      exact ⟨name, ⟨rfl, rfl⟩, rfl⟩
    · rintro ⟨_, ⟨rfl, rfl⟩, rfl⟩
      exact ⟨rfl, rfl⟩

theorem remove_eq_none_iff : s.remove id = none ↔ s.node? id = none := by
  unfold remove node?
  cases s.tenant? id <;> simp

theorem slots_remove (h : s.remove id = some (node, s')) (j : Nat) :
    s'.slots[j]? = if j = id.slot then some ⟨id.generation, none⟩ else s.slots[j]? := by
  obtain ⟨name, htenant, rfl⟩ := remove_eq_some_iff.mp h
  exact getElem?_set_slot (slot_lt_of_tenant? htenant) _ j

theorem tenant?_remove_self (h : s.remove id = some (node, s')) : s'.tenant? id = none :=
  tenant?_eq_none_of_slot (by rw [slots_remove h, if_pos rfl]) (.inl rfl)

theorem tenant?_remove_of_ne (h : s.remove id = some (node, s')) (hne : other ≠ id) :
    s'.tenant? other = s.tenant? other := by
  by_cases hslot : other.slot = id.slot
  · -- The slot was in the removed handle's generation, so the other handle found nothing before.
    obtain ⟨name, htenant, -⟩ := remove_eq_some_iff.mp h
    have hgeneration : id.generation ≠ other.generation := by
      intro hg
      exact hne (by cases other; cases id; simp_all)
    rw [tenant?_eq_none_of_slot (by rw [slots_remove h, if_pos hslot]) (.inl rfl),
      tenant?_eq_none_of_slot (hslot ▸ tenant?_eq_some_iff.mp htenant) (.inr hgeneration)]
  · simp only [tenant?, slots_remove h, if_neg hslot]

/-- Striking a name out of the index takes that name's entries and no others. -/
theorem lookup_filter_ne (names : List (String × NodeId)) (name name' : String) :
    (names.filter fun entry => entry.1 ≠ name).lookup name' =
      if name' = name then none else names.lookup name' := by
  induction names with
  | nil => simp
  | cons entry names ih =>
    obtain ⟨taken, id⟩ := entry
    by_cases htaken : taken = name
    · rw [List.filter_cons_of_neg (by simpa using htaken), ih, List.lookup_cons]
      grind
    · rw [List.filter_cons_of_pos (by simpa using htaken), List.lookup_cons, List.lookup_cons, ih]
      grind

/-- The name of a removed node is free, and other names find what they found before. -/
theorem find?_remove (h : s.remove id = some (node, s'))
    (htenant : s.tenant? id = some ⟨name, node⟩) :
    s'.find? name' = if name' = name then none else s.find? name' := by
  obtain ⟨_, hsame, rfl⟩ := remove_eq_some_iff.mp h
  cases htenant.symm.trans hsame
  exact lookup_filter_ne _ _ _

end PanZoom.Stage
