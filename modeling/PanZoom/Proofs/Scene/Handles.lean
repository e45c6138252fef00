import PanZoom.Proofs.Scene.Edits
import PanZoom.Scalar.Single

/-!
# Handles are not issued again

A slot's generation is one higher each time the slot is used again, and a removal leaves it as it
is. So the generation counts the handles that were issued for the slot, as long as it can count that
far, and a handle of an earlier generation finds nothing any more:

* `Stage.Tally`: the generations count the issued handles;
* `Stage.Retired`: nobody lives behind the handle, and its generation is not to come;
* `Stage.Tally.edit`, `Stage.Retired.edit`: an edit keeps both, if the generation it begins does not
  start over;
* `Stage.handles_never_recycled`: what follows for every run in which no slot is used again as often
  as there are generations.
-/

namespace PanZoom.Stage

variable {α : Type} {s s' : Stage α} {id new : NodeId} {ids : List NodeId} {name : String}
  {node : Node α} {e : Edit α}

def generation? (s : Stage α) (slot : Nat) : Option UInt32 :=
  s.slots[slot]?.map Slot.generation

/-- How many of the handles are for the slot. -/
def uses (ids : List NodeId) (slot : Nat) : Nat :=
  ids.countP (·.slot = slot)

/-- How often edits use a slot again: for every node that moves in but the first. -/
def reuses (edits : List (Edit α)) (slot : Nat) : Nat :=
  uses (issued edits) slot - 1

/-- The generations count the issued handles, none of which was issued twice. -/
structure Tally (s : Stage α) (ids : List NodeId) : Prop where
  uses_eq : ∀ slot, uses ids slot = (s.generation? slot).elim 0 (·.toNat + 1)
  le : ∀ id ∈ ids, ∀ generation, s.generation? id.slot = some generation →
    id.generation ≤ generation
  nodup : ids.Nodup

/-- The handle finds nothing, and its slot is past its generation or in it. -/
structure Retired (s : Stage α) (id : NodeId) : Prop where
  gone : s.tenant? id = none
  passed : ∃ generation, s.generation? id.slot = some generation ∧ id.generation ≤ generation

/-- If the edit begins a generation of a slot in use before, it is not the first one again. -/
def HasRoom (s : Stage α) (e : Edit α) : Prop :=
  ∀ new generation, s.issue? e = some new → s.generation? new.slot = some generation →
    generation.toNat + 1 < UInt32.size

theorem uses_append (ids later : List NodeId) (slot : Nat) :
    uses (ids ++ later) slot = uses ids slot + uses later slot :=
  List.countP_append

theorem generation?_add (h : s.add name node = .ok (id, s')) (slot : Nat) :
    s'.generation? slot = if slot = id.slot then some id.generation else s.generation? slot := by
  rw [generation?, slots_add h, generation?]
  split <;> rfl

/-- A handle that is issued has a slot of its own or the next generation of its slot. -/
theorem generation_of_add (h : s.add name node = .ok (id, s')) :
    (∃ generation, s.generation? id.slot = some generation ∧ id.generation = generation + 1) ∨
    s.generation? id.slot = none ∧ id.generation = 0 := by
  obtain ⟨-, rfl, -⟩ := add_eq_ok_iff.mp h
  rcases s.nextId_free with ⟨generation, hslot, hnext⟩ | hnew
  · exact .inl ⟨generation, by simp [generation?, hslot], hnext⟩
  · exact .inr (by simp [generation?, hnew])

theorem generation?_of_tenant? {tenant : Tenant α} (h : s.tenant? id = some tenant) :
    s.generation? id.slot = some id.generation := by
  rw [generation?, tenant?_eq_some_iff.mp h]
  rfl

theorem generation?_remove (h : s.remove id = some (node, s')) (slot : Nat) :
    s'.generation? slot = s.generation? slot := by
  obtain ⟨name, htenant, -⟩ := remove_eq_some_iff.mp h
  rw [generation?, slots_remove h]
  split
  · rename_i hslot
    rw [hslot, generation?_of_tenant? htenant]
    rfl
  · rfl

theorem generation?_update (s : Stage α) (id : NodeId) (f : Node α → Node α) (slot : Nat) :
    (s.update id f).generation? slot = s.generation? slot := by
  cases htenant : s.tenant? id with
  | none => rw [update_of_tenant?_eq_none f htenant]
  | some tenant =>
    rw [update_of_tenant?_eq_some f htenant, generation?,
      getElem?_set_slot (slot_lt_of_tenant? htenant)]
    split
    · rename_i hslot
      rw [hslot, generation?_of_tenant? htenant]
      rfl
    · rfl

/-- An edit that issues no handle changes no generation. -/
theorem generation?_edit (h : s.issue? e = none) (slot : Nat) :
    (s.edit e).generation? slot = s.generation? slot := by
  cases e with
  | add name node =>
    rcases edit_add s name node with ⟨hsame, -⟩ | ⟨id, -, hissue⟩
    · rw [hsame]
    · rw [h] at hissue
      cases hissue
  | remove id =>
    rcases edit_remove s id with ⟨-, hsame⟩ | ⟨node, hremove⟩
    · rw [hsame]
    · exact generation?_remove hremove slot
  | change id f => exact generation?_update s id f slot

theorem add_of_issue? (h : s.issue? e = some new) :
    ∃ name node, s.add name node = .ok (new, s.edit e) := by
  cases e with
  | add name node =>
    rcases edit_add s name node with ⟨-, hissue, -⟩ | ⟨id, hadd, hissue⟩
    · rw [h] at hissue
      cases hissue
    · rw [h] at hissue
      cases hissue
      exact ⟨name, node, hadd⟩
  | remove _ | change _ _ => cases h

/-- A handle's generation is the number of the slot's earlier ones, if they can be counted. -/
theorem toNat_generation_of_issue? (hroom : s.HasRoom e) (h : s.issue? e = some new) :
    new.generation.toNat = (s.generation? new.slot).elim 0 (·.toNat + 1) := by
  obtain ⟨name, node, hadd⟩ := add_of_issue? h
  rcases generation_of_add hadd with ⟨generation, hlast, hnext⟩ | ⟨hnone, hnext⟩
  · have hlt := hroom new generation h hlast
    rw [hlast, hnext, UInt32.toNat_add]
    exact Nat.mod_eq_of_lt hlt
  · rw [hnone, hnext]
    rfl

/-- A handle that is issued is of a later generation than all that were issued for its slot. -/
theorem Tally.generation_lt (h : s.Tally ids) (hroom : s.HasRoom e) (hissue : s.issue? e = some new)
    (hmem : id ∈ ids) (hslot : id.slot = new.slot) : id.generation < new.generation := by
  have hnext := toNat_generation_of_issue? hroom hissue
  cases hlast : s.generation? new.slot with
  | none =>
    have huses := h.uses_eq new.slot
    have hpos : 0 < uses ids new.slot := List.countP_pos_iff.mpr ⟨id, hmem, by simp [hslot]⟩
    rw [hlast, Option.elim_none] at huses
    omega
  | some generation =>
    have hle := UInt32.le_iff_toNat_le.mp (h.le id hmem generation (hslot ▸ hlast))
    rw [hlast, Option.elim_some] at hnext
    rw [UInt32.lt_iff_toNat_lt]
    omega

theorem Tally.edit (h : s.Tally ids) (hroom : s.HasRoom e) :
    (s.edit e).Tally (ids ++ (s.issue? e).toList) := by
  cases hissue : s.issue? e with
  | none =>
    have hsame := generation?_edit hissue
    rw [Option.toList_none, List.append_nil]
    exact ⟨fun slot => by rw [hsame, h.uses_eq],
      fun id hmem generation hlast => h.le id hmem generation (by rw [← hsame, hlast]), h.nodup⟩
  | some new =>
    obtain ⟨name, node, hadd⟩ := add_of_issue? hissue
    have hlater : ∀ id ∈ ids, id.slot = new.slot → id.generation < new.generation :=
      fun id hmem hslot => h.generation_lt hroom hissue hmem hslot
    rw [Option.toList_some]
    -- The new handle's generation becomes the slot's last one, and all before it are below it.
    constructor
    · intro slot
      rw [uses_append, h.uses_eq, generation?_add hadd]
      by_cases hslot : slot = new.slot
      · subst hslot
        rw [if_pos rfl, ← toNat_generation_of_issue? hroom hissue]
        simp [uses]
      · simp [uses, hslot, Ne.symm hslot]
    · intro id hmem generation hlast
      rw [generation?_add hadd] at hlast
      rw [List.mem_append, List.mem_singleton] at hmem
      split at hlast
      · rename_i hslot
        cases hlast
        rcases hmem with hmem | rfl
        · exact UInt32.le_of_lt (hlater id hmem hslot)
        · exact UInt32.le_refl _
      · rename_i hslot
        rcases hmem with hmem | rfl
        · exact h.le id hmem generation hlast
        · exact absurd rfl hslot
    · refine List.nodup_append.mpr ⟨h.nodup, by simp, ?_⟩
      rintro id hmem _ hnew rfl
      rw [List.mem_singleton] at hnew
      subst hnew
      exact UInt32.lt_irrefl _ (hlater id hmem rfl)

/-- An edit that issues no handle brings nobody back. -/
theorem tenant?_edit_eq_none (hissue : s.issue? e = none) (h : s.tenant? id = none) :
    (s.edit e).tenant? id = none := by
  cases e with
  | add name node =>
    rcases edit_add s name node with ⟨hsame, -⟩ | ⟨new, -, hnew⟩
    · rw [hsame, h]
    · rw [hissue] at hnew
      cases hnew
  | remove other =>
    rcases edit_remove s other with ⟨-, hsame⟩ | ⟨node, hremove⟩
    · rw [hsame, h]
    · by_cases hne : id = other
      · subst hne
        exact tenant?_remove_self hremove
      · rw [tenant?_remove_of_ne hremove hne, h]
  | change other f =>
    rw [Stage.edit]
    by_cases hne : id = other
    · subst hne
      rw [tenant?_update_self, h]
      rfl
    · rw [tenant?_update_of_ne f hne, h]

theorem Retired.edit (h : s.Retired id) (hroom : s.HasRoom e) : (s.edit e).Retired id := by
  obtain ⟨hgone, last, hlast, hle⟩ := h
  cases hissue : s.issue? e with
  | none =>
    exact ⟨tenant?_edit_eq_none hissue hgone, last, by rw [generation?_edit hissue, hlast], hle⟩
  | some new =>
    obtain ⟨name, node, hadd⟩ := add_of_issue? hissue
    have hgeneration := generation?_add hadd id.slot
    by_cases hslot : id.slot = new.slot
    · -- The slot is used again, in a generation that is later than the handle's.
      have hnext := toNat_generation_of_issue? hroom hissue
      rw [← hslot, hlast, Option.elim_some] at hnext
      have hlater : id.generation < new.generation := by
        rw [UInt32.le_iff_toNat_le] at hle
        rw [UInt32.lt_iff_toNat_lt]
        omega
      have hne : id ≠ new := by
        rintro rfl
        exact UInt32.lt_irrefl _ hlater
      rw [if_pos hslot] at hgeneration
      exact ⟨by rw [tenant?_add_of_ne hadd hne, hgone], _, hgeneration, UInt32.le_of_lt hlater⟩
    · have hne : id ≠ new := fun h => hslot (congrArg _ h)
      rw [if_neg hslot, hlast] at hgeneration
      exact ⟨by rw [tenant?_add_of_ne hadd hne, hgone], last, hgeneration, hle⟩

theorem retired_of_remove (h : s.node? id = some node) : (s.edit (.remove id)).Retired id := by
  rcases edit_remove s id with ⟨hnone, -⟩ | ⟨removed, hremove⟩
  · rw [h] at hnone
    cases hnone
  · obtain ⟨name, htenant, -⟩ := remove_eq_some_iff.mp hremove
    refine ⟨tenant?_remove_self hremove, id.generation, ?_, UInt32.le_refl _⟩
    rw [generation?_remove hremove, generation?_of_tenant? htenant]

/-! ## Every run -/

theorem tally_empty : (empty : Stage α).Tally [] := by
  constructor
  · intro slot
    simp [uses, generation?, empty]
  · intro id hmem
    cases hmem
  · exact List.nodup_nil

theorem Tally.hasRoom (h : s.Tally ids)
    (hfew : ∀ slot, uses (ids ++ (s.issue? e).toList) slot ≤ UInt32.size) : s.HasRoom e := by
  intro new generation hissue hlast
  have huses := h.uses_eq new.slot
  have hnew := hfew new.slot
  have hone : uses [new] new.slot = 1 := by simp [uses]
  rw [hissue, Option.toList_some, uses_append, hone] at hnew
  rw [hlast, Option.elim_some] at huses
  omega

/-- While no slot has had more tenants than there are generations, the generations count the
handles, and a retired handle stays so. -/
theorem Tally.foldl_edit (edits : List (Edit α)) (h : s.Tally ids)
    (hfew : ∀ slot, uses (ids ++ s.issuedFrom edits) slot ≤ UInt32.size) :
    (edits.foldl Stage.edit s).Tally (ids ++ s.issuedFrom edits) ∧
      ∀ id, s.Retired id → (edits.foldl Stage.edit s).Retired id := by
  induction edits generalizing s ids with
  | nil =>
    rw [issuedFrom, List.append_nil]
    exact ⟨h, fun _ hid => hid⟩
  | cons e edits ih =>
    rw [issuedFrom, ← List.append_assoc] at hfew ⊢
    -- The bound on all handles together leaves room for the first edit.
    have hroom : s.HasRoom e := by
      refine h.hasRoom fun slot => Nat.le_trans ?_ (hfew slot)
      rw [uses_append _ (issuedFrom _ _)]
      exact Nat.le_add_right _ _
    obtain ⟨htally, hretired⟩ := ih (h.edit hroom) hfew
    exact ⟨htally, fun id hid => hretired id (hid.edit hroom)⟩

/-- No operation finds anything behind the handle. -/
structure Stale (s : Stage α) (id : NodeId) : Prop where
  node? : s.node? id = none
  resolve : s.resolve id = .error (.staleHandle id)
  remove : s.remove id = none
  update : ∀ f, s.update id f = s

theorem Retired.stale (h : s.Retired id) : s.Stale id := by
  have hnode : s.node? id = none := by simp [node?, h.gone]
  exact ⟨hnode, by simp [resolve, hnode], remove_eq_none_iff.mpr hnode,
    fun f => update_of_tenant?_eq_none f h.gone⟩

/-- A removed handle is retired when it goes and after any later edits. -/
theorem retired_after_remove {before after : List (Edit α)}
    (hfew : ∀ slot, uses (issued (before ++ .remove id :: after)) slot ≤ UInt32.size)
    (hlive : (ofEdits before).node? id = some node) :
    (ofEdits (before ++ .remove id :: after)).Retired id := by
  have hissued : issued (before ++ .remove id :: after) =
      issued before ++ ((ofEdits before).edit (.remove id)).issuedFrom after :=
    issuedFrom_append _ _ _
  rw [hissued] at hfew
  have hfewBefore : ∀ slot, uses ([] ++ issued before) slot ≤ UInt32.size := by
    intro slot
    have hslot := hfew slot
    rw [uses_append] at hslot
    exact Nat.le_trans (Nat.le_add_right _ _) hslot
  have htally : (ofEdits before).Tally (issued before) :=
    (tally_empty.foldl_edit before hfewBefore).1
  have hroom : (ofEdits before).HasRoom (.remove id) := by
    rintro _ _ ⟨⟩
  have hafter : ((ofEdits before).edit (.remove id)).Tally (issued before) := by
    simpa [issue?] using htally.edit hroom
  rw [ofEdits, List.foldl_append]
  exact (hafter.foldl_edit after hfew).2 id (retired_of_remove hlive)

/-- Handles are never recycled: if no slot is used again as often as there are generations, all
handles that are issued are different, and a handle whose node was removed is stale from then on,
whatever moves into its slot and under whatever name. -/
theorem handles_never_recycled (edits : List (Edit α))
    (hfew : ∀ slot, reuses edits slot < UInt32.size) :
    (issued edits).Nodup ∧
    ∀ before id after, before ++ Edit.remove id :: after <+: edits →
      (ofEdits before).node? id ≠ none →
      (ofEdits (before ++ Edit.remove id :: after)).Stale id := by
  have hbound : ∀ slot, uses (issued edits) slot ≤ UInt32.size := by
    intro slot
    have hslot := hfew slot
    unfold reuses at hslot
    omega
  constructor
  · exact (tally_empty.foldl_edit edits hbound).1.nodup
  · rintro before id after ⟨rest, rfl⟩ hlive
    obtain ⟨node, hnode⟩ := Option.ne_none_iff_exists'.mp hlive
    refine (retired_after_remove (fun slot => ?_) hnode).stale
    have hslot := hbound slot
    rw [issued, issuedFrom_append, uses_append] at hslot
    exact Nat.le_trans (Nat.le_add_right _ _) hslot

/-- A node that moves out, and one that moves into its slot under its name. -/
def succession : List (Edit Float32) :=
  [.add "buffer" (.ofPose .identity), .remove ⟨0, 0⟩, .add "buffer" (.ofPose .identity)]

theorem handles_never_recycled_succession :
    issued succession = [⟨0, 0⟩, ⟨0, 1⟩] ∧ (∀ slot, reuses succession slot < UInt32.size) ∧
      (issued succession).Nodup ∧ (ofEdits succession).Stale ⟨0, 0⟩ := by
  have hissued : issued succession = [⟨0, 0⟩, ⟨0, 1⟩] := rfl
  have hfew : ∀ slot, reuses succession slot < UInt32.size := by
    intro slot
    have hle : uses (issued succession) slot ≤ 2 := List.countP_le_length
    exact Nat.lt_of_le_of_lt (Nat.sub_le_sub_right hle 1) (by decide)
  obtain ⟨hnodup, hstale⟩ := handles_never_recycled succession hfew
  refine ⟨hissued, hfew, hnodup, ?_⟩
  refine hstale [.add "buffer" (.ofPose .identity)] ⟨0, 0⟩ [.add "buffer" (.ofPose .identity)]
    (List.prefix_refl _) ?_
  simp [ofEdits, edit, add, find?, nextId, freeSlot?, putSlot, node?, tenant?, empty]

end PanZoom.Stage
