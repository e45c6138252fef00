import PanZoom.Proofs.Scene.Edits

/-!
# The index of the names

The names in use are kept beside the slots, and the two are in step after any edits: a name finds
the handle of the node that was added under it, and nothing else:

* `Stage.Indexed`: what ties the index to the slots;
* `Stage.Indexed.add`, `Stage.Indexed.remove`, `Stage.Indexed.update`: no edit loosens it;
* `Stage.indexed_ofEdits`: every stage that edits lead to is indexed;
* `Stage.IsNodeMap`: what it is to be a map from names to nodes;
* `Stage.isNodeMap_ofEdits`: every stage that edits lead to is one.
-/

namespace PanZoom.Stage

variable {α : Type} {s s' : Stage α} {id : NodeId} {name : String} {node : Node α}

def occupied (s : Stage α) : Nat :=
  s.slots.countP (·.tenant.isSome)

/-- The index says of each name which slot and generation the node of that name lives in. -/
structure Indexed (s : Stage α) : Prop where
  find?_iff : ∀ name id, s.find? name = some id ↔ ∃ node, s.tenant? id = some ⟨name, node⟩
  distinct : (s.names.map Prod.fst).Nodup
  size_eq : s.size = s.occupied

theorem occupied_add (h : s.add name node = .ok (id, s')) : s'.occupied = s.occupied + 1 := by
  obtain ⟨-, rfl, rfl⟩ := add_eq_ok_iff.mp h
  unfold occupied putSlot
  rcases s.nextId_free with ⟨generation, hslot, -⟩ | hnew
  · obtain ⟨hlt, hfree⟩ := List.getElem?_eq_some_iff.mp hslot
    rw [if_pos hlt, List.countP_set hlt, hfree]
    simp
  · rw [hnew, if_neg (Nat.lt_irrefl _), List.countP_append]
    simp

/-- Putting something else into a slot with a node changes the number by what is put there. -/
theorem occupied_set {tenant : Tenant α} (h : s.tenant? id = some tenant) (slot : Slot α) :
    (s.slots.set id.slot slot).countP (·.tenant.isSome) + 1 =
      s.occupied + if slot.tenant.isSome then 1 else 0 := by
  obtain ⟨hlt, hslot⟩ := List.getElem?_eq_some_iff.mp (tenant?_eq_some_iff.mp h)
  have hpos : 0 < s.slots.countP (·.tenant.isSome) :=
    List.countP_pos_iff.mpr ⟨_, List.getElem_mem hlt, by rw [hslot]; rfl⟩
  rw [List.countP_set hlt, hslot, Option.isSome_some, if_pos rfl, occupied]
  omega

theorem occupied_remove (h : s.remove id = some (node, s')) : s'.occupied + 1 = s.occupied := by
  obtain ⟨name, htenant, rfl⟩ := remove_eq_some_iff.mp h
  exact occupied_set htenant _

theorem occupied_update (s : Stage α) (id : NodeId) (f : Node α → Node α) :
    (s.update id f).occupied = s.occupied := by
  cases htenant : s.tenant? id with
  | none => rw [update_of_tenant?_eq_none f htenant]
  | some tenant =>
    rw [update_of_tenant?_eq_some f htenant]
    exact Nat.succ.inj (occupied_set htenant _)

/-- A name in use stands in the index once, so one entry goes with it. -/
theorem length_filter_names (hdistinct : (s.names.map Prod.fst).Nodup)
    (hname : s.find? name = some id) :
    (s.names.filter fun entry => entry.1 ≠ name).length + 1 = s.size := by
  have hmem : name ∈ s.names.map Prod.fst := by
    obtain ⟨before, after, hnames, -⟩ := List.lookup_eq_some_iff.mp hname
    simp [hnames]
  have honce : s.names.countP (fun entry => entry.1 == name) = 1 := by
    have hcount := hdistinct.count (a := name)
    rwa [if_pos hmem, List.count_eq_countP, List.countP_map] at hcount
  have hsplit := List.length_eq_countP_add_countP (fun entry => entry.1 == name) (l := s.names)
  rw [size, hsplit, honce, ← List.countP_eq_length_filter, Nat.add_comm]
  simp

theorem Indexed.add (h : s.Indexed) (hadd : s.add name node = .ok (id, s')) : s'.Indexed := by
  have hfree : s.find? name = none := (add_eq_ok_iff.mp hadd).1
  have hfresh : s.tenant? id = none :=
    tenant?_of_slot_eq_nextId (congrArg _ (add_eq_ok_iff.mp hadd).2.1)
  constructor
  · intro name' id'
    by_cases hid : id' = id
    · subst hid
      rw [tenant?_add_self hadd]
      by_cases hname : name' = name
      · simp [hname, find?_add_self hadd]
      · rw [find?_add_of_ne hadd hname, h.find?_iff, hfresh]
        simp [Ne.symm hname]
    · rw [tenant?_add_of_ne hadd hid, ← h.find?_iff]
      by_cases hname : name' = name
      · simp [hname, find?_add_self hadd, hfree, Ne.symm hid]
      · rw [find?_add_of_ne hadd hname]
  · obtain ⟨-, -, rfl⟩ := add_eq_ok_iff.mp hadd
    refine List.nodup_cons.mpr ⟨fun hmem => ?_, h.distinct⟩
    obtain ⟨entry, hentry, hname⟩ := List.mem_map.mp hmem
    have hne := List.lookup_eq_none_iff.mp hfree entry hentry
    simp [hname] at hne
  · rw [occupied_add hadd, ← h.size_eq]
    obtain ⟨-, -, rfl⟩ := add_eq_ok_iff.mp hadd
    rfl

theorem Indexed.remove (h : s.Indexed) (hremove : s.remove id = some (node, s')) : s'.Indexed := by
  obtain ⟨name, htenant, hs'⟩ := remove_eq_some_iff.mp hremove
  have hname : s.find? name = some id := (h.find?_iff name id).mpr ⟨node, htenant⟩
  constructor
  · intro name' id'
    rw [find?_remove hremove htenant]
    by_cases hid : id' = id
    · subst hid
      rw [tenant?_remove_self hremove]
      by_cases hname' : name' = name
      · simp [hname']
      · rw [if_neg hname', h.find?_iff, htenant]
        simp [Ne.symm hname']
    · rw [tenant?_remove_of_ne hremove hid, ← h.find?_iff]
      by_cases hname' : name' = name
      · simp [hname', hname, Ne.symm hid]
      · rw [if_neg hname']
  · rw [hs']
    exact (List.filter_sublist.map Prod.fst).nodup h.distinct
  · have hocc := occupied_remove hremove
    have hlen := length_filter_names h.distinct hname
    have hsize : s'.size + 1 = s.size := by
      rw [hs']
      exact hlen
    rw [h.size_eq] at hsize
    omega

theorem tenant?_update_eq_some_iff (f : Node α → Node α) (id' : NodeId) :
    (∃ node, (s.update id f).tenant? id' = some ⟨name, node⟩) ↔
      ∃ node, s.tenant? id' = some ⟨name, node⟩ := by
  by_cases hid : id' = id
  · subst hid
    rw [tenant?_update_self]
    cases s.tenant? id' with
    | none => simp
    | some tenant =>
      obtain ⟨name', node'⟩ := tenant
      simp
  · rw [tenant?_update_of_ne f hid]

theorem Indexed.update (h : s.Indexed) (f : Node α → Node α) : (s.update id f).Indexed := by
  have hnames := names_update s id f
  constructor
  · intro name' id'
    rw [tenant?_update_eq_some_iff, ← h.find?_iff, find?, hnames, find?]
  · rw [hnames]
    exact h.distinct
  · rw [size, hnames, occupied_update, ← h.size_eq, size]

theorem indexed_empty : (empty : Stage α).Indexed := by
  constructor
  · intro name id
    simp [find?, tenant?, empty]
  · exact List.nodup_nil
  · rfl

theorem Indexed.edit (h : s.Indexed) (e : Edit α) : (s.edit e).Indexed := by
  cases e with
  | add name node =>
    rcases edit_add s name node with ⟨hsame, -⟩ | ⟨id, hadd, -⟩
    · rwa [hsame]
    · exact h.add hadd
  | remove id =>
    rcases edit_remove s id with ⟨-, hsame⟩ | ⟨node, hremove⟩
    · rwa [hsame]
    · exact h.remove hremove
  | change id f => exact h.update f

theorem indexed_ofEdits (edits : List (Edit α)) : (ofEdits edits).Indexed := by
  suffices hrun : ∀ s : Stage α, s.Indexed → (edits.foldl Stage.edit s).Indexed from
    hrun _ indexed_empty
  induction edits with
  | nil => exact fun s h => h
  | cons e edits ih => exact fun s h => ih _ (h.edit e)

/-! ## The stage as a map -/

/-- The handle's slot is in the handle's generation and holds a node under the name. -/
def Lives (s : Stage α) (id : NodeId) (name : String) : Prop :=
  ∃ slot tenant, s.slots[id.slot]? = some slot ∧ slot.generation = id.generation ∧
    slot.tenant = some tenant ∧ tenant.name = name

/-- Two stages agree on all handles but one and on all names but one. -/
structure AgreeExcept (s s' : Stage α) (id : NodeId) (name : String) : Prop where
  node? : ∀ other, other ≠ id → s'.node? other = s.node? other
  find? : ∀ other, other ≠ name → s'.find? other = s.find? other

/-- The stage is a map from names to nodes, each of which has its own handle. -/
structure IsNodeMap (s : Stage α) : Prop where
  find?_iff : ∀ name id, s.find? name = some id ↔ s.Lives id name
  find?_tenant : ∀ i slot tenant, s.slots[i]? = some slot → slot.tenant = some tenant →
    s.find? tenant.name = some ⟨i, slot.generation⟩
  unique : ∀ name id id', s.Lives id name → s.Lives id' name → id = id'
  size_eq : s.size = s.occupied
  /-- Only a name in use is refused. The stage then stays as it is. -/
  add_refused : ∀ name node,
    (s.add name node = .error (.duplicateName name) ↔ ∃ id, s.Lives id name) ∧
    ∀ e, s.add name node = .error e → e = .duplicateName name ∧ s.edit (.add name node) = s
  add : ∀ name node id s', s.add name node = .ok (id, s') →
    s'.find? name = some id ∧ s'.node? id = some node ∧ s.AgreeExcept s' id name
  remove : ∀ id node, s.node? id = some node → ∃ name s', s.remove id = some (node, s') ∧
    s.Lives id name ∧ s'.find? name = none ∧ s'.node? id = none ∧ s.AgreeExcept s' id name
  remove_stale : ∀ id, s.node? id = none → s.remove id = none ∧ s.edit (.remove id) = s
  /-- What comes off the stage is what the edits before have made of the node. -/
  remove_edited : ∀ id node (edits : List (Edit α)), s.node? id = some node →
    .remove id ∉ edits →
    ∃ s', (edits.foldl Stage.edit s).remove id = some (edits.foldl (Edit.through id) node, s')

theorem lives_iff : s.Lives id name ↔ ∃ node, s.tenant? id = some ⟨name, node⟩ := by
  simp only [tenant?_eq_some_iff]
  constructor
  · rintro ⟨⟨generation, _⟩, ⟨_, node⟩, hslot, rfl, rfl, rfl⟩
    exact ⟨node, hslot⟩
  · rintro ⟨node, hslot⟩
    exact ⟨_, _, hslot, rfl, rfl, rfl⟩

theorem agreeExcept_add (h : s.add name node = .ok (id, s')) : s.AgreeExcept s' id name :=
  ⟨fun _ hne => congrArg (·.map Tenant.node) (tenant?_add_of_ne h hne),
    fun _ hne => find?_add_of_ne h hne⟩

theorem agreeExcept_remove (h : s.remove id = some (node, s'))
    (htenant : s.tenant? id = some ⟨name, node⟩) : s.AgreeExcept s' id name :=
  ⟨fun _ hne => congrArg (·.map Tenant.node) (tenant?_remove_of_ne h hne),
    fun _ hne => by rw [find?_remove h htenant, if_neg hne]⟩

theorem exists_remove (h : s.node? id = some node) : ∃ s', s.remove id = some (node, s') := by
  obtain ⟨⟨name, _⟩, htenant, rfl⟩ := Option.map_eq_some_iff.mp h
  exact ⟨_, remove_eq_some_iff.mpr ⟨name, htenant, rfl⟩⟩

/-- An index that is in step with the slots makes the stage a map. -/
theorem Indexed.isNodeMap (h : s.Indexed) : s.IsNodeMap where
  find?_iff name id := by rw [h.find?_iff, lives_iff]
  find?_tenant i slot tenant hslot htenant := by
    rw [h.find?_iff, ← lives_iff]
    exact ⟨slot, tenant, hslot, rfl, htenant, rfl⟩
  unique name id id' hid hid' := by
    rw [lives_iff, ← h.find?_iff] at hid hid'
    exact Option.some_inj.mp (hid.symm.trans hid')
  size_eq := h.size_eq
  add_refused name node := by
    constructor
    · rw [add_eq_error_iff]
      simp only [true_and, h.find?_iff, lives_iff]
    · intro e he
      exact ⟨(add_eq_error_iff.mp he).1, by simp [Stage.edit, he]⟩
  add name node id s' hadd :=
    ⟨find?_add_self hadd, by simp [node?, tenant?_add_self hadd], agreeExcept_add hadd⟩
  remove id node hnode := by
    obtain ⟨s', hremove⟩ := exists_remove hnode
    obtain ⟨name, htenant, -⟩ := remove_eq_some_iff.mp hremove
    refine ⟨name, s', hremove, lives_iff.mpr ⟨node, htenant⟩, ?_, ?_,
      agreeExcept_remove hremove htenant⟩
    · rw [find?_remove hremove htenant, if_pos rfl]
    · simp [node?, tenant?_remove_self hremove]
  remove_stale id hnode := by
    have hnone := remove_eq_none_iff.mpr hnode
    exact ⟨hnone, by simp [Stage.edit, hnone]⟩
  remove_edited id node edits hnode hkeep := exists_remove (node?_foldl_edit hnode hkeep)

/-- A stage is a finite map from names to nodes, whatever was added, removed and changed. -/
theorem isNodeMap_ofEdits (edits : List (Edit α)) : (ofEdits edits).IsNodeMap :=
  (indexed_ofEdits edits).isNodeMap

end PanZoom.Stage
