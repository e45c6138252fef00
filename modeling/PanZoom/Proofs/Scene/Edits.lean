import PanZoom.Proofs.Scene.Occupancy

namespace PanZoom

/-- What can be done to a stage. -/
inductive Edit (α : Type) where
  | add (name : String) (node : Node α)
  | remove (id : NodeId)
  | change (id : NodeId) (f : Node α → Node α)

/-- What an edit makes of the node that a handle finds, unless it removes the handle. -/
def Edit.through {α : Type} (id : NodeId) (node : Node α) : Edit α → Node α
  | .change other f => if other = id then f node else node
  | _ => node

namespace Stage

variable {α : Type} {s s' : Stage α} {id : NodeId} {name : String} {node : Node α}

/-- The stage after an edit. A name in use and a handle without a node leave it as it is. -/
def edit (s : Stage α) : Edit α → Stage α
  | .add name node =>
    match s.add name node with
    | .ok (_, s') => s'
    | .error _ => s
  | .remove id =>
    match s.remove id with
    | some (_, s') => s'
    | none => s
  | .change id f => s.update id f

def issue? (s : Stage α) : Edit α → Option NodeId
  | .add name node =>
    match s.add name node with
    | .ok (id, _) => some id
    | .error _ => none
  | _ => none

def ofEdits (edits : List (Edit α)) : Stage α :=
  edits.foldl edit empty

def issuedFrom (s : Stage α) : List (Edit α) → List NodeId
  | [] => []
  | e :: edits => (s.issue? e).toList ++ issuedFrom (s.edit e) edits

/-- The handles that edits hand out, the oldest first. -/
def issued (edits : List (Edit α)) : List NodeId :=
  issuedFrom empty edits

theorem issuedFrom_append (s : Stage α) (edits later : List (Edit α)) :
    s.issuedFrom (edits ++ later) =
      s.issuedFrom edits ++ (edits.foldl edit s).issuedFrom later := by
  induction edits generalizing s with
  | nil => rfl
  | cons e edits ih => simp [issuedFrom, ih]

/-- An addition either fails and changes nothing, or leads to the added stage. -/
theorem edit_add (s : Stage α) (name : String) (node : Node α) :
    (s.edit (.add name node) = s ∧ s.issue? (.add name node) = none ∧
      ∃ id, s.find? name = some id) ∨
    ∃ id, s.add name node = .ok (id, s.edit (.add name node)) ∧
      s.issue? (.add name node) = some id := by
  cases h : s.add name node with
  | error e => exact .inl ⟨by simp [edit, h], by simp [issue?, h], (add_eq_error_iff.mp h).2⟩
  | ok result =>
    obtain ⟨id, s'⟩ := result
    exact .inr ⟨id, by simp [edit, h], by simp [issue?, h]⟩

/-- A removal either fails and changes nothing, or leads to the stage without the node. -/
theorem edit_remove (s : Stage α) (id : NodeId) :
    (s.node? id = none ∧ s.edit (.remove id) = s) ∨
    ∃ node, s.remove id = some (node, s.edit (.remove id)) := by
  cases h : s.remove id with
  | none => exact .inl ⟨remove_eq_none_iff.mp h, by simp [edit, h]⟩
  | some result =>
    obtain ⟨node, s'⟩ := result
    exact .inr ⟨node, by simp [edit, h]⟩

/-- A node that is not removed is what the edit through its handle makes of it. -/
theorem node?_edit {e : Edit α} (h : s.node? id = some node) (hkeep : e ≠ .remove id) :
    (s.edit e).node? id = some (e.through id node) := by
  cases e with
  | add name added =>
    rcases edit_add s name added with ⟨hsame, -⟩ | ⟨new, hadd, -⟩
    · rw [hsame, h]
      rfl
    · have hne : id ≠ new := by
        rintro rfl
        have hfree := tenant?_of_slot_eq_nextId (s := s) (congrArg _ (add_eq_ok_iff.mp hadd).2.1)
        simp [node?, hfree] at h
      rw [node?, tenant?_add_of_ne hadd hne]
      exact h
  | remove other =>
    rcases edit_remove s other with ⟨-, hsame⟩ | ⟨removed, hremove⟩
    · rw [hsame, h]
      rfl
    · have hne : id ≠ other := by
        rintro rfl
        exact hkeep rfl
      rw [node?, tenant?_remove_of_ne hremove hne]
      exact h
  | change other f =>
    simp only [edit, Edit.through]
    by_cases hother : other = id
    · subst hother
      rw [node?_update_self, h, if_pos rfl]
      rfl
    · rw [s.node?_update_of_ne f (Ne.symm hother), h, if_neg hother]

/-- A node is what all edits made of it, in their order, as long as its handle is not removed. -/
theorem node?_foldl_edit {edits : List (Edit α)} (h : s.node? id = some node)
    (hkeep : .remove id ∉ edits) :
    (edits.foldl edit s).node? id = some (edits.foldl (Edit.through id) node) := by
  induction edits generalizing s node with
  | nil => exact h
  | cons e edits ih =>
    rw [List.mem_cons, not_or] at hkeep
    exact ih (node?_edit h (Ne.symm hkeep.1)) hkeep.2

end Stage

end PanZoom
