import PanZoom.Scene.Node

/-!
# The stage

The stage owns the nodes. A node lives in a slot and is reached by a handle: the slot's number and
the generation the slot had when the node moved in. A slot that is used again has a new generation,
so the handles of former tenants find nothing:

* `Stage.add`: a new node in the lowest free slot, under a name that is not in use;
* `Stage.remove`: the node leaves its slot and its name is free again;
* `Stage.find?`, `Stage.node?`: from names to handles and from handles to nodes;
* `Stage.update`: changes the node of a live handle in place.
-/

namespace PanZoom

/-- A handle: the number of a slot and the slot's generation. -/
structure NodeId where
  slot : Nat
  generation : UInt32
  deriving DecidableEq, Repr

def NodeId.text (id : NodeId) : String :=
  "#" ++ Nat.repr id.slot ++ "v" ++ Nat.repr id.generation.toNat

/-- A node together with the name it was added under. -/
structure Tenant (α : Type) where
  name : String
  node : Node α
  deriving DecidableEq, Repr

/-- A place for a node. The generation counts how often the place was used again. -/
structure Slot (α : Type) where
  generation : UInt32
  tenant : Option (Tenant α)
  deriving DecidableEq, Repr

/-- The slots and the index of the names in use. -/
structure Stage (α : Type) where
  slots : List (Slot α)
  names : List (String × NodeId)
  deriving DecidableEq, Repr

inductive StageError where
  | noSuchName (name : String)
  | staleHandle (id : NodeId)
  | duplicateName (name : String)
  | missingBuffer (id : NodeId)
  deriving DecidableEq, Repr

def StageError.message : StageError → String
  | noSuchName name => "No scene node named '" ++ name ++ "'"
  | staleHandle id => "Scene node " ++ id.text ++ " was removed from the stage"
  | duplicateName name => "A scene node named '" ++ name ++ "' already exists"
  | missingBuffer id =>
      "Scene node " ++ id.text ++ " has no 'bufview_scene::buffer::BufferDescriptor' component"

namespace Stage

variable {α : Type}

def empty : Stage α :=
  ⟨[], []⟩

def size (s : Stage α) : Nat :=
  s.names.length

def find? (s : Stage α) (name : String) : Option NodeId :=
  s.names.lookup name

def require (s : Stage α) (name : String) : Except StageError NodeId :=
  match s.find? name with
  | some id => .ok id
  | none => .error (.noSuchName name)

def tenant? (s : Stage α) (id : NodeId) : Option (Tenant α) :=
  match s.slots[id.slot]? with
  | some slot => if slot.generation = id.generation then slot.tenant else none
  | none => none

def node? (s : Stage α) (id : NodeId) : Option (Node α) :=
  (s.tenant? id).map Tenant.node

def resolve (s : Stage α) (id : NodeId) : Except StageError (Node α) :=
  match s.node? id with
  | some node => .ok node
  | none => .error (.staleHandle id)

def buffer (s : Stage α) (id : NodeId) : Except StageError (ImageBuffer α) :=
  match s.resolve id with
  | .error e => .error e
  | .ok node =>
    match node.buffer with
    | some buffer => .ok buffer
    | none => .error (.missingBuffer id)

/-- The number of the lowest free slot, if one is free. -/
def freeSlot? (s : Stage α) : Option Nat :=
  s.slots.findIdx? (·.tenant.isNone)

/-- The handle that the next added node gets: the lowest free slot in its next generation, or a new
slot in its first. -/
def nextId (s : Stage α) : NodeId :=
  match s.freeSlot? with
  | some i => ⟨i, ((s.slots[i]?.map Slot.generation).getD 0) + 1⟩
  | none => ⟨s.slots.length, 0⟩

/-- Puts a slot at the given number, which is at most one past the last. -/
def putSlot (s : Stage α) (i : Nat) (slot : Slot α) : List (Slot α) :=
  if i < s.slots.length then s.slots.set i slot else s.slots ++ [slot]

/-- Adds a node under a name that is not in use. -/
def add (s : Stage α) (name : String) (node : Node α) : Except StageError (NodeId × Stage α) :=
  match s.find? name with
  | some _ => .error (.duplicateName name)
  | none =>
      let id := s.nextId
      .ok (id, ⟨s.putSlot id.slot ⟨id.generation, some ⟨name, node⟩⟩, (name, id) :: s.names⟩)

/-- Takes a node off the stage, if the handle still reaches it. The slot keeps its generation until
it is used again. -/
def remove (s : Stage α) (id : NodeId) : Option (Node α × Stage α) :=
  match s.tenant? id with
  | none => none
  | some tenant =>
      some (tenant.node,
        ⟨s.slots.set id.slot ⟨id.generation, none⟩,
         s.names.filter fun entry => entry.1 ≠ tenant.name⟩)

/-- Changes the node that the handle reaches; a stale handle changes nothing. -/
def update (s : Stage α) (id : NodeId) (f : Node α → Node α) : Stage α :=
  match s.tenant? id with
  | none => s
  | some tenant =>
      { s with
        slots := s.slots.set id.slot
          ⟨id.generation, some { tenant with node := f tenant.node }⟩ }

end Stage

end PanZoom
