import PanZoom.Storage.Path

namespace PanZoom.Storage

/-- The names that lead from the root to a place. -/
abbrev Place := List String

inductive Entry where
  | directory
  | file (bytes : ByteArray)

def Entry.isDirectory : Entry → Bool
  | directory => true
  | file _ => false

/-- The entries below the root, each with its place; the latest comes first. -/
structure FileTree where
  entries : List (Place × Entry)

namespace FileTree

def empty : FileTree :=
  ⟨[]⟩

/-- What is at a place. The root is a directory. -/
def entry? (t : FileTree) (place : Place) : Option Entry :=
  if place.isEmpty then some .directory else t.entries.lookup place

def put (t : FileTree) (place : Place) (entry : Entry) : FileTree :=
  ⟨(place, entry) :: t.entries⟩

/-- The place that names lead to from a directory. Only directories can be passed through. -/
def follow? (t : FileTree) : Place → List String → Option Place
  | here, [] => some here
  | here, name :: rest =>
    if isName name && (t.entry? here).any Entry.isDirectory then
      if name = ".." then t.follow? here.dropLast rest else t.follow? (here ++ [name]) rest
    else none

def place? (t : FileTree) (path : String) : Option Place :=
  if isPath path then t.follow? [] (names path) else none

def isDirectory (t : FileTree) (path : String) : Bool :=
  ((t.place? path).bind t.entry?).any Entry.isDirectory

def read? (t : FileTree) (path : String) : Option ByteArray :=
  match t.place? path with
  | none => none
  | some place =>
    match t.entry? place with
    | some (.file bytes) => if endsInDirectory path then none else some bytes
    | _ => none

/-- The text of the file at a path, if its bytes are one. -/
def readText? (t : FileTree) (path : String) : Option String :=
  (t.read? path).bind String.fromUTF8?

def isFile (t : FileTree) (path : String) : Bool :=
  (t.read? path).isSome

/-- Creates or replaces the file at a path. Its directory must be there. -/
def write? (t : FileTree) (path : String) (bytes : ByteArray) : Option FileTree :=
  if endsInDirectory path then none
  else
    match t.place? path with
    | none => none
    | some place =>
      if (t.entry? place).any Entry.isDirectory then none else some (t.put place (.file bytes))

/-- The tree in which names lead through directories from a place, with those missing created, and
whether that was possible all the way. -/
def makeFrom (t : FileTree) : Place → List String → FileTree × Bool
  | here, [] => (t, (t.entry? here).any Entry.isDirectory)
  | here, name :: rest =>
    if name = ".." then t.makeFrom here.dropLast rest
    else
      let next := here ++ [name]
      match t.entry? next with
      | some .directory => t.makeFrom next rest
      | some (.file _) => (t, false)
      | none => if isName name then (t.put next .directory).makeFrom next rest else (t, false)

/-- Creates the directory at a path and those on the way, and says whether it is there. A directory
that is named by a dot in it is not created, only those on the way. -/
def makeDirectory (t : FileTree) (path : String) : FileTree × Bool :=
  if isPath path then
    if endsInDot path then
      let (t, made) := t.makeFrom [] (names path).dropLast
      (t, made && t.isDirectory path)
    else t.makeFrom [] (names path)
  else (t, false)

end FileTree

end PanZoom.Storage
