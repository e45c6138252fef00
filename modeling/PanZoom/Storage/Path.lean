/-!
# Paths

A path is a text with names between slashes. Names that are empty or a single dot say nothing; two
dots lead to the directory above. Names and whole paths have a greatest length in bytes.
-/

namespace PanZoom.Storage

def parts (path : String) : List String :=
  path.splitOn "/"

/-- The part is empty or a single dot. -/
def saysNothing (part : String) : Bool :=
  part = "" || part = "."

def names (path : String) : List String :=
  (parts path).filter fun part => !saysNothing part

def isAbsolute (path : String) : Bool :=
  path.startsWith "/"

/-- The path insists on a directory by ending in a slash or a dot. -/
def endsInDirectory (path : String) : Bool :=
  match (parts path).getLast? with
  | some last => saysNothing last
  | none => true

/-- The path insists on a directory that is there already: its last name is a dot. -/
def endsInDot (path : String) : Bool :=
  ((parts path).filter (· ≠ "")).getLast? = some "."

/-- A path below another. A path that begins at the root stands for itself. -/
def join (path next : String) : String :=
  if isAbsolute next then next
  else if path = "" || path.endsWith "/" then path ++ next
  else path ++ "/" ++ next

/-- The path of the directory above: the last name is dropped, and what says nothing around it. -/
def parent (path : String) : String :=
  let above := ((parts path).reverse.dropWhile saysNothing).drop 1
  "/".intercalate (above.dropWhile saysNothing).reverse

def nameBound : Nat :=
  255

def pathBound : Nat :=
  4095

def isName (name : String) : Bool :=
  name.utf8ByteSize ≤ nameBound

def isPath (path : String) : Bool :=
  path.utf8ByteSize ≤ pathBound && path.toList.all (· ≠ '\x00')

end PanZoom.Storage
