import PanZoom.Format.Config
import PanZoom.Storage.FileTree

namespace PanZoom

open Storage

structure Surroundings where
  home : String
  configHome : Option String
  deriving DecidableEq, Repr

namespace Surroundings

/-- The directory of all configurations: the one that is asked for, if its path is absolute, or else
the usual one in the user's own directory. -/
def configDirectory (s : Surroundings) : String :=
  match s.configHome with
  | some path => if isAbsolute path then path else join s.home ".config"
  | none => join s.home ".config"

def configPath (s : Surroundings) : String :=
  join (join s.configDirectory "bufview") "bufview-config.json"

end Surroundings

namespace Config

def load (t : FileTree) (path : String) : Except ConfigError Config :=
  match t.readText? path with
  | none => .error .inaccessible
  | some text => read text

/-- The configuration in the usual file. There is none if there is no such file or it cannot be
used. -/
def loadUsual? (t : FileTree) (s : Surroundings) : Option Config :=
  if t.isFile s.configPath then (load t s.configPath).toOption else none

/-- Writes the configuration to a file, whose directory is created. It stays if the file cannot be
written. -/
def save (c : Config) (t : FileTree) (path : String) : FileTree × Except ConfigError Unit :=
  let (t, made) := t.makeDirectory (parent path)
  if made then
    match t.write? path c.write.toUTF8 with
    | some t => (t, .ok ())
    | none => (t, .error .inaccessible)
  else (t, .error .inaccessible)

end Config

end PanZoom
