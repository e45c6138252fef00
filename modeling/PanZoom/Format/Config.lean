import PanZoom.Config
import PanZoom.Format.Keys
import PanZoom.Json.Render

/-!
# Configuration files

A configuration is a record of its version and four sections, each a record of its own. Any section
and any field of a section may be left out and then has its default; the version may not.

* `Config.toJson`, `Config.ofJson?`: between configurations and values;
* `Config.write`: the text of a file;
* `Config.read`: the sanitized configuration of a text, unless its version is newer than known.
-/

namespace PanZoom

namespace LogLevel

def name : LogLevel → String
  | error => "error"
  | warn => "warn"
  | info => "info"
  | debug => "debug"
  | trace => "trace"

def every : List LogLevel :=
  [error, warn, info, debug, trace]

def ofName? (s : String) : Option LogLevel :=
  every.find? (·.name = s)

def toJson (l : LogLevel) : Json :=
  .ofString l.name

def ofJson? (v : Json) : Option LogLevel :=
  v.named? false ofName?

end LogLevel

inductive ConfigError where
  | malformed
  | unsupportedVersion (found : UInt32)
  | inaccessible
  deriving DecidableEq, Repr

/-- The wording of an error, as far as it is ours. -/
def ConfigError.message : ConfigError → String
  | malformed => "Malformed config"
  | unsupportedVersion found =>
      "Config version " ++ Nat.repr found.toNat ++ " is not supported (newest known is " ++
        Nat.repr Config.newestVersion.toNat ++ ")"
  | inaccessible => "Config file I/O failed"

namespace Config

def fieldNames : List String :=
  ["version", "camera", "rendering", "keybindings", "preferences"]

def cameraFieldNames : List String :=
  ["zoom_factor", "pan_step"]

def renderingFieldNames : List String :=
  ["max_framerate"]

def preferenceFieldNames : List String :=
  ["log_level"]

def toJson (c : Config) : Json :=
  .ofMembers
    [("version", .ofNat c.version.toNat),
     ("camera",
      .ofMembers [("zoom_factor", .ofSingle c.zoomFactor), ("pan_step", .ofSingle c.panStep)]),
     ("rendering", .ofMembers [("max_framerate", .ofDouble c.maxFramerate)]),
     ("keybindings", c.bindings.toJson),
     ("preferences", .ofMembers [("log_level", c.logLevel.toJson)])]

def cameraOfJson? (v : Json) : Option (Float32 × Float32) :=
  match v.fields? cameraFieldNames with
  | some [zoomFactor, panStep] => do
      let zoomFactor ← Json.optional Json.toSingle? default.zoomFactor zoomFactor
      let panStep ← Json.optional Json.toSingle? default.panStep panStep
      return (zoomFactor, panStep)
  | _ => none

def renderingOfJson? (v : Json) : Option Float :=
  match v.fields? renderingFieldNames with
  | some [maxFramerate] => Json.optional Json.toDouble? default.maxFramerate maxFramerate
  | _ => none

def preferencesOfJson? (v : Json) : Option LogLevel :=
  match v.fields? preferenceFieldNames with
  | some [logLevel] => Json.optional LogLevel.ofJson? default.logLevel logLevel
  | _ => none

/-- The configuration that a record stands for, as it is given. -/
def ofJson? (v : Json) : Option Config :=
  match v.fields? fieldNames with
  | some [version, camera, rendering, bindings, preferences] => do
      let version ← Json.required Json.toCount? version
      let (zoomFactor, panStep) ←
        Json.optional cameraOfJson? (default.zoomFactor, default.panStep) camera
      let maxFramerate ← Json.optional renderingOfJson? default.maxFramerate rendering
      let bindings ← Json.optional Bindings.ofJson? default.bindings bindings
      let logLevel ← Json.optional preferencesOfJson? default.logLevel preferences
      return { version, zoomFactor, panStep, maxFramerate, bindings, logLevel }
  | _ => none

def write (c : Config) : String :=
  c.toJson.pretty

/-- The sanitized configuration of a text. -/
def read (text : String) : Except ConfigError Config :=
  match (Json.parse? text).bind ofJson? with
  | none => .error .malformed
  | some c =>
    if newestVersion < c.version then .error (.unsupportedVersion c.version) else .ok c.sanitized

end Config

end PanZoom
