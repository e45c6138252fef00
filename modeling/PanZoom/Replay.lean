import PanZoom.Decimal.Reading
import PanZoom.Format.Config
import PanZoom.Format.Events
import PanZoom.Status

/-!
# Replaying a script

The program builds a viewer of a buffer with the size given on the command line, feeds it a script
of events with one frame after each, and reports what can be seen: the status at the start, after
each event that asked for a redraw and at the end, and the view transform.

* `Request.ofArguments`: what the arguments ask for;
* `Replay.report`: the report on a viewer and a script;
* `Replay.run`: what the program prints, from arguments, configuration and script.
-/

namespace PanZoom

/-- What the command line asks for: the buffer's size and the path of a script. -/
structure Request where
  buffer : ImageBuffer Float32
  script : Option String
  deriving DecidableEq

inductive ReplayError where
  | usage
  | width (text : String) (error : Decimal.ReadError)
  | height (text : String) (error : Decimal.ReadError)
  | unreadable
  | malformed
  | camera (error : CameraError)
  deriving DecidableEq, Repr

/-- The wording of an error. Of a script that cannot be used only the beginning is given: the quoted
path and the cause are left out, since the file system and the reader of JSON word the cause. -/
def ReplayError.message : ReplayError → String
  | usage => "usage: bufview <buffer-width> <buffer-height> [events.json]"
  | width text error => "invalid buffer width '" ++ text ++ "': " ++ error.message
  | height text error => "invalid buffer height '" ++ text ++ "': " ++ error.message
  | unreadable => "failed to read"
  | malformed => "failed to parse"
  | camera error => error.message

def Request.scriptPath? : List String → Option String
  | _ :: _ :: path :: _ => some path
  | _ => none

/-- What the arguments ask for. Both numbers must be there before either is looked at. -/
def Request.ofArguments : List String → Except ReplayError Request
  | width :: height :: rest =>
    match Decimal.readSingle width with
    | .error e => .error (.width width e)
    | .ok w =>
      match Decimal.readSingle height with
      | .error e => .error (.height height e)
      | .ok h => .ok ⟨⟨w, h⟩, scriptPath? (width :: height :: rest)⟩
  | _ => .error .usage

inductive Ending where
  | success
  | failure (error : ReplayError)
  /-- The program breaks off without a message of its own. -/
  | broken
  deriving DecidableEq, Repr

def Ending.exitCode : Ending → UInt32
  | success => 0
  | failure _ => 1
  | broken => 101

def Ending.message? : Ending → Option String
  | failure e => some e.message
  | _ => none

/-- The lines printed, and the ending. -/
structure Report where
  lines : List String
  ending : Ending
  deriving DecidableEq, Repr

namespace Replay

def canvas : Size :=
  ⟨800, 600⟩

def endingOf : Stop → Ending
  | .failed e => .failure (.camera e)
  | .crossedLimits => .broken
  | .endless => .broken

/-- The line after an event that asked for a redraw. -/
def eventLine (index : Nat) (v : Viewer Float32) : String :=
  "[" ++ Nat.repr index ++ "] " ++ v.status

/-- The viewer after one event and one frame, or what stopped it. -/
def step (v : Viewer Float32) (e : Event Float32) : Except Stop (Viewer Float32) :=
  let (v, handled) := v.handle e
  match handled with
  | .error stop => .error stop
  | .ok _ =>
    let (v, ticked) := v.tick
    match ticked with
    | .error stop => .error stop
    | .ok _ => .ok v

/-- The lines for the events from the given number on, and the viewer after them. -/
def play (v : Viewer Float32) : Nat → List (Event Float32) →
    List String × Except Stop (Viewer Float32)
  | _, [] => ([], .ok v)
  | index, e :: rest =>
    match step v e with
    | .error stop => ([], .error stop)
    | .ok v =>
      let (drained, redraw) := v.takeRedraw
      let (lines, result) := play drained (index + 1) rest
      (if redraw then eventLine index drained :: lines else lines, result)

def columnLine (column : Homogeneous Float32) : String :=
  let cells := column.toList.map fun x => Decimal.padLeft 9 (placesText 5 x)
  String.ofList ("  [".toList ++ (cells.intersperse [' ']).flatten ++ [']'])

def closing (v : Viewer Float32) : List String :=
  let uniform := v.camera.uniform
  let columns := uniform.columns
  [String.ofList ("final: zoom power ".toList ++ plainText v.camera.zoomPower ++
      ", pan (".toList ++ placesText 3 v.camera.pan.x ++ [',', ' '] ++
      placesText 3 v.camera.pan.y ++ "), ".toList) ++ v.status,
   "view transform (" ++ Nat.repr uniform.bytes.length ++ " bytes):",
   columnLine columns.x, columnLine columns.y, columnLine columns.z, columnLine columns.w]

def report (buffer : ImageBuffer Float32) (config : Config) (script : List (Event Float32)) :
    Report :=
  match Viewer.create buffer config.settings canvas with
  | .error stop => ⟨[], endingOf stop⟩
  | .ok v =>
    let opening := "initial: " ++ v.status
    match play v 0 script with
    | (lines, .error stop) => ⟨opening :: lines, endingOf stop⟩
    | (lines, .ok v) => ⟨opening :: lines ++ closing v, .success⟩

/-- The configuration in force: that of the file's text, if it can be used. -/
def configInForce (text : Option String) : Config :=
  match text with
  | none => .default
  | some text =>
    match Config.read text with
    | .ok c => c
    | .error _ => .default

def loadScript (readFile : String → Option String) :
    Option String → Except ReplayError (List (Event Float32))
  | none => .ok []
  | some path =>
    match readFile path with
    | none => .error .unreadable
    | some text =>
      match Event.readScript? text with
      | none => .error .malformed
      | some events => .ok events

/-- The report for the given arguments, with the text of the configuration file and a way to read
files. When debugging is logged, the frame interval is logged first, and must exist. -/
def run (arguments : List String) (configText : Option String)
    (readFile : String → Option String) : Report :=
  let config := configInForce configText
  if config.logLevel.logsDebug && config.frameInterval?.isNone then ⟨[], .broken⟩
  else
    match Request.ofArguments arguments with
    | .error e => ⟨[], .failure e⟩
    | .ok request =>
      match loadScript readFile request.script with
      | .error e => ⟨[], .failure e⟩
      | .ok script => report request.buffer config script

end Replay

end PanZoom
