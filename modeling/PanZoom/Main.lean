import PanZoom.Replay
import PanZoom.Storage.ConfigFile

namespace PanZoom

def readText? (path : String) : IO (Option String) := do
  try
    return some (← IO.FS.readFile path)
  catch _ =>
    return none

def surroundings : IO Surroundings := do
  return ⟨(← IO.getEnv "HOME").getD "", ← IO.getEnv "XDG_CONFIG_HOME"⟩

end PanZoom

open PanZoom in
/-- Replays the script that the arguments name. -/
def main (arguments : List String) : IO UInt32 := do
  let config ← readText? (← surroundings).configPath
  let script ← match Request.scriptPath? arguments with
    | some path => readText? path
    | none => pure none
  let report := Replay.run arguments config fun _ => script
  report.lines.forM IO.println
  if let some message := report.ending.message? then
    IO.eprintln ("bufview: " ++ message)
  return report.ending.exitCode
