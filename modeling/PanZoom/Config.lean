import PanZoom.Camera.Settings

namespace PanZoom

inductive LogLevel where
  | error
  | warn
  | info
  | debug
  | trace
  deriving DecidableEq, Repr

def LogLevel.logsDebug : LogLevel → Bool
  | debug => true
  | trace => true
  | _ => false

structure Config where
  version : UInt32
  zoomFactor : Float32
  panStep : Float32
  maxFramerate : Float
  bindings : Bindings
  logLevel : LogLevel
  deriving DecidableEq

structure Duration where
  seconds : Nat
  nanoseconds : Nat
  deriving DecidableEq, Repr

def Duration.perSecond : Nat :=
  Nat.pow 10 9

/-- The duration of a number of seconds, to the nearest nanosecond, halves to even. There is none
for a number that is negative or undefined or reaches `2 ^ 64`. -/
def Duration.ofSeconds? (seconds : Float) : Option Duration :=
  match Double.value seconds with
  | .finite negative m =>
      let num := m.significand <<< m.exponent.toNat
      let den := 1 <<< (-m.exponent).toNat
      if (negative ∧ 0 < num) ∨ UInt64.size * den ≤ num then none
      else
        let nanoseconds := Binary.roundRatio (num * perSecond) den
        some ⟨nanoseconds / perSecond, nanoseconds % perSecond⟩
  | _ => none

namespace Config

def newestVersion : UInt32 :=
  1

def default : Config :=
  { version := newestVersion
    zoomFactor := Settings.default.zoomFactor
    panStep := Settings.default.panStep
    maxFramerate := 60
    bindings := .default
    logLevel := .info }

/-- The configuration with unfit numbers replaced and the bindings repaired. The frame cap, unlike
the others, is replaced by one and not by its default. -/
def sanitized (c : Config) : Config :=
  { c with
    zoomFactor :=
      if !c.zoomFactor.isFinite || c.zoomFactor ≤ 1 then default.zoomFactor else c.zoomFactor
    panStep := if !c.panStep.isFinite || c.panStep ≤ 0 then default.panStep else c.panStep
    bindings := c.bindings.repaired
    maxFramerate := if !c.maxFramerate.isFinite || c.maxFramerate ≤ 0 then 1 else c.maxFramerate }

def settings (c : Config) : Settings Float32 :=
  .ofRequest .default c.zoomFactor c.panStep c.bindings

def frameInterval? (c : Config) : Option Duration :=
  Duration.ofSeconds? (1 / c.maxFramerate)

end Config

end PanZoom
