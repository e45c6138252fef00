import PanZoom.Camera.Basic

/-!
# Fitting the buffer

The fit is the largest whole zoom power at which the posed buffer is strictly inside the viewport,
found by single steps from unit zoom: upward while the next step still fits, or downward while
something overflows. A buffer or viewport that counts as empty is shown at unit zoom.
-/

namespace PanZoom

/-- The first number of the sequence `start, next start, …` at which `goOn` fails, if it is among
the first `tries`. -/
def firstStop {α : Type} (goOn : α → Bool) (next : α → α) : (tries : Nat) → (start : α) → Option α
  | 0, _ => none
  | tries + 1, p => if goOn p then firstStop goOn next tries (next p) else some p

/-- What a fit compares: the posed buffer's extent, the viewport and the camera's settings. -/
structure Fitting (α : Type) [Scalar α] where
  extent : Homogeneous α
  viewport : Size
  settings : Settings α

namespace Fitting

variable {α : Type} [Scalar α]

/-- The extent is not finite or too small, or the viewport is empty. -/
def isDegenerate (f : Fitting α) : Bool :=
  !(Scalar.isFinite f.extent.x && Scalar.isFinite f.extent.y) ||
    decide (f.extent.x < Scalar.leastExtent) || decide (f.extent.y < Scalar.leastExtent) ||
    f.viewport.isEmpty

def zoom (f : Fitting α) (power : α) : α :=
  Scalar.pow f.settings.zoomFactor power

/-- At this power the buffer is strictly inside the viewport on both axes. -/
def fits (f : Fitting α) (power : α) : Bool :=
  let zoom := f.zoom power
  decide (zoom * f.extent.x < Scalar.ofCount f.viewport.width) &&
    decide (zoom * f.extent.y < Scalar.ofCount f.viewport.height)

/-- At this power the buffer is larger than the viewport on some axis. -/
def overflows (f : Fitting α) (power : α) : Bool :=
  let zoom := f.zoom power
  decide (Scalar.ofCount f.viewport.width < zoom * f.extent.x) ||
    decide (Scalar.ofCount f.viewport.height < zoom * f.extent.y)

def limit (f : Fitting α) : α :=
  f.settings.maxPower

def goesUp (f : Fitting α) (limit power : α) : Bool :=
  decide (power < limit) && f.fits (power + 1)

def goesDown (f : Fitting α) (limit power : α) : Bool :=
  decide (-limit < power) && f.overflows power

/-- The highest power reached from unit zoom while the next step fits. -/
def climb (f : Fitting α) : Option α :=
  let limit := f.limit
  firstStop (f.goesUp limit) (· + 1) (Scalar.stepsPast limit) 0

/-- The first power below unit zoom at which nothing overflows, or the lowest allowed. -/
def descend (f : Fitting α) : Option α :=
  let limit := f.limit
  firstStop (f.goesDown limit) (· - 1) (Scalar.stepsPast limit) (-1)

/-- The fitted power. There is none if the steps stop moving before they reach an end. -/
def power? (f : Fitting α) : Option α :=
  if f.isDegenerate then some 0
  else if f.fits 0 then f.climb
  else if f.overflows 0 then f.descend
  else some 0

end Fitting

namespace Camera

variable {α : Type} [Scalar α]

/-- What the camera has to fit, for a buffer in a pose. The shift of the pose plays no part. -/
def fitting (c : Camera α) (pose : Transform α) (buffer : ImageBuffer α) : Fitting α :=
  ⟨(pose * Homogeneous.direction buffer.width buffer.height).abs, c.viewport, c.settings⟩

def fittedPower (c : Camera α) (stage : Stage α) : Except Stop α :=
  match c.bufferGeometry stage with
  | .error e => .error (.failed e)
  | .ok (pose, buffer) =>
    match (c.fitting pose buffer).power? with
    | some power => .ok power
    | none => .error .endless

/-- Zooms so that the buffer fits, and publishes the view. -/
def fit (c : Camera α) (stage : Stage α) : Outcome α Unit :=
  match c.fittedPower stage with
  | .error stop => .stopped c stage stop
  | .ok power => { c with zoomPower := power }.publish stage

/-- Takes over the size of the canvas and fits the buffer to it. -/
def fitTo (c : Camera α) (stage : Stage α) (size : Size) : Outcome α Unit :=
  (c.resize size).fit stage

/-- Drops the pan and fits the buffer. -/
def recenter (c : Camera α) (stage : Stage α) : Outcome α Unit :=
  { c with pan := ⟨0, 0⟩ }.fit stage

end Camera

end PanZoom
