import PanZoom.Input.Bindings
import PanZoom.Scalar.Single

/-!
# Camera settings

One zoom step multiplies the zoom by a factor that is finite and above one; one panning step is
finite and above zero. Settings carry both facts. `Settings.ofRequest` puts the values of given
settings in the place of requests that fail them.
-/

namespace PanZoom

def IsZoomFactor {α : Type} [Scalar α] (factor : α) : Prop :=
  Scalar.isFinite factor = true ∧ 1 < factor

def IsPanStep {α : Type} [Scalar α] (step : α) : Prop :=
  Scalar.isFinite step = true ∧ 0 < step

instance {α : Type} [Scalar α] (factor : α) : Decidable (IsZoomFactor factor) :=
  inferInstanceAs (Decidable (_ ∧ _))

instance {α : Type} [Scalar α] (step : α) : Decidable (IsPanStep step) :=
  inferInstanceAs (Decidable (_ ∧ _))

structure Settings (α : Type) [Scalar α] where
  zoomFactor : α
  panStep : α
  bindings : Bindings
  isZoomFactor : IsZoomFactor zoomFactor
  isPanStep : IsPanStep panStep
  deriving DecidableEq

namespace Settings

variable {α : Type} [Scalar α]

/-- The requested settings, with the fallback's factor or step where the requested one is unfit. -/
def ofRequest (fallback : Settings α) (zoomFactor panStep : α) (bindings : Bindings) :
    Settings α :=
  let factor : { f : α // IsZoomFactor f } :=
    if h : IsZoomFactor zoomFactor then ⟨zoomFactor, h⟩
    else ⟨fallback.zoomFactor, fallback.isZoomFactor⟩
  let step : { s : α // IsPanStep s } :=
    if h : IsPanStep panStep then ⟨panStep, h⟩
    else ⟨fallback.panStep, fallback.isPanStep⟩
  ⟨factor, step, bindings, factor.property, step.property⟩

/-- The greatest whole power that the zoom may take, up or down. -/
def maxPower (s : Settings α) : α :=
  Scalar.powerLimit s.zoomFactor

def default : Settings Float32 :=
  ⟨1.1, 1, .default, by decide +kernel, by decide +kernel⟩

end Settings

end PanZoom
