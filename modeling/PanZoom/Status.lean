import PanZoom.Decimal.Fixed
import PanZoom.Viewer

namespace PanZoom

def placesText (places : Nat) (x : Float32) : List Char :=
  Decimal.fixed places (Single.value x)

def plainText (x : Float32) : List Char :=
  Decimal.plain Binary.single (Single.value x)

namespace Viewer

/-- The zoom in percent and, if it can be found, the centred point. -/
def status (v : Viewer Float32) : String :=
  let zoom := "Zoom: ".toList ++ placesText 0 (v.camera.zoom * 100) ++ ['%']
  match v.camera.center v.stage with
  | .error _ => String.ofList zoom
  | .ok center =>
      String.ofList (zoom ++ " | Center: (".toList ++ placesText 1 center.x ++ [',', ' '] ++
        placesText 1 center.y ++ [')'])

end Viewer

end PanZoom
