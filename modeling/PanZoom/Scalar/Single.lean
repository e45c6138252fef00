import PanZoom.Elementary.Power
import PanZoom.Scalar

namespace PanZoom.Single

/-- The bound on the zoom and on its reciprocal. -/
def greatestZoom : Float32 :=
  1e18

/-- The greatest whole power of the base whose zoom is within the bound. -/
def powerLimit (base : Float32) : Float32 :=
  floor (Elementary.ln greatestZoom / Elementary.ln base)

/-- The tolerance for comparing results that were rounded on the way. -/
def tolerance : Float32 :=
  1e-5

/-- The least positive normal number. Dividing by less loses precision or overflows. -/
def leastNormal : Float32 :=
  .ofBits 0x00800000

/-- Whole numbers are consecutive up to this one; adding one to it gives it back. -/
def lastStep : Nat :=
  Nat.pow 2 24

instance : Scalar Float32 where
  zero := .ofBits 0
  one := .ofBits 0x3f800000
  add := (· + ·)
  sub := (· - ·)
  mul := (· * ·)
  div := (· / ·)
  neg := (- ·)
  lt := (· < ·)
  le := (· ≤ ·)
  decidableLT := inferInstanceAs (DecidableLT Float32)
  decidableLE := inferInstanceAs (DecidableLE Float32)
  agrees := Float32.beq
  abs := Float32.abs
  isFinite := Float32.isFinite
  ofCount := UInt32.toFloat32
  sizeLE a b := a.abs.toBits ≤ b.abs.toBits
  isPivot a := a.isFinite && !(decide (a.abs < leastNormal))
  pow := Elementary.power
  powerLimit := powerLimit
  leastExtent := 1e-6
  stepsPast bound := min bound.toUInt32.toNat lastStep + 1

end PanZoom.Single
