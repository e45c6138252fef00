import PanZoom.Elementary.Logarithm

/-!
# Powers of single-precision numbers

`x ^ y` is two to the power `y * log2 x`. The exponent is cut into a whole number of thirty-seconds
and a small rest; the whole part is a table entry with its exponent field raised, the rest a cubic
polynomial:

* `exp2`: two to a power, in double precision;
* `evaluate`: a base above one to any power, in double precision;
* `power`: the same in single precision.

Rounding a product before it goes into a sum moves the result of `evaluate` by some hundred units of
its last place at most. That matters only next to a halfway point between two numbers of single
precision, so `power` evaluates quickly first, and with joint roundings where the quick result is
too close to such a point.
-/

namespace PanZoom.Elementary

/-- The words of the thirty-two values `2 ^ (i / 32)`. -/
def rootsOfTwo : Array UInt64 :=
  #[0x3ff0000000000000, 0x3ff059b0d3158574, 0x3ff0b5586cf9890f, 0x3ff11301d0125b51,
   0x3ff172b83c7d517b, 0x3ff1d4873168b9aa, 0x3ff2387a6e756238, 0x3ff29e9df51fdee1,
   0x3ff306fe0a31b715, 0x3ff371a7373aa9cb, 0x3ff3dea64c123422, 0x3ff44e086061892d,
   0x3ff4bfdad5362a27, 0x3ff5342b569d4f82, 0x3ff5ab07dd485429, 0x3ff6247eb03a5585,
   0x3ff6a09e667f3bcd, 0x3ff71f75e8ec5f74, 0x3ff7a11473eb0187, 0x3ff82589994cce13,
   0x3ff8ace5422aa0db, 0x3ff93737b0cdc5e5, 0x3ff9c49182a3f090, 0x3ffa5503b23e255d,
   0x3ffae89f995ad3ad, 0x3ffb7f76f2fb5e47, 0x3ffc199bdd85529c, 0x3ffcb720dcef9069,
   0x3ffd5818dcfba487, 0x3ffdfc97337b9b5f, 0x3ffea4afa2a490da, 0x3fff50765b6e4540]

/-- Three times `2 ^ 46`, whose last place is one thirty-second. Adding it rounds a smaller number
to a multiple of that, and the last bits of the sum's word count the thirty-seconds. -/
def countingBase : Float :=
  .ofBits 0x42e8000000000000

/-- Two to the power of as many thirty-seconds as the last bits of a word count: the root for what
is left over of whole ones, with the whole ones added to its exponent field. -/
def rootPower (count : UInt64) : Float :=
  .ofBits (rootsOfTwo.getD (count % 32).toNat 0 + ((count >>> 5) <<< 52))

/-- Two to the power `r`, for `r` of at most half a thirty-second in size. -/
@[specialize] def smallExp2 (join : MultiplyAdd) (r : Float) : Float :=
  join (join (.ofBits 0x3fac6af84b912394) r (.ofBits 0x3fcebfce50fac4f3)) (r * r)
    (join (.ofBits 0x3fe62e42ff0c52d6) r 1)

@[specialize] def exp2 (join : MultiplyAdd) (x : Float) : Float :=
  let sum := x + countingBase
  smallExp2 join (x - (sum - countingBase)) * rootPower sum.toBits

/-- Powers of two above this one, just below 128, are infinite in single precision. -/
def greatestExponent : Float :=
  .ofBits 0x405fffffffd1d571

/-- Powers of two up to this one are zero in single precision. -/
def vanishingExponent : Float :=
  -150

/-- The base raised to the exponent, in double precision. The base is a finite number above one. -/
@[specialize] def evaluate (join : MultiplyAdd) (base exponent : Float32) : Float :=
  let scaled := Single.toDouble exponent * log2 join base
  if greatestExponent < scaled then .ofBits 0x7ff0000000000000
  else if scaled ≤ vanishingExponent then 0
  else exp2 join scaled

/-- How close to a halfway point, in units of the last place, a quick result is not trusted. -/
def margin : UInt64 :=
  0x40000

/-- The positive number is in the range of the normal numbers of single precision, and not close to
a halfway point between two of them. The last 29 bits say where it lies between them. -/
def isClear (x : Float) : Bool :=
  let word := x.toBits
  let tail := word % 0x20000000
  0x3810000000000000 ≤ word && word < 0x47f0000000000000 &&
    (tail < 0x10000000 - margin || 0x10000000 + margin < tail)

/-- The base raised to the exponent. The base is a finite number above one. -/
def power (base exponent : Float32) : Float32 :=
  if exponent.isNaN then exponent
  else
    let quick := evaluate separately base exponent
    Single.ofDouble (if isClear quick then quick else evaluate Double.multiplyAdd base exponent)

end PanZoom.Elementary
