import PanZoom.Binary.Number

/-!
# Logarithms of single-precision numbers

A number that is at least one is split as `2 ^ octave * rest`, the rest lying between 0.699 and
1.398. The rest's octave is cut into sixteen cells; each cell has a point `c` near its middle, and
the logarithm is that of `2 ^ octave * c` plus a short polynomial in `r = rest / c - 1`:

* `split`: the octave, the cell and the rest of a number;
* `log2`: the logarithm to base two, in double precision;
* `ln`: the natural logarithm, in single precision.

The reciprocals, the logarithms and the coefficients are given by their words. All arithmetic is in
double precision, where every operation rounds, so the order of the operations is part of the
definition: the terms of a polynomial are joined in pairs, the pairs by the square of `r`. A product
and the sum it goes into are rounded together, or each on its own where that is good enough.
-/

namespace PanZoom.Elementary

/-- A way to multiply two numbers and add a third. -/
abbrev MultiplyAdd := Float → Float → Float → Float

/-- Product and sum are rounded each on its own. -/
@[inline] def separately : MultiplyAdd :=
  fun a b c => a * b + c

/-- A cell's point `c`, given by its reciprocal and its two logarithms. -/
structure Cell where
  reciprocal : Float
  ln : Float
  log2 : Float

/-- The sixteen cells, from the lowest rest to the highest. In the tenth the point is one. -/
def cells : Array Cell :=
  #[⟨.ofBits 0x3ff661ec79f8f3be, .ofBits 0xbfd57bf7808caade, .ofBits 0xbfdefec65b963019⟩,
   ⟨.ofBits 0x3ff571ed4aaf883d, .ofBits 0xbfd2bef0a7c06ddb, .ofBits 0xbfdb0b6832d4fca4⟩,
   ⟨.ofBits 0x3ff49539f0f010b0, .ofBits 0xbfd01eae7f513a67, .ofBits 0xbfd7418b0a1fb77b⟩,
   ⟨.ofBits 0x3ff3c995b0b80385, .ofBits 0xbfcb31d8a68224e9, .ofBits 0xbfd39de91a6dcf7b⟩,
   ⟨.ofBits 0x3ff30d190c8864a5, .ofBits 0xbfc6574f0ac07758, .ofBits 0xbfd01d9bf3f2b631⟩,
   ⟨.ofBits 0x3ff25e227b0b8ea0, .ofBits 0xbfc1aa2bc79c8100, .ofBits 0xbfc97c1d1b3b7af0⟩,
   ⟨.ofBits 0x3ff1bb4a4a1a343f, .ofBits 0xbfba4e76ce8c0e5e, .ofBits 0xbfc2f9e393af3c9f⟩,
   ⟨.ofBits 0x3ff12358f08ae5ba, .ofBits 0xbfb1973c5a611ccc, .ofBits 0xbfb960cbbf788d5c⟩,
   ⟨.ofBits 0x3ff0953f419900a7, .ofBits 0xbfa252f438e10c1e, .ofBits 0xbfaa6f9db6475fce⟩,
   ⟨.ofBits 0x3ff0000000000000, .ofBits 0x0000000000000000, .ofBits 0x0000000000000000⟩,
   ⟨.ofBits 0x3fee608cfd9a47ac, .ofBits 0x3faaa5aa5df25984, .ofBits 0x3fb338ca9f24f53d⟩,
   ⟨.ofBits 0x3feca4b31f026aa0, .ofBits 0x3fbc5e53aa362eb4, .ofBits 0x3fc476a9543891ba⟩,
   ⟨.ofBits 0x3feb2036576afce6, .ofBits 0x3fc526e57720db08, .ofBits 0x3fce840b4ac4e4d2⟩,
   ⟨.ofBits 0x3fe9c2d163a1aa2d, .ofBits 0x3fcbc2860d224770, .ofBits 0x3fd40645f0c6651c⟩,
   ⟨.ofBits 0x3fe886e6037841ed, .ofBits 0x3fd1058bc8a07ee1, .ofBits 0x3fd88e9c2c1b9ff8⟩,
   ⟨.ofBits 0x3fe767dcf5534862, .ofBits 0x3fd4043057b6ee09, .ofBits 0x3fdce0a44eb17bcc⟩]

def unitCell : Cell :=
  ⟨1, 0, 0⟩

/-- The word of the lowest rest, 0.69921875. -/
def lowestRest : UInt32 :=
  0x3f330000

/-- A number as `2 ^ octave * rest`, with the cell the rest lies in. -/
structure Split where
  octave : Float
  cell : Cell
  rest : Float

/-- Splits a finite number that is at least one. Adding one to a word's exponent field doubles the
number, so the octave is what must be taken off the field, and the next four bits name the cell. -/
def split (x : Float32) : Split :=
  let above := x.toBits - lowestRest
  let octave := above >>> 23
  { octave := octave.toUInt64.toFloat
    cell := cells.getD ((above >>> 19) % 16).toNat unitCell
    rest := Single.toDouble (.ofBits (x.toBits - (octave <<< 23))) }

/-- How far the rest lies from its cell's point, relative to the point. -/
@[specialize] def Split.offset (join : MultiplyAdd) (s : Split) : Float :=
  join s.rest s.cell.reciprocal (-1)

def lnTwo : Float :=
  .ofBits 0x3fe62e42fefa39ef

/-- What the natural logarithm of `1 + r` has beyond `r`, divided by the square of `r`. -/
def lnTail (r : Float) : Float :=
  Double.multiplyAdd (.ofBits 0xbfd00ea348b88334) (r * r)
    (Double.multiplyAdd (.ofBits 0x3fd5575b0be00b6a) r (.ofBits 0xbfdffffef20a4123))

/-- The natural logarithm of a finite number that is at least one. -/
def ln (x : Float32) : Float32 :=
  let s := split x
  let r := s.offset Double.multiplyAdd
  Single.ofDouble (Double.multiplyAdd (lnTail r) (r * r)
    (Double.multiplyAdd s.octave lnTwo s.cell.ln + r))

/-- The logarithm to base two of a finite number that is at least one. -/
@[specialize] def log2 (join : MultiplyAdd) (x : Float32) : Float :=
  let s := split x
  let r := s.offset join
  let square := r * r
  let first := join (.ofBits 0x3ff71547652ab82b) r (s.cell.log2 + s.octave)
  let second := join (.ofBits 0x3fdec70a6ca7badd) r (.ofBits 0xbfe7154748bef6c8)
  let third := join (.ofBits 0x3fd27616c9496e0b) r (.ofBits 0xbfd71969a075c67a)
  join third (square * square) (join second square first)

end PanZoom.Elementary
