import PanZoom.Geometry.Transform

namespace PanZoom

/-- A matrix stored column by column. -/
structure Uniform (α : Type) where
  columns : Transform α
  deriving DecidableEq, Repr

namespace Uniform

def ofTransform {α : Type} (m : Transform α) : Uniform α :=
  ⟨m.transpose⟩

def identity {α : Type} [Scalar α] : Uniform α :=
  ofTransform .identity

/-- The bytes of a word, lowest first. -/
def wordBytes (word : UInt32) : List UInt8 :=
  [word.toUInt8, (word >>> 8).toUInt8, (word >>> 16).toUInt8, (word >>> 24).toUInt8]

/-- The bytes to upload: sixteen words in storage order. -/
def bytes (u : Uniform Float32) : List UInt8 :=
  u.columns.toList.flatMap fun x => wordBytes x.toBits

end Uniform

end PanZoom
