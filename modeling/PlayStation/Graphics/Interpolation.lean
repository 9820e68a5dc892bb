/-!
# Single-precision interpolation

The rasterizer computes along edges and spans in single precision, one
rounding per operation.  Results become integers by dropping the fraction and
clamping to the range of the target; a value that is no number becomes zero.
-/

namespace PlayStation.Interpolation

/-- The byte at fraction `f` of the way from `a` to `b`. -/
def lerp (a b : UInt8) (f : Float32) : UInt8 :=
  (a.toFloat32 + f * (b.toFloat32 - a.toFloat32)).toUInt8

/-- The length of the vector `(dx, dy)`. -/
def distance (dx dy : Float32) : Float32 :=
  (dx * dx + dy * dy).sqrt

/-- The integer part, clamped to 16 bits with sign. -/
def truncate (f : Float32) : Int :=
  if f < 0 then -(min (-f).toUInt16.toNat 32768 : Nat) else (min f.toUInt16.toNat 32767 : Nat)

/-- The nearest column to a point of an edge: halves go up, and negative points
toward zero. -/
def column (x : Float32) : Int :=
  truncate (x + 0.5)

end PlayStation.Interpolation
