import PlayStation.Bits
import PlayStation.Graphics.Interpolation

/-!
# Colours and pixels

A colour has three 8-bit channels.  A pixel has three 5-bit channels, blue
lowest, and its top bit is the mask bit, which is no part of the colour.
-/

namespace PlayStation

open Bits

/-- An 8-bit-per-channel colour. -/
structure Color where
  r : UInt8
  g : UInt8
  b : UInt8
  deriving DecidableEq, Repr

namespace Color

/-- The colour in the low 24 bits of a command word, red lowest. -/
def ofWord (word : UInt32) : Color :=
  ⟨word.toUInt8, (word >>> 8).toUInt8, (word >>> 16).toUInt8⟩

/-- Five bits of a pixel from bit `lo` on, as the high bits of a channel. -/
def channel (pixel lo : UInt16) : UInt8 :=
  (((pixel >>> lo) &&& 0x1F) <<< 3).toUInt8

/-- The colour of a pixel. -/
def ofPixel (pixel : UInt16) : Color :=
  ⟨channel pixel 10, channel pixel 5, channel pixel 0⟩

/-- The pixel of a colour: each channel loses its three low bits. -/
def toPixel (c : Color) : UInt16 :=
  ((c.r >>> 3).toUInt16 <<< 10) ||| ((c.g >>> 3).toUInt16 <<< 5) ||| (c.b >>> 3).toUInt16

/-- Applies an operation channel by channel. -/
def zip (f : UInt8 → UInt8 → UInt8) (a b : Color) : Color :=
  ⟨f a.r b.r, f a.g b.g, f a.b b.b⟩

/-- A texel brightened or darkened by a vertex colour, in which 128 is neutral. -/
def modulate (shade texel : Color) : Color :=
  zip (fun s t => (min (t.toNat * s.toNat / 128) 255).toUInt8) shade texel

/-- The sum, clamped channel by channel. -/
def saturatingAdd (a b : Color) : Color :=
  zip (fun x y => (min (x.toNat + y.toNat) 255).toUInt8) a b

/-- The colour at fraction `f` of the way from `a` to `b`. -/
def lerp (a b : Color) (f : Float32) : Color :=
  zip (fun x y => Interpolation.lerp x y f) a b

end Color

/-- The mask bit of a pixel. -/
def maskBit : UInt16 := 0x8000

end PlayStation
