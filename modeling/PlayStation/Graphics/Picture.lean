import PlayStation.Graphics.Vram

/-!
# Pictures of the pixel store

A dump holds the pixels of the store, row by row and low byte first.  A picture is
a binary portable pixmap: a header with width, height and the largest channel
value, and three channel bytes for every pixel.
-/

namespace PlayStation.Picture

/-- The number of bytes of a dump. -/
def dumpSize : Nat :=
  2 * Vram.size

/-- What stands before the first pixel. -/
def header : ByteArray :=
  s!"P6\n{Vram.width} {Vram.height}\n255\n".toUTF8

/-- A 5-bit channel as the high bits of a byte; higher bits of the word are left
out. -/
def expand (channel : UInt16) : UInt8 :=
  (channel &&& 0x1F).toUInt8 <<< 3

/-- The channel bytes of a pixel, given by its two bytes. -/
def channels (low high : UInt8) : List UInt8 :=
  let pixel := high.toUInt16 <<< 8 ||| low.toUInt16
  [expand (pixel >>> 10), expand (pixel >>> 5), expand pixel]

/-- The picture that a dump shows, if it has the size of a dump. -/
def ofDump? (dump : ByteArray) : Option ByteArray :=
  if h : dump.size = dumpSize then
    some (Vram.size.fold (fun i lt picture =>
      have : 2 * i + 1 < dump.size := by rw [h, dumpSize]; omega
      (channels dump[2 * i] dump[2 * i + 1]).foldl ByteArray.push picture) header)
  else none

end PlayStation.Picture
