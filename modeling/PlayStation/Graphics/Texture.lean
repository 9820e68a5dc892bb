import PlayStation.Bits
import PlayStation.Graphics.Status
import PlayStation.Graphics.Vram

/-!
# Textures

A texture is a page of texels in the pixel store.  Texels of 4 and 8 bits are
indices into a palette row, also in the pixel store.  The texture window makes
coordinates repeat before the page is read.
-/

namespace PlayStation

open Bits

/-- Repeats texture coordinates.  All fields count in units of 8 texels. -/
structure TextureWindow where
  maskX : UInt8 := 0
  maskY : UInt8 := 0
  offsetX : UInt8 := 0
  offsetY : UInt8 := 0
  deriving DecidableEq, Repr

namespace TextureWindow

/-- Replaces the bits of a coordinate under the mask by those of the offset. -/
def wrap (coordinate mask offset : UInt8) : UInt8 :=
  let mask := mask * 8
  (coordinate &&& ~~~mask) ||| (offset * 8 &&& mask)

/-- The texel coordinates that are read for `(u, v)`. -/
def apply (w : TextureWindow) (u v : UInt8) : UInt8 × UInt8 :=
  (wrap u w.maskX w.offsetX, wrap v w.maskY w.offsetY)

/-- The window of a setting word. -/
def ofWord (word : UInt32) : TextureWindow where
  maskX := (slice word 0 5).toUInt8
  maskY := (slice word 5 5).toUInt8
  offsetX := (slice word 10 5).toUInt8
  offsetY := (slice word 15 5).toUInt8

/-- The window as a query returns it. -/
def toWord (w : TextureWindow) : UInt32 :=
  w.maskX.toUInt32 ||| (w.maskY.toUInt32 <<< 5) ||| (w.offsetX.toUInt32 <<< 10) |||
    (w.offsetY.toUInt32 <<< 15)

end TextureWindow

/-- A texture page word. -/
structure TexturePage where
  bits : UInt32
  deriving DecidableEq, Repr

namespace TexturePage

/-- The page in the high half of a texture word. -/
def ofWord (word : UInt32) : TexturePage :=
  ⟨word >>> 16⟩

/-- The leftmost column of the page. -/
def x (p : TexturePage) : Nat :=
  (p.bits &&& 0xF).toNat * 64

/-- The top row of the page. -/
def y (p : TexturePage) : Nat :=
  ((p.bits >>> 4) &&& 1).toNat * 256

/-- The blend mode of polygons that use the page. -/
def blendMode (p : TexturePage) : BlendMode :=
  .ofBits (p.bits >>> 5)

end TexturePage

/-- Where a palette begins. -/
structure Palette where
  x : Nat
  y : Nat
  deriving DecidableEq, Repr

/-- The palette in the high half of a texture word. -/
def Palette.ofWord (word : UInt32) : Palette where
  x := (slice word 16 6).toNat * 16
  y := (slice word 22 9).toNat

/-- What a textured polygon reads its texels from. -/
structure Texture where
  pageX : Nat
  pageY : Nat
  palette : Palette
  depth : TexelDepth
  /-- Whether texels are drawn as they are, without the vertex colour. -/
  raw : Bool
  deriving DecidableEq, Repr

namespace Texture

/-- The texel for the coordinates `(u, v)`. -/
def sample (t : Texture) (window : TextureWindow) (vram : Vram) (u v : UInt8) : UInt16 :=
  let (u, v) := window.apply u v
  let u := u.toNat
  let row := t.pageY + v.toNat
  match t.depth with
  | .bits4 =>
    let data := vram.get (t.pageX + u / 4) row
    let index := (data >>> UInt16.ofNat (u % 4 * 4)) &&& 0xF
    vram.get (t.palette.x + index.toNat) t.palette.y
  | .bits8 =>
    let data := vram.get (t.pageX + u / 2) row
    let index := (data >>> UInt16.ofNat (u % 2 * 8)) &&& 0xFF
    vram.get (t.palette.x + index.toNat) t.palette.y
  | .bits15 => vram.get (t.pageX + u) row

end Texture
end PlayStation
