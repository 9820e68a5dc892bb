/-!
# The pixel store

1024 columns and 512 rows of 16-bit pixels.  Coordinates wrap at both edges.
-/

namespace PlayStation

/-- The number of pixels. -/
def Vram.size : Nat := 524288

/-- The pixel store, in row-major order. -/
structure Vram where
  pixels : Vector UInt16 Vram.size

/-- A rectangle that does not lie in the pixel store, or whose pixels are too
few or too many. -/
structure InvalidVramAccess where
  x : Nat
  y : Nat
  deriving DecidableEq, Repr

namespace Vram

def width : Nat := 1024
def height : Nat := 512

/-- Where the pixel at `(x, y)` is stored. -/
def index (x y : Nat) : Nat :=
  y % height * width + x % width

/-- Every pixel has its place in the store, since columns and rows wrap. -/
theorem index_lt (x y : Nat) : index x y < size := by
  simp only [index, width, height, size]; omega

/-- All pixels zero. -/
def blank : Vram :=
  ⟨Vector.replicate size 0⟩

/-- The pixel at `(x, y)`. -/
def get (v : Vram) (x y : Nat) : UInt16 :=
  have := index_lt x y
  v.pixels[index x y]

/-- Replaces the pixel at `(x, y)`. -/
def set (v : Vram) (x y : Nat) (pixel : UInt16) : Vram :=
  ⟨v.pixels.set (index x y) pixel (index_lt x y)⟩

/-- Whether a rectangle lies in the store without wrapping. -/
def holdsRect (x y w h : Nat) : Bool :=
  x + w ≤ width && y + h ≤ height

/-- Writes a rectangle of pixels given in row-major order. -/
def writeRect (v : Vram) (x y w h : Nat) (pixels : Array UInt16) :
    Except InvalidVramAccess Vram :=
  if holdsRect x y w h && pixels.size == w * h then
    .ok (pixels.size.fold (fun k lt v => v.set (x + k % w) (y + k / w) pixels[k]) v)
  else
    .error ⟨x, y⟩

/-- The bytes of the pixels, low byte first. -/
def toBytes (v : Vram) : ByteArray :=
  v.pixels.toArray.foldl
    (fun (bytes : ByteArray) (pixel : UInt16) =>
      (bytes.push pixel.toUInt8).push (pixel >>> 8).toUInt8)
    (ByteArray.emptyWithCapacity (2 * size))

/-- The pixel at `(x, y)` after a write is the written one if the coordinates
agree up to wrapping, and the old one otherwise. -/
theorem get_set (v : Vram) (x y x' y' : Nat) (pixel : UInt16) :
    (v.set x y pixel).get x' y' =
      if x % width = x' % width ∧ y % height = y' % height then pixel else v.get x' y' := by
  have hindex : index x y = index x' y' ↔ x % width = x' % width ∧ y % height = y' % height := by
    simp only [index, width, height]; omega
  simp only [set, get, Vector.getElem_set, hindex]

end Vram
end PlayStation
