import PlayStation.Bits

/-!
# Rectangle cursors

A copy between the command words and the pixel store walks a rectangle row by
row, wrapping at the edges of the store.
-/

namespace PlayStation

open Bits

/-- A rectangle and the position of the next pixel in it. -/
structure Transfer where
  x : Nat
  y : Nat
  width : Nat
  height : Nat
  currentX : Nat := 0
  currentY : Nat := 0
  deriving DecidableEq, Repr

namespace Transfer

/-- The rectangle of a position word and a size word.  Sizes are taken modulo
the store's size, and 0 stands for the whole of it. -/
def ofWords (position size : UInt32) : Transfer where
  x := (slice position 0 10).toNat
  y := (slice position 16 9).toNat
  width := ((size - 1) &&& 0x3FF).toNat + 1
  height := (((size >>> 16) - 1) &&& 0x1FF).toNat + 1

/-- The number of pixels. -/
def pixelCount (t : Transfer) : Nat :=
  t.width * t.height

/-- The number of words that hold the pixels, two to a word. -/
def wordCount (t : Transfer) : Nat :=
  (t.pixelCount + 1) / 2

/-- Where the next pixel lies. -/
def position (t : Transfer) : Nat × Nat :=
  ((t.x + t.currentX) % 1024, (t.y + t.currentY) % 512)

/-- Moves on to the next pixel. -/
def step (t : Transfer) : Transfer :=
  if t.currentX + 1 = t.width then
    { t with currentX := 0, currentY := t.currentY + 1 }
  else
    { t with currentX := t.currentX + 1 }

/-- Whether every pixel has been visited. -/
def isDone (t : Transfer) : Bool :=
  t.height ≤ t.currentY

end Transfer
end PlayStation
