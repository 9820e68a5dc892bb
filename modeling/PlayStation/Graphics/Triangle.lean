import PlayStation.Graphics.Color

/-!
# Triangles as rows of pixels

A triangle is cut along the row of its middle corner into two wedges, one that
widens downward and one that widens upward (`Triangle.spans`).  A wedge is
walked row by row from its apex, and each row is a span between its two edges
(`Wedge.downward`, `Wedge.upward`).  Colours and texture coordinates are interpolated along the
edges by distance from the apex and then along the span.

The row of the cut belongs to the upward wedge; the lowest row of a triangle is
the apex of that wedge and has no width.
-/

namespace PlayStation

open Interpolation

/-- A corner of a polygon. -/
structure Corner where
  x : Int
  y : Int
  color : Color
  u : UInt8 := 0
  v : UInt8 := 0
  deriving DecidableEq, Repr

/-- A position word: two numbers of 11 bits with sign. -/
def Corner.positionOfWord (word : UInt32) : Int × Int :=
  ((Bits.signExtend word 11).toInt, (Bits.signExtend (word >>> 16) 11).toInt)

/-- The corner of a position word, a colour and a texture word. -/
def Corner.ofWords (position : UInt32) (color : Color) (texture : UInt32) : Corner where
  x := (positionOfWord position).1
  y := (positionOfWord position).2
  color
  u := texture.toUInt8
  v := (texture >>> 8).toUInt8

/-- A pixel to be drawn, before the drawing offset is added. -/
structure Fragment where
  x : Int
  y : Int
  color : Color
  u : UInt8
  v : UInt8
  deriving DecidableEq, Repr

/-- A row of pixels from column `x1` up to, but not including, column `x2`. -/
structure Span where
  y : Int
  x1 : Int
  x2 : Int
  c1 : Color
  c2 : Color
  u1 : UInt8
  u2 : UInt8
  v : UInt8
  deriving DecidableEq, Repr

namespace Span

/-- The number of pixels. -/
def width (s : Span) : Nat :=
  (s.x2 - s.x1).toNat

/-- The fraction of the span that lies before its `i`-th pixel. -/
def fraction (s : Span) (i : Nat) : Float32 :=
  Float32.ofNat i / Float32.ofInt (s.x2 - s.x1)

/-- The `i`-th pixel from the left. -/
def fragment (s : Span) (i : Nat) : Fragment :=
  let f := s.fraction i
  { x := s.x1 + i, y := s.y, color := s.c1.lerp s.c2 f, u := lerp s.u1 s.u2 f, v := s.v }

/-- All pixels, from left to right. -/
def fragments (s : Span) : List Fragment :=
  (List.range s.width).map s.fragment

end Span

/-- Two edges from an apex to a row, the left one at or left of the right one. -/
structure Wedge where
  apex : Corner
  left : Corner
  right : Corner
  deriving DecidableEq, Repr

namespace Wedge

/-- The wedge between an apex and two corners of one row. -/
def ofCorners (apex a b : Corner) : Wedge :=
  if b.x < a.x then ⟨apex, b, a⟩ else ⟨apex, a, b⟩

/-- How far an edge moves sideways from one row to the one below it. -/
def slope (apex foot : Corner) : Float32 :=
  Float32.ofInt (foot.x - apex.x) / Float32.ofInt (foot.y - apex.y)

/-- The length of an edge. -/
def length (apex foot : Corner) : Float32 :=
  distance (Float32.ofInt (foot.x - apex.x)) (Float32.ofInt (foot.y - apex.y))

/-- The fraction of an edge between its apex and the pixel `(x, y)`. -/
def edgeFraction (apex foot : Corner) (x y : Int) : Float32 :=
  distance (Float32.ofInt apex.x - Float32.ofInt x) (Float32.ofInt (apex.y - y)) /
    length apex foot

/-- The span of row `y` between the edge points `leftX` and `rightX`. -/
def span (w : Wedge) (y : Int) (v : UInt8) (leftX rightX : Float32) : Span :=
  let x1 := column leftX
  let x2 := column rightX
  let f1 := edgeFraction w.apex w.left x1 y
  let f2 := edgeFraction w.apex w.right x2 y
  { y, x1, x2
    c1 := w.apex.color.lerp w.left.color f1
    c2 := w.apex.color.lerp w.right.color f2
    u1 := lerp w.apex.u w.left.u f1
    u2 := lerp w.apex.u w.right.u f2
    v }

/-- The vertical fraction of row `y` between two corners. -/
def rowFraction (top bottom : Corner) (y : Int) : Float32 :=
  Float32.ofInt (y - top.y) / Float32.ofInt (bottom.y - top.y)

/-- The next `count` spans downward from row `y`, whose edge points are given. -/
def spansDown (w : Wedge) (y : Int) (leftX rightX : Float32) : (count : Nat) → List Span
  | 0 => []
  | count + 1 =>
    let v := lerp w.apex.v w.left.v (rowFraction w.apex w.left y)
    w.span y v leftX rightX ::
      w.spansDown (y + 1) (leftX + slope w.apex w.left) (rightX + slope w.apex w.right) count

/-- The next `count` spans upward from row `y`, whose edge points are given. -/
def spansUp (w : Wedge) (y : Int) (leftX rightX : Float32) : (count : Nat) → List Span
  | 0 => []
  | count + 1 =>
    let v := lerp w.left.v w.apex.v (rowFraction w.left w.apex y)
    w.span y v leftX rightX ::
      w.spansUp (y - 1) (leftX - slope w.apex w.left) (rightX - slope w.apex w.right) count

/-- The spans of a wedge whose apex is its top: every row but the lowest. -/
def downward (w : Wedge) : List Span :=
  let x := Float32.ofInt w.apex.x
  w.spansDown w.apex.y x x (w.left.y - w.apex.y).toNat

/-- The spans of a wedge whose apex is its bottom: every row, from below. -/
def upward (w : Wedge) : List Span :=
  let x := Float32.ofInt w.apex.x
  w.spansUp w.apex.y x x (w.apex.y - w.left.y + 1).toNat

end Wedge

/-- Three corners. -/
structure Triangle where
  a : Corner
  b : Corner
  c : Corner
  deriving DecidableEq, Repr

namespace Triangle

/-- The corners from top to bottom. -/
def sorted (t : Triangle) : Triangle :=
  let t := if t.b.y < t.a.y then ⟨t.b, t.a, t.c⟩ else t
  let t := if t.c.y < t.a.y then ⟨t.c, t.b, t.a⟩ else t
  if t.c.y < t.b.y then ⟨t.a, t.c, t.b⟩ else t

/-- The point of the long edge in the row of the middle corner, for corners
sorted from top to bottom. -/
def split (t : Triangle) : Corner :=
  let f := Float32.ofInt (t.b.y - t.a.y) / Float32.ofInt (t.c.y - t.a.y)
  { x := truncate (Float32.ofInt t.a.x + f * (Float32.ofInt t.c.x - Float32.ofInt t.a.x))
    y := t.b.y
    color := t.a.color.lerp t.c.color f
    u := lerp t.a.u t.c.u f
    v := lerp t.a.v t.c.v f }

/-- The spans of a triangle, in drawing order. -/
def spans (t : Triangle) : List Span :=
  let t := t.sorted
  if t.b.y = t.c.y then
    (Wedge.ofCorners t.a t.b t.c).downward
  else if t.a.y = t.b.y then
    (Wedge.ofCorners t.c t.a t.b).upward
  else
    let split := t.split
    (Wedge.ofCorners t.a t.b split).downward ++ (Wedge.ofCorners t.c t.b split).upward

/-- The pixels of a triangle, in drawing order. -/
def fragments (t : Triangle) : List Fragment :=
  t.spans.flatMap Span.fragments

end Triangle
end PlayStation
