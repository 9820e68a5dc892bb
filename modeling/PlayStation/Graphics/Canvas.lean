import PlayStation.Graphics.Texture
import PlayStation.Graphics.Triangle

/-!
# Drawing into the pixel store

A canvas is everything but the pixel store that decides what a fragment
becomes: where drawing is allowed, how pixels are masked, and how a polygon's
colours are made.  `Canvas.draw` draws one fragment and changes at most one
pixel; `Canvas.drawTriangle` draws the fragments of a triangle one after the
other (`drawTriangle_eq_foldl`).
-/

namespace PlayStation

/-- The rectangle that drawing is confined to, edges included. -/
structure DrawingArea where
  left : Nat := 0
  top : Nat := 0
  right : Nat := 1023
  bottom : Nat := 511
  deriving DecidableEq, Repr

/-- Whether a point lies in the area. -/
def DrawingArea.contains (area : DrawingArea) (x y : Int) : Bool :=
  area.left ≤ x && area.top ≤ y && x ≤ area.right && y ≤ area.bottom

/-- What is added to the position of everything drawn. -/
structure DrawOffset where
  x : Int := 0
  y : Int := 0
  deriving DecidableEq, Repr

/-- How a polygon's pixels get their colour. -/
structure Paint where
  opaque' : Bool
  blend : BlendMode
  texture : Option Texture
  deriving DecidableEq, Repr

/-- The settings and the paint that a polygon is drawn with. -/
structure Canvas where
  area : DrawingArea
  offset : DrawOffset
  window : TextureWindow
  /-- Pixels with the mask bit are left alone. -/
  checkMask : Bool
  /-- Drawn pixels get the mask bit. -/
  setMask : Bool
  paint : Paint

namespace Canvas

/-- The colour of a translucent pixel.  Only additive mixing looks at the pixel
behind. -/
def mix (mode : BlendMode) (back front : Color) : Color :=
  match mode with
  | .add => back.saturatingAdd front
  | .half | .subtract | .quarter => front

/-- The colour of a fragment before mixing and whether it is opaque, or nothing
for a transparent texel.  A texel without the mask bit is opaque. -/
def shade (c : Canvas) (color : Color) (u v : UInt8) (vram : Vram) : Option (Color × Bool) :=
  match c.paint.texture with
  | none => some (color, c.paint.opaque')
  | some texture =>
    let texel := texture.sample c.window vram u v
    if texel = 0 then none
    else
      let texelColor := Color.ofPixel texel
      some (if texture.raw then texelColor else color.modulate texelColor,
        c.paint.opaque' || texel &&& maskBit == 0)

/-- The pixel that a shaded fragment becomes in front of `back`. -/
def pixel (c : Canvas) (back : UInt16) (color : Color) (isOpaque : Bool) : UInt16 :=
  let color := if isOpaque then color else mix c.paint.blend (Color.ofPixel back) color
  color.toPixel ||| (if c.setMask then maskBit else 0)

/-- Draws a fragment at a point of the pixel store. -/
def plot (c : Canvas) (x y : Nat) (color : Color) (u v : UInt8) (vram : Vram) : Vram :=
  let back := vram.get x y
  if c.checkMask && back &&& maskBit != 0 then vram
  else
    match c.shade color u v vram with
    | none => vram
    | some (color, isOpaque) => vram.set x y (c.pixel back color isOpaque)

/-- Draws a fragment if its point lies in the drawing area. -/
@[inline] def draw (c : Canvas) (vram : Vram) (f : Fragment) : Vram :=
  let x := f.x + c.offset.x
  let y := f.y + c.offset.y
  if c.area.contains x y then c.plot x.toNat y.toNat f.color f.u f.v vram else vram

/-- Draws the fragments of a span from left to right. -/
def drawSpan (c : Canvas) (vram : Vram) (s : Span) : Vram :=
  s.width.fold (fun i _ vram => c.draw vram (s.fragment i)) vram

/-- Draws a triangle. -/
def drawTriangle (c : Canvas) (vram : Vram) (t : Triangle) : Vram :=
  t.spans.foldl c.drawSpan vram

/-- Drawing a span is drawing its fragments from left to right. -/
theorem drawSpan_eq_foldl (c : Canvas) (vram : Vram) (s : Span) :
    c.drawSpan vram s = s.fragments.foldl c.draw vram := by
  simp only [drawSpan, Span.fragments, List.foldl_map]
  induction s.width with
  | zero => rfl
  | succ n ih => rw [Nat.fold_succ, List.range_succ, List.foldl_append, ih]; rfl

/-- Drawing a triangle is drawing its fragments in order. -/
theorem drawTriangle_eq_foldl (c : Canvas) (vram : Vram) (t : Triangle) :
    c.drawTriangle vram t = t.fragments.foldl c.draw vram := by
  have hspan : c.drawSpan = fun vram s => s.fragments.foldl c.draw vram := by
    funext vram s
    exact c.drawSpan_eq_foldl vram s
  rw [drawTriangle, Triangle.fragments, List.foldl_flatMap, hspan]

end Canvas
end PlayStation
