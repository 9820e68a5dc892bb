import PlayStation.Graphics.Basic

/-!
# Polygons

Reading a polygon's words, choosing its paint and drawing it as one triangle or
two.
-/

namespace PlayStation

/-- A polygon's corners, in the order of the command. -/
structure Polygon where
  form : PolygonForm
  corners : List Corner
  deriving DecidableEq, Repr

namespace Polygon

/-- Reads `count` corners, the first one with the given colour.  Each takes a
position word, a texture word if the polygon is textured and, if it is shaded
and not the last, the colour word of the next corner. -/
def readCorners (form : PolygonForm) (color : Color) : (count : Nat) → List UInt32 → List Corner
  | count + 1, position :: rest =>
    let texture := if form.textured then rest.headD 0 else 0
    let rest := if form.textured then rest.tail else rest
    let nextColor := if form.shaded then .ofWord (rest.headD 0) else color
    let rest := if form.shaded then rest.tail else rest
    .ofWords position color texture :: readCorners form nextColor count rest
  | _, _ => []

/-- The polygon that a command's words describe. -/
def ofWords (form : PolygonForm) (words : List UInt32) : Polygon :=
  ⟨form, readCorners form (.ofWord (words.headD 0)) form.corners words.tail⟩

/-- The triangles that make up the polygon, in drawing order: a quad's second
triangle shares its two middle corners with the first. -/
def triangles (p : Polygon) : List Triangle :=
  match p.corners with
  | [a, b, c] => [⟨a, b, c⟩]
  | [a, b, c, d] => [⟨a, b, c⟩, ⟨b, c, d⟩]
  | _ => []

end Polygon

namespace Graphics

/-- Makes a textured polygon's page the current one. -/
def applyTexturePage (g : Graphics) (page : TexturePage) : Graphics :=
  { g with status := GraphicsStatus.withTexturePage g.status page.bits }

/-- The paint of a polygon.  A textured one takes its palette from the first
texture word and its page from the second, which is already the current one. -/
def paintFor (g : Graphics) (form : PolygonForm) (words : List UInt32) : Paint :=
  if form.textured then
    let page := TexturePage.ofWord (words.getD 4 0)
    { opaque' := !form.translucent
      blend := page.blendMode
      texture := some {
        pageX := page.x
        pageY := page.y
        palette := .ofWord (words.getD 2 0)
        depth := GraphicsStatus.depthOf g.status
        raw := form.raw } }
  else
    { opaque' := !form.translucent
      blend := GraphicsStatus.blendOf g.status
      texture := none }

/-- Draws triangles one after the other. -/
def drawTriangles (g : Graphics) (paint : Paint) (triangles : List Triangle) : Graphics :=
  let canvas := g.canvas paint
  { g with vram := triangles.foldl canvas.drawTriangle g.vram }

/-- Draws the polygon that a command's words describe. -/
def drawPolygon (g : Graphics) (form : PolygonForm) (words : List UInt32) : Graphics :=
  let g := if form.textured then g.applyTexturePage (.ofWord (words.getD 4 0)) else g
  g.drawTriangles (g.paintFor form words) (Polygon.ofWords form words).triangles

end Graphics
end PlayStation
