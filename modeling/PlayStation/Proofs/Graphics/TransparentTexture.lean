import PlayStation.Proofs.Graphics.MaskBit

/-!
# Textures without a visible texel

A texel of value 0 is not drawn.  If every texel is one, no fragment changes a pixel, so the
next fragment samples the same texels: it does not matter that the texture lies in the pixel
store which is drawn to (`Canvas.drawTriangles_of_transparent`).

The texture is that of the command's own words (`Texture.ofWords`).  Its depth is read from
the status word, but only after the page word has been put there (`texture_paintFor`).
-/

namespace PlayStation

open Bits

/-- The texture that the words of a textured polygon name. -/
def Texture.ofWords (form : PolygonForm) (words : List UInt32) : Texture :=
  let page := TexturePage.ofWord (words.getD 4 0)
  { pageX := page.x
    pageY := page.y
    palette := .ofWord (words.getD 2 0)
    depth := .ofBits (page.bits >>> 7)
    raw := form.raw }

/-- Whether no coordinates lead to a texel that is drawn. -/
def Texture.Transparent (t : Texture) (window : TextureWindow) (vram : Vram) : Prop :=
  ∀ u v : UInt8, t.sample window vram u v = 0

/-! ## Drawing -/

namespace Canvas

variable {c : Canvas} {t : Texture} {vram : Vram}

/-- A transparent texture gives no pixel a colour, whatever its coordinates. -/
theorem shade_of_transparent (htexture : c.paint.texture = some t)
    (h : t.Transparent c.window vram) (color : Color) (u v : UInt8) :
    c.shade color u v vram = none := by
  simp only [shade, htexture, h u v, if_true]

/-- **One fragment** of such a texture is not drawn. -/
theorem draw_of_transparent (htexture : c.paint.texture = some t)
    (h : t.Transparent c.window vram) (f : Fragment) : c.draw vram f = vram := by
  unfold draw plot
  dsimp only
  rw [shade_of_transparent htexture h]
  simp only [ite_self]

/-- **Triangles** leave all pixels alone, so that the texture stays what it is while they
are drawn. -/
theorem drawTriangles_of_transparent (htexture : c.paint.texture = some t)
    (h : t.Transparent c.window vram) (triangles : List Triangle) :
    triangles.foldl c.drawTriangle vram = vram := by
  rw [foldl_drawTriangle_eq]
  induction triangles.flatMap Triangle.fragments with
  | nil => rfl
  | cons f rest ih => rw [List.foldl_cons, draw_of_transparent htexture h, ih]

end Canvas

/-! ## The texture of a command -/

/-- The depth of a texture page that has just become the current one. -/
theorem GraphicsStatus.depthOf_withTexturePage (status page : UInt32) :
    depthOf (withTexturePage status page) = .ofBits (page >>> 7) := by
  have hlowest : UInt32.ofNat (lowestBit texelDepth) = 7 := by decide
  have hseven : (7 : UInt32).toNat = 7 := rfl
  have hlow : ∀ i < 32, bit 3 i = decide (i < 2) := by decide
  have hmask : ∀ i < 2, bit texelDepth (7 + i) = true := by decide
  have hbits :
      field (withTexturePage status page) texelDepth &&& (3 : UInt32) = (page >>> 7) &&& 3 := by
    refine ext_bit fun i hi => ?_
    rw [field, hlowest, bit_and, bit_and, bit_shiftRight _ (by decide),
      bit_shiftRight _ (by decide), hlow i hi, hseven]
    by_cases hless : i < 2
    · rw [bit_and, hmask i hless, bit_withTexturePage _ _ (by omega), if_neg (by omega),
        if_pos (by omega), Bool.and_true]
    · rw [decide_eq_false hless, Bool.and_false, Bool.and_false]
  rw [depthOf, TexelDepth.ofBits, hbits, TexelDepth.ofBits]

namespace Graphics

variable {g : Graphics} {words : List UInt32}

/-- **A textured polygon is painted with the texture that its words name.** -/
theorem texture_paintFor {form : PolygonForm} (hform : form.textured = true) (g : Graphics)
    (words : List UInt32) :
    ((g.applyTexturePage (.ofWord (words.getD 4 0))).paintFor form words).texture =
      some (.ofWords form words) := by
  unfold paintFor
  rw [if_pos hform]
  dsimp only [applyTexturePage]
  rw [GraphicsStatus.depthOf_withTexturePage]
  rfl

/-- A polygon with such a texture does nothing but make the texture's page the current
one. -/
theorem drawPolygon_of_transparent {form : PolygonForm} (hform : form.textured = true)
    (h : (Texture.ofWords form words).Transparent g.window g.vram) :
    g.drawPolygon form words = g.applyTexturePage (.ofWord (words.getD 4 0)) := by
  unfold drawPolygon
  dsimp only
  rw [if_pos hform]
  have htexture := texture_paintFor hform g words
  generalize hpaint : (g.applyTexturePage (.ofWord (words.getD 4 0))).paintFor form words = paint
    at htexture ⊢
  have hdrawn := Canvas.drawTriangles_of_transparent
    (c := (g.applyTexturePage (.ofWord (words.getD 4 0))).canvas paint) htexture h
    (Polygon.ofWords form words).triangles
  unfold drawTriangles
  dsimp only
  exact congrArg (fun vram => { g.applyTexturePage (.ofWord (words.getD 4 0)) with vram }) hdrawn

/-- **Transparent textures draw nothing.**  A unit that can be reached awaits the rest of a
command, or nothing.  Let that and the words it is given make up a textured polygon of any
kind, and let every texel of the texture that the words name be 0, for the unit's texture
window and pixels.  When the words have arrived, the unit is idle, no pixel has changed,
and the texture's page is the current one. -/
theorem transparent_texture_draws_nothing {policy : UnhandledCommand} (h : Reachable policy g) :
    ∃ pending, Awaits g pending ∧
      ∀ words rest : List UInt32, IsPolygon words → pending ++ rest = words →
        let form := PolygonForm.ofBits (opcodeOf (words.headD 0))
        form.textured = true → (Texture.ofWords form words).Transparent g.window g.vram →
        let after := rest.foldl writeDrawing g
        Awaits after [] ∧ after.vram = g.vram ∧
          after.atRest = g.atRest.applyTexturePage (.ofWord (words.getD 4 0)) := by
  obtain ⟨pending, hawaits⟩ := h.settled.awaits
  refine ⟨pending, hawaits, fun words rest hwords hpending => ?_⟩
  intro form htextured htransparent after
  obtain ⟨hunit, hdone⟩ := hwords.carriedOut hawaits hpending
  have hafter : (rest.foldl writeDrawing g).atRest =
      g.atRest.applyTexturePage (.ofWord (words.getD 4 0)) :=
    hunit.trans (drawPolygon_of_transparent (g := g.atRest) htextured htransparent)
  have hvram := congrArg vram hafter
  exact ⟨hdone, hvram, hafter⟩

/-- A triangle with texels of 15 bits over the page that it samples, next to which there is
a pixel. -/
theorem transparent_texture_over_own_page :
    let g := (Graphics.initial .drop).performAll [.writePixel 512 300 0x1234]
    let words : List UInt32 := [0x24FFFFFF, 0, 0, 8, 0x01000008, 0x00080000, 0x00000800]
    let form := PolygonForm.ofBits (opcodeOf (words.headD 0))
    Reachable .drop g ∧ IsPolygon words ∧ form.textured = true ∧
      (Texture.ofWords form words).Transparent g.window g.vram ∧
      (words.foldl writeDrawing g).vram.get 512 300 = 0x1234 ∧
      (words.foldl writeDrawing g).vram = g.vram := by
  intro g words form
  have hreachable : Reachable .drop g := Reachable.initial.performAll _
  have hpolygon : IsPolygon words := ⟨by decide, by decide⟩
  have htextured : form.textured = true := by decide
  have hget (x y : Nat) :
      g.vram.get x y = if 512 = x % 1024 ∧ 300 = y % 512 then 0x1234 else 0 := by
    change (Vram.set .blank 512 300 0x1234).get x y = _
    rw [Vram.get_set]
    simp only [Vram.get, Vram.blank, Vector.getElem_replicate]
    rfl
  have htransparent : (Texture.ofWords form words).Transparent g.window g.vram := by
    intro u v
    have hdepth : (Texture.ofWords form words).depth = .bits15 := by decide
    have hpage : (Texture.ofWords form words).pageX = 0 := by decide
    unfold Texture.sample
    simp only [hdepth, hpage, hget]
    refine if_neg fun hpixel => ?_
    have hless := (g.window.apply u v).1.toNat_lt
    omega
  obtain ⟨pending, hawaits, hdrawn⟩ := transparent_texture_draws_nothing hreachable
  have hidle : g.progress.inProgress = false := by decide +kernel
  obtain rfl := hawaits.pending_eq_nil hidle
  obtain ⟨-, hkept, -⟩ := hdrawn words words hpolygon rfl htextured htransparent
  refine ⟨hreachable, hpolygon, htextured, htransparent, ?_, hkept⟩
  rw [hkept, hget]
  rfl

end Graphics
end PlayStation
