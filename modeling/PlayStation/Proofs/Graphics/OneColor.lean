import PlayStation.Proofs.Graphics.EdgeFractions
import PlayStation.Proofs.Graphics.MaskBit

/-!
# Polygons of one colour

A triangle whose corners have one colour is interpolated up to four times on the way to a
pixel: where its long edge is cut, along two edges and along a row.  Each time the two ends
are equal, so every fragment has the colour of the corners (`Triangle.Plain.fragments`).

An opaque polygon without a texture gives a pixel the colour of its fragment, whatever was
there before.  Where it draws is decided by its words, the drawing area and the offset alone
(`DrawingArea.covers`).

* `opaque_polygon_writes_one_color` — every pixel after such a polygon.
-/

namespace PlayStation

open Bits

/-! ## Fragments of one colour -/

/-- A corner of a colour at a position of 16 bits. -/
structure Corner.Plain (color : Color) (c : Corner) : Prop where
  fits : c.Fits
  color_eq : c.color = color

/-- Between two ends of one colour every fragment has that colour. -/
theorem Span.color_of_mem {s : Span} {color : Color} (hc1 : s.c1 = color) (hc2 : s.c2 = color)
    (hleft : -0x8000 ≤ s.x1) (hright : s.x2 ≤ 0x7FFF) {f : Fragment} (hf : f ∈ s.fragments) :
    f.color = color := by
  obtain ⟨i, hi, rfl⟩ := List.mem_map.mp hf
  have hfraction := s.moderate_fraction hleft hright (List.mem_range.mp hi)
  change s.c1.lerp s.c2 (s.fraction i) = color
  rw [hc1, hc2]
  exact Color.lerp_self hfraction color

namespace Wedge

variable {w : Wedge} {s : Span} {color : Color}

/-- A wedge whose corners have one colour and whose apex lies in a row of its own. -/
structure Plain (color : Color) (w : Wedge) : Prop where
  apex : w.apex.Plain color
  left : w.left.Plain color
  right : w.right.Plain color
  left_row : w.left.y ≠ w.apex.y
  right_row : w.right.y ≠ w.apex.y

/-- A wedge between corners of one colour is plain if its base is level and apart from its
apex. -/
theorem plain_ofCorners {apex a b : Corner} (hapex : apex.Plain color) (ha : a.Plain color)
    (hb : b.Plain color) (hrow : a.y ≠ apex.y) (hlevel : b.y = a.y) :
    (ofCorners apex a b).Plain color := by
  have hrow' : b.y ≠ apex.y := hlevel ▸ hrow
  unfold ofCorners
  split
  · exact ⟨hapex, hb, ha, hrow', hrow⟩
  · exact ⟨hapex, ha, hb, hrow, hrow'⟩

/-- Both ends of a row have the colour, wherever the edges are in that row. -/
theorem Plain.span (h : w.Plain color) {y : Int} (htop : -0x8000 ≤ y) (hbottom : y ≤ 0x7FFF)
    (v : UInt8) (leftX rightX : Float32) :
    ∀ f ∈ (w.span y v leftX rightX).fragments, f.color = color := by
  obtain ⟨hleft, hleft'⟩ := Interpolation.truncate_bounds (leftX + 0.5)
  obtain ⟨hright, hright'⟩ := Interpolation.truncate_bounds (rightX + 0.5)
  have hedge := moderate_edgeFraction h.apex.fits h.left.fits h.left_row hleft hleft' htop hbottom
  have hedge' :=
    moderate_edgeFraction h.apex.fits h.right.fits h.right_row hright hright' htop hbottom
  refine fun f hf => Span.color_of_mem ?_ ?_ hleft hright' hf
  · dsimp only [Wedge.span]
    rw [h.apex.color_eq, h.left.color_eq]
    exact Color.lerp_self hedge color
  · dsimp only [Wedge.span]
    rw [h.apex.color_eq, h.right.color_eq]
    exact Color.lerp_self hedge' color

/-- Walked downward, each span is cut from the wedge in its row. -/
theorem mem_spansDown {y : Int} {leftX rightX : Float32} {count : Nat}
    (h : s ∈ w.spansDown y leftX rightX count) : ∃ v l r, s = w.span s.y v l r := by
  induction count generalizing y leftX rightX with
  | zero => cases h
  | succ count ih =>
      rcases List.mem_cons.mp h with rfl | hbelow
      · exact ⟨_, _, _, rfl⟩
      · exact ih hbelow

/-- So is each span when the wedge is walked upward. -/
theorem mem_spansUp {y : Int} {leftX rightX : Float32} {count : Nat}
    (h : s ∈ w.spansUp y leftX rightX count) : ∃ v l r, s = w.span s.y v l r := by
  induction count generalizing y leftX rightX with
  | zero => cases h
  | succ count ih =>
      rcases List.mem_cons.mp h with rfl | habove
      · exact ⟨_, _, _, rfl⟩
      · exact ih habove

/-- A plain wedge walked downward has fragments of its colour only. -/
theorem Plain.downward (h : w.Plain color) :
    ∀ f ∈ w.downward.flatMap Span.fragments, f.color = color := by
  intro f hf
  obtain ⟨s, hs, hf⟩ := List.mem_flatMap.mp hf
  obtain ⟨hfirst, hlast⟩ := mem_downward hs
  have htop := h.apex.fits.top
  have hbottom := h.left.fits.bottom
  obtain ⟨v, l, r, hspan⟩ := mem_spansDown hs
  rw [hspan] at hf
  exact h.span (by omega) (by omega) v l r f hf

theorem Plain.upward (h : w.Plain color) :
    ∀ f ∈ w.upward.flatMap Span.fragments, f.color = color := by
  intro f hf
  obtain ⟨s, hs, hf⟩ := List.mem_flatMap.mp hf
  obtain ⟨hlast, hfirst | hempty⟩ := mem_upward hs
  · have htop := h.left.fits.top
    have hbottom := h.apex.fits.bottom
    obtain ⟨v, l, r, hspan⟩ := mem_spansUp hs
    rw [hspan] at hf
    exact h.span (by omega) (by omega) v l r f hf
  · rw [Span.fragments_eq_nil hempty] at hf
    cases hf

end Wedge

namespace Triangle

variable {t : Triangle} {color : Color}

/-- A triangle whose corners have one colour. -/
def Plain (color : Color) (t : Triangle) : Prop :=
  ∀ c ∈ t.corners, c.Plain color

/-- The point where the long edge is cut has the colour of its ends. -/
theorem plain_split (ha : t.a.Plain color) (hb : t.b.Plain color) (hc : t.c.Plain color)
    (hrow : t.a.y ≠ t.c.y) : t.split.Plain color := by
  have hfraction := moderate_splitFraction ha.fits hb.fits hc.fits hrow
  unfold split
  dsimp only
  refine ⟨?_, ?_⟩
  · obtain ⟨hleft, hright⟩ := Interpolation.truncate_bounds (Float32.ofInt t.a.x +
      Float32.ofInt (t.b.y - t.a.y) / Float32.ofInt (t.c.y - t.a.y) *
        (Float32.ofInt t.c.x - Float32.ofInt t.a.x))
    exact ⟨hleft, hright, hb.fits.top, hb.fits.bottom⟩
  · dsimp only
    rw [ha.color_eq, hc.color_eq]
    exact Color.lerp_self hfraction color

/-- **Every fragment of a triangle of one colour has that colour**, in both halves of a
split triangle. -/
theorem Plain.fragments (h : t.Plain color) : ∀ f ∈ t.fragments, f.color = color := by
  have hsorted : ∀ c ∈ t.sorted.corners, c.Plain color :=
    fun c hc => h c (t.sorted_perm.mem_iff.mp hc)
  have ha : t.sorted.a.Plain color := hsorted _ (.head _)
  have hb : t.sorted.b.Plain color := hsorted _ (.tail _ (.head _))
  have hc : t.sorted.c.Plain color := hsorted _ (.tail _ (.tail _ (.head _)))
  intro f hf
  rw [Triangle.fragments] at hf
  rcases t.spans_cases with
    ⟨hflat, hspans⟩ | ⟨hlevel, hbelow, hspans⟩ | ⟨habove, hbelow, hspans⟩
  · rw [hspans] at hf
    by_cases hrow : t.sorted.b.y = t.sorted.a.y
    · have hrows := Wedge.mem_fragments_downward hf
      rw [Wedge.apex_ofCorners, Wedge.left_y_ofCorners _ hflat] at hrows
      omega
    · exact (Wedge.plain_ofCorners ha hb hc hrow hflat.symm).downward f hf
  · rw [hspans] at hf
    exact (Wedge.plain_ofCorners hc ha hb (by omega) hlevel.symm).upward f hf
  · have hsplit := plain_split ha hb hc (by omega)
    rw [hspans, List.flatMap_append] at hf
    rcases List.mem_append.mp hf with hupper | hlower
    · exact (Wedge.plain_ofCorners ha hb hsplit (by omega) rfl).downward f hupper
    · exact (Wedge.plain_ofCorners hc hb hsplit (by omega) rfl).upward f hlower

end Triangle

namespace Polygon

variable {form : PolygonForm} {color : Color}

/-- The corners of a flat polygon have the colour of its first word. -/
theorem plain_readCorners (hshaded : form.shaded = false) (count : Nat) (words : List UInt32) :
    ∀ c ∈ readCorners form color count words, c.Plain color := by
  induction count generalizing words with
  | zero =>
      intro c hc
      cases words <;> cases hc
  | succ count ih =>
      cases words with
      | nil =>
          intro c hc
          cases hc
      | cons position rest =>
          intro c hc
          unfold readCorners at hc
          simp only [hshaded, Bool.false_eq_true, if_false] at hc
          rcases List.mem_cons.mp hc with rfl | hc
          · exact ⟨Corner.fits_ofWords .., rfl⟩
          · exact ih _ c hc

/-- Each triangle of a polygon takes its corners from the polygon's. -/
theorem corners_of_mem_triangles {p : Polygon} {t : Triangle} (h : t ∈ p.triangles) :
    ∀ c ∈ t.corners, c ∈ p.corners := by
  unfold triangles at h
  split at h
  · rename_i a b c hcorners
    rw [List.mem_singleton.mp h, hcorners]
    exact fun _ hc => hc
  · rename_i a b c d hcorners
    rw [hcorners]
    rcases List.mem_cons.mp h with rfl | h
    · exact fun corner hc => List.mem_append_left [d] hc
    · rw [List.mem_singleton.mp h]
      exact fun corner hc => List.mem_cons_of_mem a hc
  · cases h

/-- The fragments of a polygon, in drawing order. -/
def fragments (p : Polygon) : List Fragment :=
  p.triangles.flatMap Triangle.fragments

/-- **Every fragment of a flat polygon has the colour of its first word.** -/
theorem color_of_mem_fragments (hshaded : form.shaded = false) (words : List UInt32) :
    ∀ f ∈ (ofWords form words).fragments, f.color = .ofWord (words.headD 0) := by
  intro f hf
  obtain ⟨t, ht, hf⟩ := List.mem_flatMap.mp hf
  have hplain : t.Plain (.ofWord (words.headD 0)) := fun c hc =>
    plain_readCorners hshaded _ _ c (corners_of_mem_triangles ht c hc)
  exact hplain.fragments f hf

end Polygon

/-! ## Drawing -/

/-- Whether one of the fragments is drawn at a pixel of the store. -/
def DrawingArea.covers (area : DrawingArea) (offset : DrawOffset) (fragments : List Fragment)
    (x y : Nat) : Bool :=
  fragments.any fun f =>
    area.contains (f.x + offset.x) (f.y + offset.y) &&
      ((f.x + offset.x).toNat % 1024 == x && (f.y + offset.y).toNat % 512 == y)

/-- A pixel is covered by fragments if it is covered by one of them. -/
theorem DrawingArea.covers_cons (area : DrawingArea) (offset : DrawOffset) (f : Fragment)
    (rest : List Fragment) (x y : Nat) :
    area.covers offset (f :: rest) x y =
      (area.covers offset [f] x y || area.covers offset rest x y) := by
  simp only [covers, List.any_cons, List.any_nil, Bool.or_false]

namespace Canvas

variable {c : Canvas} {x y : Nat}

/-- Whether a pixel is there to stay. -/
def protects (c : Canvas) (pixel : UInt16) : Bool :=
  c.checkMask && isMasked pixel

/-- The pixel of an opaque colour. -/
def solid (c : Canvas) (color : Color) : UInt16 :=
  color.toPixel ||| (if c.setMask then maskBit else 0)

/-- A plain fragment gives its colour to a pixel that is not protected. -/
theorem get_plot_of_plain (htexture : c.paint.texture = none) (hsolid : c.paint.opaque' = true)
    (color : Color) (u v : UInt8) (vram : Vram) :
    (c.plot x y color u v vram).get x y =
      if c.protects (vram.get x y) then vram.get x y else c.solid color := by
  have hshade : c.shade color u v vram = some (color, true) := by
    simp only [shade, htexture, hsolid]
  unfold plot
  rw [hshade]
  dsimp only
  change Vram.get (if c.protects (vram.get x y) then vram else _) x y = _
  split
  · rfl
  · rw [Vram.get_set, if_pos ⟨rfl, rfl⟩]
    rfl

/-- **One fragment** gives its colour to the pixel at its point, if it is drawn and the pixel
is not protected. -/
theorem get_draw_of_plain (htexture : c.paint.texture = none) (hsolid : c.paint.opaque' = true)
    (hx : x < 1024) (hy : y < 512) (vram : Vram) (f : Fragment) :
    (c.draw vram f).get x y =
      if c.area.covers c.offset [f] x y && !c.protects (vram.get x y) then c.solid f.color
      else vram.get x y := by
  have hcovers : c.area.covers c.offset [f] x y =
      (c.admits f && ((c.place f).1 == x && (c.place f).2 == y)) := by
    rw [DrawingArea.covers, List.any_cons, List.any_nil, Bool.or_false]
    rfl
  rw [draw_eq_plot, hcovers]
  cases c.admits f with
  | false => rfl
  | true =>
      rw [if_pos rfl, Bool.true_and]
      by_cases hplace : (c.place f).1 = x ∧ (c.place f).2 = y
      · rw [hplace.1, hplace.2, get_plot_of_plain htexture hsolid, beq_self_eq_true,
          beq_self_eq_true]
        cases c.protects (vram.get x y) <;> rfl
      · have hother : ¬ ((c.place f).1 % 1024 = x % 1024 ∧ (c.place f).2 % 512 = y % 512) := by
          dsimp only [place] at hplace ⊢
          omega
        have hcovers : ((c.place f).1 == x && (c.place f).2 == y) = false := by
          simpa using hplace
        rw [get_plot_of_ne _ _ _ _ hother, hcovers]
        rfl

/-- **Fragments of one colour**, one after the other.  A pixel that one of them has drawn is
drawn again in the same colour, or has become protected. -/
theorem get_foldl_draw_of_plain (htexture : c.paint.texture = none)
    (hsolid : c.paint.opaque' = true) (hx : x < 1024) (hy : y < 512) {color : Color}
    {fragments : List Fragment} (hcolor : ∀ f ∈ fragments, f.color = color) (vram : Vram) :
    (fragments.foldl c.draw vram).get x y =
      if c.area.covers c.offset fragments x y && !c.protects (vram.get x y) then c.solid color
      else vram.get x y := by
  induction fragments generalizing vram with
  | nil => rfl
  | cons f rest ih =>
      rw [List.foldl_cons, ih fun f' hf' => hcolor f' (.tail _ hf'), DrawingArea.covers_cons,
        get_draw_of_plain htexture hsolid hx hy, hcolor f (.head _)]
      -- After `f` the pixel is the old one, or the one that the rest would make of it.
      cases c.area.covers c.offset [f] x y with
      | false => rfl
      | true =>
          cases hprotected : c.protects (vram.get x y) with
          | true => simp [hprotected]
          | false => simp

end Canvas

namespace Graphics

variable {g : Graphics} {x y : Nat}

/-- **An opaque polygon without a texture and with one colour word** gives that colour to
the pixels that it covers and that are not protected. -/
theorem get_drawPolygon_of_plain {form : PolygonForm} (hshaded : form.shaded = false)
    (htextured : form.textured = false) (htranslucent : form.translucent = false)
    (g : Graphics) (words : List UInt32) (hx : x < 1024) (hy : y < 512) :
    (g.drawPolygon form words).vram.get x y =
      if g.area.covers g.offset (Polygon.ofWords form words).fragments x y &&
          !(flag g.status GraphicsStatus.checkMask && isMasked (g.vram.get x y)) then
        (Color.ofWord (words.headD 0)).toPixel |||
          (if flag g.status GraphicsStatus.setMask then maskBit else 0)
      else g.vram.get x y := by
  have hpaint : g.paintFor form words =
      { opaque' := true, blend := GraphicsStatus.blendOf g.status, texture := none } := by
    unfold paintFor
    rw [if_neg (by rw [htextured]; decide), htranslucent]
    rfl
  have hdrawn : (g.drawPolygon form words).vram =
      (Polygon.ofWords form words).fragments.foldl (g.canvas (g.paintFor form words)).draw
        g.vram := by
    unfold drawPolygon
    dsimp only
    rw [if_neg (by rw [htextured]; decide)]
    exact Canvas.foldl_drawTriangle_eq _ _ _
  rw [hdrawn, hpaint]
  exact Canvas.get_foldl_draw_of_plain rfl rfl hx hy
    (Polygon.color_of_mem_fragments hshaded words) g.vram

/-- **Opaque monochrome polygons write one colour.**  A unit that can be reached awaits the
rest of a command, or nothing.  Let that and the words it is given make up an opaque triangle
or quad of one colour.  When the words have arrived, the unit is idle, and of all pixels

* those that a fragment is drawn at, and that the unit does not protect, are the colour of
  the first word, with the mask bit exactly if the unit sets it;
* the others are what they were.

Which pixels those are is a matter of the words, the drawing area, the offset and the mask
bits; of the blend mode, the texture page, the texture window and the colours that were there
before, nothing comes in. -/
theorem opaque_polygon_writes_one_color {policy : UnhandledCommand} (h : Reachable policy g) :
    ∃ pending, Awaits g pending ∧
      ∀ words rest : List UInt32, IsPolygon words →
        opcodeOf (words.headD 0) = 0x20 ∨ opcodeOf (words.headD 0) = 0x28 →
        pending ++ rest = words →
        let polygon := Polygon.ofWords (.ofBits (opcodeOf (words.headD 0))) words
        let check := flag g.status GraphicsStatus.checkMask
        let set := flag g.status GraphicsStatus.setMask
        let pixel := (Color.ofWord (words.headD 0)).toPixel ||| (if set then maskBit else 0)
        let after := rest.foldl writeDrawing g
        Awaits after [] ∧ isMasked pixel = set ∧
          ∀ x y, x < 1024 → y < 512 →
            after.vram.get x y =
              if g.area.covers g.offset polygon.fragments x y &&
                  !(check && isMasked (g.vram.get x y)) then
                pixel
              else g.vram.get x y := by
  obtain ⟨pending, hawaits⟩ := h.settled.awaits
  refine ⟨pending, hawaits, fun words rest hwords hopcode hpending => ?_⟩
  intro polygon check set pixel after
  obtain ⟨hunit, hdone⟩ := hwords.carriedOut hawaits hpending
  have hform : (PolygonForm.ofBits (opcodeOf (words.headD 0))).shaded = false ∧
      (PolygonForm.ofBits (opcodeOf (words.headD 0))).textured = false ∧
      (PolygonForm.ofBits (opcodeOf (words.headD 0))).translucent = false := by
    rcases hopcode with hopcode | hopcode
    · rw [hopcode]
      decide
    · rw [hopcode]
      decide
  obtain ⟨hshaded, htextured, htranslucent⟩ := hform
  refine ⟨hdone, Color.isMasked_toPixel_or _ _, fun x y hx hy => ?_⟩
  have hpixel := congrArg (fun unit : Graphics => unit.vram.get x y) hunit
  exact hpixel.trans
    (get_drawPolygon_of_plain hshaded htextured htranslucent g.atRest words hx hy)

/-- A white triangle in front of a pixel, of which none is left, with mask bits set. -/
theorem one_color_of_dot :
    let g := (Graphics.initial .drop).performAll [.write 0 0xE6000001, .writePixel 0 0 0x1234]
    Reachable .drop g ∧ IsPolygon dot ∧ opcodeOf (dot.headD 0) = 0x20 ∧
      (dot.foldl writeDrawing g).vram.get 0 0 = 0xFFFF := by
  intro g
  have hreachable : Reachable .drop g := Reachable.initial.performAll _
  have hidle : g.progress.inProgress = false := by decide +kernel
  have harea : g.area = {} := by decide +kernel
  have hoffset : g.offset = {} := by decide +kernel
  have hset : flag g.status GraphicsStatus.setMask = true := by decide +kernel
  have hcheck : flag g.status GraphicsStatus.checkMask = false := by decide +kernel
  have hopcode : opcodeOf (dot.headD 0) = 0x20 := by decide
  obtain ⟨pending, hawaits, hdrawn⟩ := opaque_polygon_writes_one_color hreachable
  obtain rfl := hawaits.pending_eq_nil hidle
  obtain ⟨-, -, hpixels⟩ := hdrawn dot dot isPolygon_dot (.inl hopcode) rfl
  refine ⟨hreachable, isPolygon_dot, hopcode, ?_⟩
  have hpixel := hpixels 0 0 (by decide) (by decide)
  rw [hopcode, Polygon.fragments, fragments_dot, harea, hoffset, hset, hcheck] at hpixel
  exact hpixel.trans (by decide +kernel)

end Graphics
end PlayStation
