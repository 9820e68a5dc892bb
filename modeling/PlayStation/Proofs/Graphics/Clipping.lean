import PlayStation.Proofs.Graphics.DrawingArea
import PlayStation.Proofs.Graphics.RoundTrip

/-!
# Clipping

A polygon changes only pixels that the drawing area reaches (`DrawingArea.reaches`): a
fragment outside the area is dropped, and one inside is drawn where its point wraps to
(`Canvas.get_draw`).  So it is for all fragments of a polygon, wherever its edges run, and
for a polygon whose words arrive one by one (`polygon_frame`).

An area may reach farther than it should.  Its edges have 10 bits and the pixel store has
512 rows, so the rows of an area from 512 on wrap around.  `keepsOutside_iff` says for
which areas this does harm, and `polygon_clipped` puts the two together.
-/

namespace PlayStation

open Bits

/-! ## What an area lets through -/

namespace DrawingArea

variable {area : DrawingArea} {x y : Nat}

/-- A point is in an area if it is between its sides, each of which belongs to it. -/
theorem contains_iff :
    area.contains x y = true ↔
      (area.left ≤ x ∧ x ≤ area.right) ∧ area.top ≤ y ∧ y ≤ area.bottom := by
  simp only [contains, Bool.and_eq_true, decide_eq_true_eq]
  omega

/-- The points of an area have coordinates that are not negative. -/
theorem nonneg_of_contains {x y : Int} (h : area.contains x y = true) : 0 ≤ x ∧ 0 ≤ y := by
  simp only [contains, Bool.and_eq_true, decide_eq_true_eq] at h
  omega

/-- Whether drawing in the area reaches a pixel: rows 512 to 1023 of the area are rows 0 to
511 of the pixel store. -/
def reaches (area : DrawingArea) (x y : Nat) : Bool :=
  area.contains x y || area.contains x (y + 512 : Nat)

/-- A point of the area is drawn where the area reaches. -/
theorem reaches_of_contains (h : area.Encodable) (hcontains : area.contains x y = true) :
    area.reaches (x % 1024) (y % 512) = true := by
  have hpoint := contains_iff.mp hcontains
  have hx : x % 1024 = x := Nat.mod_eq_of_lt (by have := h.right; omega)
  rw [reaches, Bool.or_eq_true, contains_iff, contains_iff, hx]
  have hy : y = y % 512 ∨ y = y % 512 + 512 := by
    have := h.bottom
    omega
  omega

/-- An area whose rows do not wrap around to a row outside reaches what it contains. -/
theorem reaches_eq_contains
    (h : area.bottom < 512 ∨ area.top = 0 ∨ area.bottom < area.top ∨ area.right < area.left)
    (hy : y < 512) : area.reaches x y = area.contains x y := by
  rw [Bool.eq_iff_iff, reaches, Bool.or_eq_true, contains_iff, contains_iff]
  omega

end DrawingArea

/-! ## Drawing -/

/-- Pixel stores with the same pixels are the same. -/
theorem Vram.ext_of_get {v v' : Vram} (h : ∀ x < 1024, ∀ y < 512, v.get x y = v'.get x y) :
    v = v' := by
  obtain ⟨pixels⟩ := v
  obtain ⟨pixels'⟩ := v'
  congr 1
  apply Vector.ext
  intro i hi
  have hlt : i < 524288 := hi
  have hindex : Vram.index (i % 1024) (i / 1024) = i := by
    simp only [Vram.index, Vram.width, Vram.height]
    omega
  have hpixel := h (i % 1024) (Nat.mod_lt _ (by decide)) (i / 1024) (by omega)
  simpa only [Vram.get, hindex] using hpixel

namespace Canvas

variable {c : Canvas} {x y : Nat}

/-- A fragment changes the pixel at its point and no other. -/
theorem get_plot_of_ne {x' y' : Nat} (color : Color) (u v : UInt8) (vram : Vram)
    (h : ¬ (x' % 1024 = x % 1024 ∧ y' % 512 = y % 512)) :
    (c.plot x' y' color u v vram).get x y = vram.get x y := by
  unfold plot
  dsimp only
  split
  · rfl
  · split
    · rfl
    · rw [Vram.get_set]
      exact if_neg h

/-- **One fragment** leaves the pixels alone that the area does not reach. -/
theorem get_draw (harea : c.area.Encodable) (hx : x < 1024) (hy : y < 512)
    (hout : c.area.reaches x y = false) (vram : Vram) (f : Fragment) :
    (c.draw vram f).get x y = vram.get x y := by
  unfold draw
  dsimp only
  split
  · rename_i hcontains
    apply get_plot_of_ne
    rintro ⟨hcolumn, hrow⟩
    obtain ⟨hleft, htop⟩ := DrawingArea.nonneg_of_contains hcontains
    rw [← Int.toNat_of_nonneg hleft, ← Int.toNat_of_nonneg htop] at hcontains
    have hreaches := DrawingArea.reaches_of_contains harea hcontains
    rw [hcolumn, hrow, Nat.mod_eq_of_lt hx, Nat.mod_eq_of_lt hy, hout] at hreaches
    cases hreaches
  · rfl

/-- A plain fragment whose point lies in the area gives the pixel there its colour. -/
theorem draw_of_plain (c : Canvas) (hcheck : c.checkMask = false) (hset : c.setMask = false)
    (htexture : c.paint.texture = none) (hsolid : c.paint.opaque' = true) {f : Fragment}
    (hx : f.x + c.offset.x = x) (hy : f.y + c.offset.y = y) (hcontains : c.area.contains x y = true)
    (vram : Vram) : c.draw vram f = vram.set x y f.color.toPixel := by
  unfold draw plot
  dsimp only
  rw [hx, hy, if_pos hcontains, hcheck, Bool.false_and, if_neg Bool.false_ne_true]
  simp only [shade, htexture, hsolid, pixel, hset, if_true, Int.toNat_natCast, Bool.false_eq_true,
    if_false, UInt16.or_zero]

/-- Drawing triangles is drawing their fragments in order. -/
theorem foldl_drawTriangle_eq (c : Canvas) (vram : Vram) (triangles : List Triangle) :
    triangles.foldl c.drawTriangle vram =
      (triangles.flatMap Triangle.fragments).foldl c.draw vram := by
  have htriangle : c.drawTriangle = fun vram t => t.fragments.foldl c.draw vram := by
    funext vram t
    exact c.drawTriangle_eq_foldl vram t
  rw [List.foldl_flatMap, htriangle]

/-- **Triangles** leave the pixels alone that the area does not reach. -/
theorem get_foldl_drawTriangle (harea : c.area.Encodable) (hx : x < 1024) (hy : y < 512)
    (hout : c.area.reaches x y = false) (vram : Vram) (triangles : List Triangle) :
    (triangles.foldl c.drawTriangle vram).get x y = vram.get x y := by
  rw [foldl_drawTriangle_eq]
  induction triangles.flatMap Triangle.fragments generalizing vram with
  | nil => rfl
  | cons f rest ih => rw [List.foldl_cons, ih, get_draw harea hx hy hout]

end Canvas

namespace Graphics

variable {g : Graphics} {x y : Nat}

/-- A pixel that the area does not reach keeps its value when triangles are drawn. -/
theorem get_drawTriangles (harea : g.area.Encodable) (hx : x < 1024) (hy : y < 512)
    (hout : g.area.reaches x y = false) (paint : Paint) (triangles : List Triangle) :
    (g.drawTriangles paint triangles).vram.get x y = g.vram.get x y :=
  Canvas.get_foldl_drawTriangle (c := g.canvas paint) harea hx hy hout g.vram triangles

/-- **A polygon** leaves the pixels alone that the area does not reach. -/
theorem get_drawPolygon (harea : g.area.Encodable) (hx : x < 1024) (hy : y < 512)
    (hout : g.area.reaches x y = false) (form : PolygonForm) (words : List UInt32) :
    (g.drawPolygon form words).vram.get x y = g.vram.get x y := by
  unfold drawPolygon
  cases form.textured with
  | true => exact get_drawTriangles (g := g.applyTexturePage _) harea hx hy hout _ _
  | false => exact get_drawTriangles harea hx hy hout _ _

/-! ## The words of a polygon -/

section Words

variable {first : UInt32} {arguments : List UInt32} {command : Command} {count : Nat}

/-- **One word of a command that is carried out as a whole.**  The command is carried out
if the word is its last; until then nothing changes but what the unit keeps of it. -/
theorem carriedOut_writeDrawing (hcommand : Command.ofOpcode (opcodeOf first) = command)
    (hlength : command.length? = some (.fixed count)) {pending : List UInt32} {word : UInt32}
    (h : Awaits g pending) (hwords : pending ++ [word] = first :: arguments) :
    (g.writeDrawing word).atRest =
        (if count ≤ arguments.length + 1 then g.atRest.carryOut (first :: arguments) command
          else g.atRest) ∧
      Awaits (g.writeDrawing word)
        (if count ≤ arguments.length + 1 then [] else first :: arguments) := by
  have hhandled : Command.ofOpcode (opcodeOf ((pending ++ [word]).headD 0)) = .unhandled →
      g.unhandledCommand = .drop := by
    rw [hwords, List.headD_cons, hcommand]
    rintro rfl
    cases hlength
  have hreached : (CommandLength.reachedBy (first :: arguments) (.fixed count) = true) ↔
      count ≤ arguments.length + 1 := by
    rw [CommandLength.reachedBy, decide_eq_true_eq, List.length_cons]
  obtain ⟨hunit, -, hawaits⟩ := arrived_writeDrawing h word hhandled
  rw [arrive_of_length? hwords hcommand hlength] at hunit
  rw [hwords, isComplete_of_lengthOf? (lengthOf?_of_length? hcommand hlength arguments)]
    at hawaits
  simp only [hreached] at hunit hawaits
  exact ⟨hunit, hawaits⟩

/-- **A command that is carried out as a whole** is carried out with its last word, and
the words before it change nothing but what the unit keeps of the command. -/
theorem carriedOut_of_words (hcommand : Command.ofOpcode (opcodeOf first) = command)
    (hlength : command.length? = some (.fixed count)) (hcount : arguments.length + 1 = count)
    {pending rest : List UInt32} (h : Awaits g pending)
    (hwords : pending ++ rest = first :: arguments) (hrest : rest ≠ []) :
    (rest.foldl writeDrawing g).atRest = g.atRest.carryOut (first :: arguments) command ∧
      Awaits (rest.foldl writeDrawing g) [] := by
  induction rest generalizing g pending with
  | nil => exact absurd rfl hrest
  | cons word rest ih =>
      obtain ⟨before, hsplit, rfl⟩ :
          ∃ before, pending ++ [word] = first :: before ∧ before ++ rest = arguments := by
        cases pending with
        | nil =>
            obtain ⟨rfl, rfl⟩ := List.cons.inj hwords
            exact ⟨[], rfl, rfl⟩
        | cons head tail =>
            obtain ⟨rfl, rfl⟩ := List.cons.inj hwords
            exact ⟨tail ++ [word], rfl, List.append_assoc ..⟩
      rw [List.length_append] at hcount
      obtain ⟨hunit, hawaits⟩ := carriedOut_writeDrawing hcommand hlength h hsplit
      cases rest with
      | nil =>
          have hlast : count ≤ before.length + 1 := Nat.le_of_eq hcount.symm
          rw [if_pos hlast] at hunit hawaits
          rw [List.append_nil]
          exact ⟨hunit, hawaits⟩
      | cons next rest =>
          have hmore : ¬ count ≤ before.length + 1 := by
            rw [List.length_cons] at hcount
            omega
          rw [if_neg hmore] at hunit hawaits
          rw [← hunit]
          exact ih hawaits rfl (List.cons_ne_nil _ _)

end Words

/-- The opcodes of the polygons that are drawn. -/
def polygonOpcodes : List UInt8 :=
  [0x20, 0x22, 0x24, 0x25, 0x26, 0x27, 0x28, 0x2A, 0x2C, 0x2D, 0x2E, 0x2F, 0x30, 0x32, 0x38, 0x3A]

/-- The opcodes of polygons, each with the form that its bits choose. -/
theorem ofOpcode_of_mem_polygonOpcodes {opcode : UInt8} (h : opcode ∈ polygonOpcodes) :
    Command.ofOpcode opcode = .polygon (.ofBits opcode) := by
  have hall : (polygonOpcodes.all fun opcode =>
      Command.ofOpcode opcode = .polygon (.ofBits opcode)) = true := by
    decide
  exact of_decide_eq_true (List.all_eq_true.mp hall opcode h)

/-- The words of a whole polygon: as many as its opcode asks for, with any colours,
positions and texture words. -/
structure IsPolygon (words : List UInt32) : Prop where
  opcode : opcodeOf (words.headD 0) ∈ polygonOpcodes
  length : words.length = (PolygonForm.ofBits (opcodeOf (words.headD 0))).words

/-- An idle unit draws the polygon whose words it is given. -/
theorem drawn_of_words (h : Awaits g []) {words : List UInt32} (hwords : IsPolygon words) :
    (words.foldl writeDrawing g).atRest =
        g.atRest.drawPolygon (.ofBits (opcodeOf (words.headD 0))) words ∧
      Awaits (words.foldl writeDrawing g) [] := by
  obtain ⟨hopcode, hlength⟩ := hwords
  cases words with
  | nil => cases hlength
  | cons first arguments =>
      exact carriedOut_of_words (ofOpcode_of_mem_polygonOpcodes hopcode) rfl hlength h rfl
        (List.cons_ne_nil _ _)

/-- **What a polygon leaves of an idle unit**: its drawing area, and the pixels that the
area does not reach. -/
theorem polygon_frame {policy : UnhandledCommand} (h : Reachable policy g)
    (hidle : g.progress.inProgress = false) {words : List UInt32} (hwords : IsPolygon words) :
    let after := words.foldl writeDrawing g
    after.area = g.area ∧ after.progress.inProgress = false ∧
      ∀ x < 1024, ∀ y < 512, g.area.reaches x y = false →
        after.vram.get x y = g.vram.get x y := by
  intro after
  obtain ⟨pending, hawaits⟩ := h.settled.awaits
  obtain rfl := hawaits.pending_eq_nil hidle
  obtain ⟨hunit, hdone⟩ := drawn_of_words hawaits hwords
  have harea : after.area = g.area := by
    have hsame := congrArg area hunit
    rw [area_drawPolygon] at hsame
    exact hsame
  refine ⟨harea, ?_, fun x hx y hy hout => ?_⟩
  · exact Bool.eq_false_iff.mpr fun hbusy => hdone.inProgress_iff.mp hbusy rfl
  · have hvram := congrArg (fun unit => unit.vram.get x y) hunit
    have hkept := get_drawPolygon (g := g.atRest) h.encodable hx hy hout
      (.ofBits (opcodeOf (words.headD 0))) words
    exact hvram.trans hkept

/-! ## Rows that wrap -/

/-- A white triangle of one pixel, which lies at the drawing offset. -/
def dot : List UInt32 :=
  [0x20FFFFFF, 0x00000000, 0x00000001, 0x00010000]

theorem isPolygon_dot : IsPolygon dot :=
  ⟨by decide, by decide⟩

/-- The smallest triangle that draws something draws one white pixel. -/
theorem fragments_dot :
    (Polygon.ofWords (.ofBits 0x20) dot).triangles.flatMap Triangle.fragments =
      [⟨0, 0, ⟨255, 255, 255⟩, 0, 0⟩] := by
  decide +kernel

/-- A unit that has just been switched on, with an area and an offset. -/
def ready (policy : UnhandledCommand) (area : DrawingArea) (x y : Nat) : Graphics :=
  { Graphics.initial policy with area, offset := ⟨x, y⟩ }

/-- All pixels are 0 when the example begins. -/
theorem get_ready (policy : UnhandledCommand) (area : DrawingArea) (x y x' y' : Nat) :
    (ready policy area x y).vram.get x' y' = 0 := by
  change Vram.blank.get x' y' = 0
  simp only [Vram.get, Vram.blank, Vector.getElem_replicate]

/-- The triangle colours the pixel that its point wraps to, if the area contains the
point. -/
theorem get_dot (policy : UnhandledCommand) {area : DrawingArea}
    (hcontains : area.contains x y = true) {x' y' : Nat}
    (hpixel : x % 1024 = x' % 1024 ∧ y % 512 = y' % 512) :
    (dot.foldl writeDrawing (ready policy area x y)).vram.get x' y' = 0x7FFF := by
  let c := (ready policy area x y).canvas ((ready policy area x y).paintFor (.ofBits 0x20) dot)
  have hstatus : (ready policy area x y).status = GraphicsStatus.initial := rfl
  have hcheck : c.checkMask = false := by
    change flag (ready policy area x y).status GraphicsStatus.checkMask = false
    rw [hstatus]
    decide
  have hset : c.setMask = false := by
    change flag (ready policy area x y).status GraphicsStatus.setMask = false
    rw [hstatus]
    decide
  have hdraw : c.draw .blank ⟨0, 0, ⟨255, 255, 255⟩, 0, 0⟩ = Vram.blank.set x y 0x7FFF :=
    c.draw_of_plain hcheck hset rfl rfl (Int.zero_add x) (Int.zero_add y) hcontains .blank
  obtain ⟨hunit, -⟩ := drawn_of_words (g := ready policy area x y) (.idle rfl rfl rfl)
    isPolygon_dot
  have hvram : (dot.foldl writeDrawing (ready policy area x y)).vram =
      (Polygon.ofWords (.ofBits 0x20) dot).triangles.foldl c.drawTriangle .blank :=
    congrArg vram hunit
  rw [hvram, Canvas.foldl_drawTriangle_eq, fragments_dot, List.foldl_cons, List.foldl_nil, hdraw,
    Vram.get_set]
  exact if_pos hpixel

/-- Whether polygons leave the pixels outside an area alone, in every idle unit that has
this drawing area. -/
def KeepsOutside (area : DrawingArea) : Prop :=
  ∀ (policy : UnhandledCommand) (g : Graphics) (words : List UInt32), Reachable policy g →
    g.progress.inProgress = false → g.area = area → IsPolygon words →
    ∀ x y : Nat, x < 1024 → y < 512 → area.contains x y = false →
      (words.foldl writeDrawing g).vram.get x y = g.vram.get x y

/-- **Polygons leave the pixels outside an area alone** exactly if no row of the area wraps
around to a row outside. -/
theorem keepsOutside_iff {area : DrawingArea} (h : area.Encodable) :
    KeepsOutside area ↔
      area.bottom < 512 ∨ area.top = 0 ∨ area.bottom < area.top ∨ area.right < area.left := by
  constructor
  · intro hkeeps
    apply Classical.byContradiction
    intro hwraps
    -- A row of the area that wraps around to a row above its top.
    obtain ⟨row, hwrapped, hrow, htop, hbottom⟩ : ∃ row, row + 512 < 1024 ∧ row < area.top ∧
        area.top ≤ row + 512 ∧ row + 512 ≤ area.bottom := by
      have hlast := h.bottom
      exact ⟨max area.top 512 - 512, by omega⟩
    have hin : area.contains area.left (row + 512 : Nat) = true :=
      DrawingArea.contains_iff.mpr (by omega)
    have hout : area.contains area.left row = false := by
      rw [Bool.eq_false_iff, Ne, DrawingArea.contains_iff]
      omega
    have hreachable := reachable_of_encodable .drop h h.left hwrapped
    have hsame := hkeeps .drop (ready .drop area area.left (row + 512)) dot hreachable rfl rfl
      isPolygon_dot area.left row h.left (by omega) hout
    rw [get_ready, get_dot .drop hin ⟨rfl, Nat.add_mod_right row 512⟩] at hsame
    cases hsame
  · intro hfits policy g words hreachable hidle harea hwords x y hx hy hout
    subst harea
    apply (polygon_frame hreachable hidle hwords).2.2 x hx y hy
    rw [DrawingArea.reaches_eq_contains hfits hy]
    exact hout

/-- **Clipping.**  Let an idle unit that can be reached be given the words of a polygon.

* The unit is idle again, with the same drawing area, and every pixel that the area does
  not reach is what it was.
* Nothing is drawn in an area whose edges are the wrong way round.
* An area reaches the pixels that it contains and those that its rows from 512 on wrap
  around to.  So polygons leave the pixels outside this area alone exactly if no such row
  wraps around to a row outside. -/
theorem polygon_clipped {policy : UnhandledCommand} (h : Reachable policy g)
    (hidle : g.progress.inProgress = false) {words : List UInt32} (hwords : IsPolygon words) :
    let after := words.foldl writeDrawing g
    after.area = g.area ∧ after.progress.inProgress = false ∧
      (∀ x < 1024, ∀ y < 512, g.area.reaches x y = false →
        after.vram.get x y = g.vram.get x y) ∧
      (g.area.right < g.area.left ∨ g.area.bottom < g.area.top → after.vram = g.vram) ∧
      (KeepsOutside g.area ↔
        g.area.bottom < 512 ∨ g.area.top = 0 ∨ g.area.bottom < g.area.top ∨
          g.area.right < g.area.left) := by
  intro after
  obtain ⟨harea, hdone, hkept⟩ := polygon_frame h hidle hwords
  refine ⟨harea, hdone, hkept, fun hempty => ?_, keepsOutside_iff h.encodable⟩
  apply Vram.ext_of_get
  intro x hx y hy
  apply hkept x hx y hy
  rw [Bool.eq_false_iff, Ne, DrawingArea.reaches, Bool.or_eq_true, DrawingArea.contains_iff,
    DrawingArea.contains_iff]
  omega

/-- A triangle in an area inside the pixel store. -/
theorem polygon_clipped_of_dot :
    let area : DrawingArea := ⟨20, 20, 40, 40⟩
    let g := ready .drop area 30 30
    Reachable .drop g ∧ g.progress.inProgress = false ∧ IsPolygon dot ∧
      g.area.reaches 10 10 = false ∧
      (dot.foldl writeDrawing g).vram.get 10 10 = g.vram.get 10 10 ∧ KeepsOutside area := by
  intro area g
  have hencodable : area.Encodable := ⟨by decide, by decide, by decide, by decide⟩
  have hreachable : Reachable .drop g :=
    reachable_of_encodable .drop hencodable (by decide) (by decide)
  have hout : g.area.reaches 10 10 = false := by decide
  obtain ⟨-, -, hkept, -, hexact⟩ := polygon_clipped hreachable rfl isPolygon_dot
  exact ⟨hreachable, rfl, isPolygon_dot, hout, hkept 10 (by decide) 10 (by decide) hout,
    hexact.mpr (.inl (by decide))⟩

/-- An area below the pixel store does not keep a triangle from its first row. -/
theorem wrapped_row_drawn :
    let area : DrawingArea := ⟨0, 512, 1023, 1023⟩
    let g := ready .drop area 0 512
    Reachable .drop g ∧ g.progress.inProgress = false ∧ IsPolygon dot ∧
      area.contains 0 0 = false ∧
      (dot.foldl writeDrawing g).vram.get 0 0 ≠ g.vram.get 0 0 := by
  intro area g
  have hencodable : area.Encodable := ⟨by decide, by decide, by decide, by decide⟩
  have hreachable : Reachable .drop g :=
    reachable_of_encodable .drop hencodable (by decide) (by decide)
  have hcontains : area.contains (0 : Nat) (512 : Nat) = true := by decide
  have hpixel : (dot.foldl writeDrawing g).vram.get 0 0 = 0x7FFF :=
    get_dot .drop hcontains ⟨rfl, rfl⟩
  have hblank : g.vram.get 0 0 = 0 := get_ready .drop area 0 512 0 0
  refine ⟨hreachable, rfl, isPolygon_dot, by decide, ?_⟩
  rw [hpixel, hblank]
  decide

end Graphics
end PlayStation
