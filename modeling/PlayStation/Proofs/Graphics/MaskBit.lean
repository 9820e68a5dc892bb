import PlayStation.Proofs.Graphics.Clipping
import PlayStation.Proofs.Graphics.SettingsShown
import PlayStation.Proofs.Graphics.Strokes

/-!
# The mask bit and the frame of polygons

The strokes of commands that follow one another (`Graphics.strokes`) are all drawn under the
same mask settings, as long as none of the commands gives those (`under_strokes`): a texture
page and a drawing mode are written around them (`flags_carryOut`).  So the mask is
respected across polygons as it is inside one, and `mask_bit_respected` says so of the words
that are written to a unit.  Apart from the pixels and from what the unit keeps of a command
in progress, a polygon changes the texture page alone (`PolygonFrame`).
-/

namespace PlayStation

open Bits

namespace Graphics

variable {g : Graphics} {words : List UInt32}

/-! ## The strokes of commands -/

/-- The strokes of a polygon. -/
def polygonStrokes (g : Graphics) (form : PolygonForm) (words : List UInt32) : List Stroke :=
  let g := if form.textured then g.applyTexturePage (.ofWord (words.getD 4 0)) else g
  ((Polygon.ofWords form words).triangles.flatMap Triangle.fragments).map
    (Stroke.mk (g.canvas (g.paintFor form words)))

/-- The strokes of a command.  Only polygons have any. -/
def commandStrokes (g : Graphics) (words : List UInt32) : Command → List Stroke
  | .polygon form => g.polygonStrokes form words
  | _ => []

/-- The strokes of commands that are carried out one after the other. -/
def strokes (g : Graphics) : List (List UInt32) → List Stroke
  | [] => []
  | words :: later =>
    let command := Command.ofOpcode (opcodeOf (words.headD 0))
    g.commandStrokes words command ++ (g.carryOut words command).strokes later

/-- The words of a whole command that is carried out as one and does not give the mask
settings, which opcode E6h does. -/
structure LeavesMaskSettings (words : List UInt32) : Prop where
  opcode : opcodeOf (words.headD 0) ≠ 0xE6
  length : (Command.ofOpcode (opcodeOf (words.headD 0))).length? = some (.fixed words.length)

/-- The words of a polygon leave the mask settings. -/
theorem IsPolygon.leavesMaskSettings (h : IsPolygon words) : LeavesMaskSettings words := by
  refine ⟨fun hopcode => ?_, ?_⟩
  · have hpolygon := h.opcode
    rw [hopcode] at hpolygon
    revert hpolygon
    decide
  · rw [ofOpcode_of_mem_polygonOpcodes h.opcode, h.length]
    rfl

/-- The strokes of a command are what it draws. -/
theorem vram_carryOut (g : Graphics) (words : List UInt32) (command : Command) :
    (g.carryOut words command).vram =
      (g.commandStrokes words command).foldl Stroke.draw g.vram := by
  cases command with
  | polygon form =>
      have hsame (g : Graphics) (paint : Paint) (triangles : List Triangle) :
          (g.drawTriangles paint triangles).vram =
            ((triangles.flatMap Triangle.fragments).map (Stroke.mk (g.canvas paint))).foldl
              Stroke.draw g.vram := by
        rw [List.foldl_map]
        exact Canvas.foldl_drawTriangle_eq _ g.vram triangles
      unfold carryOut drawPolygon commandStrokes polygonStrokes
      dsimp only
      rw [hsame]
      cases form.textured <;> rfl
  | setting => exact (g.applySetting_keeps _).1
  | _ => rfl

/-! ## The mask settings -/

/-- The mask settings are bits 11 and 12 of the status. -/
theorem flag_eq_of_bits {a b : UInt32} (h : ∀ i, 11 ≤ i → i < 13 → bit a i = bit b i) :
    flag a GraphicsStatus.checkMask = flag b GraphicsStatus.checkMask ∧
      flag a GraphicsStatus.setMask = flag b GraphicsStatus.setMask := by
  have hflag {mask : UInt32} (hmask : ∀ i < 32, bit mask i = true → 11 ≤ i ∧ i < 13) :
      flag a mask = flag b mask := by
    have hsame : a &&& mask = b &&& mask := ext_bit fun i hi => by
      rw [bit_and, bit_and]
      cases hin : bit mask i with
      | false => rw [Bool.and_false, Bool.and_false]
      | true => rw [h i (hmask i hi hin).1 (hmask i hi hin).2]
    rw [flag, flag, hsame]
  exact ⟨hflag (by decide), hflag (by decide)⟩

/-- A polygon changes the bits of the texture page at most. -/
theorem bit_status_drawPolygon (g : Graphics) (form : PolygonForm) (words : List UInt32)
    {i : Nat} (hi : i < 32) :
    bit (g.drawPolygon form words).status i = bit g.status i ∨
      form.textured = true ∧ (i < 9 ∨ i = 15) := by
  unfold drawPolygon
  cases form.textured with
  | false => exact .inl rfl
  | true =>
      by_cases hpage : i < 9 ∨ i = 15
      · exact .inr ⟨rfl, hpage⟩
      · refine .inl ((GraphicsStatus.bit_withTexturePage g.status _ hi).trans ?_)
        rw [if_neg (by omega), if_neg (by omega)]

/-- The texture page is written around the mask settings. -/
theorem flags_drawPolygon (g : Graphics) (form : PolygonForm) (words : List UInt32) :
    let after := g.drawPolygon form words
    flag after.status GraphicsStatus.checkMask = flag g.status GraphicsStatus.checkMask ∧
      flag after.status GraphicsStatus.setMask = flag g.status GraphicsStatus.setMask := by
  refine flag_eq_of_bits fun i hlow hhigh => ?_
  rcases g.bit_status_drawPolygon form words (i := i) (by omega) with hsame | ⟨-, hpage⟩
  · exact hsame
  · omega

/-- **The mask settings stay**, whatever is carried out, until they are given. -/
theorem flags_carryOut (g : Graphics) (hopcode : opcodeOf (words.headD 0) ≠ 0xE6) :
    let after := g.carryOut words (.ofOpcode (opcodeOf (words.headD 0)))
    flag after.status GraphicsStatus.checkMask = flag g.status GraphicsStatus.checkMask ∧
      flag after.status GraphicsStatus.setMask = flag g.status GraphicsStatus.setMask := by
  cases hcommand : Command.ofOpcode (opcodeOf (words.headD 0)) with
  | polygon form => exact g.flags_drawPolygon form words
  | setting =>
      dsimp only [carryOut]
      rw [(g.applySetting_eq hcommand).1, if_neg hopcode]
      split
      · refine flag_eq_of_bits fun i hlow hhigh => ?_
        rw [GraphicsStatus.bit_withDrawMode _ _ (by omega), if_neg (by omega), if_neg (by omega)]
      · exact ⟨rfl, rfl⟩
  | _ => exact ⟨rfl, rfl⟩

/-- The strokes of a command are drawn under the settings of the unit. -/
theorem under_commandStrokes (g : Graphics) (words : List UInt32) (command : Command) :
    ∀ s ∈ g.commandStrokes words command,
      s.Under (flag g.status GraphicsStatus.checkMask) (flag g.status GraphicsStatus.setMask) := by
  intro s hs
  cases command with
  | polygon form =>
      obtain ⟨f, -, rfl⟩ := List.mem_map.mp hs
      -- The canvas takes its settings from the unit that the polygon leaves.
      exact g.flags_drawPolygon form words
  | _ => cases hs

/-- So are the strokes of commands that leave the settings. -/
theorem under_strokes {commands : List (List UInt32)}
    (hcommands : ∀ words ∈ commands, LeavesMaskSettings words) (g : Graphics) :
    ∀ s ∈ g.strokes commands,
      s.Under (flag g.status GraphicsStatus.checkMask) (flag g.status GraphicsStatus.setMask) := by
  induction commands generalizing g with
  | nil => exact fun s hs => nomatch hs
  | cons words later ih =>
      intro s hs
      rcases List.mem_append.mp hs with hnow | hlater
      · exact g.under_commandStrokes _ _ s hnow
      · obtain ⟨hcheck, hset⟩ := g.flags_carryOut (hcommands words List.mem_cons_self).opcode
        rw [← hcheck, ← hset]
        exact ih (fun words hwords => hcommands words (List.mem_cons_of_mem _ hwords)) _ s hlater

/-! ## The words of commands -/

/-- A handler with a fixed length takes that many words. -/
theorem takes_of_length? {command : Command} {count : Nat}
    (h : command.length? = some (.fixed count)) : command.takes = count := by
  cases command <;> cases h <;> rfl

/-- A unit never waits for more of a command that it could carry out. -/
theorem LeavesMaskSettings.not_awaits (h : LeavesMaskSettings words) (more : List UInt32) :
    ¬ Awaits g (words ++ more) := by
  intro hawaits
  obtain ⟨-, hlength⟩ := h
  cases words with
  | nil => cases hlength
  | cons first arguments =>
      rw [List.headD_cons] at hlength
      have hlonger : arguments.length ≤ (arguments ++ more).length := by
        rw [List.length_append]
        omega
      rw [List.cons_append] at hawaits
      generalize arguments ++ more = rest at hawaits hlonger
      cases hawaits with
      | queued queue progress upload short =>
          rw [takes_of_length? hlength, List.length_cons] at short
          omega
      | uploading opcode queue progress upload short =>
          rw [(ofOpcode_eq_iff _).1.mpr opcode] at hlength
          cases hlength
      | dropping policy command queue progress upload short =>
          rw [command] at hlength
          cases hlength
      | stalled policy command queue progress upload =>
          rw [command] at hlength
          cases hlength

/-- So the words of the first command are the pending ones and some that follow. -/
theorem LeavesMaskSettings.split {pending rest later : List UInt32} (h : LeavesMaskSettings words)
    (hawaits : Awaits g pending) (hwords : pending ++ rest = words ++ later) :
    ∃ now, now ≠ [] ∧ pending ++ now = words ∧ rest = now ++ later := by
  rcases List.append_eq_append_iff.mp hwords with ⟨now, hnow, hrest⟩ | ⟨more, hpending, -⟩
  · refine ⟨now, ?_, hnow.symm, hrest⟩
    rintro rfl
    rw [List.append_nil] at hnow
    subst hnow
    exact h.not_awaits [] (by rwa [List.append_nil])
  · rw [hpending] at hawaits
    exact absurd hawaits (h.not_awaits more)

/-- **One command**, whose first words may be there already. -/
theorem LeavesMaskSettings.carriedOut {pending rest : List UInt32} (h : LeavesMaskSettings words)
    (hawaits : Awaits g pending) (hwords : pending ++ rest = words) (hrest : rest ≠ []) :
    (rest.foldl writeDrawing g).atRest =
        g.atRest.carryOut words (.ofOpcode (opcodeOf (words.headD 0))) ∧
      Awaits (rest.foldl writeDrawing g) [] := by
  obtain ⟨-, hlength⟩ := h
  cases words with
  | nil => cases hlength
  | cons first arguments =>
      exact carriedOut_of_words rfl hlength rfl hawaits hwords hrest

/-- **Commands one after the other** draw their strokes. -/
theorem drawn_of_commands {pending rest : List UInt32} {commands : List (List UInt32)}
    (hcommands : ∀ words ∈ commands, LeavesMaskSettings words) (h : Awaits g pending)
    (hwords : pending ++ rest = commands.flatten) :
    let after := rest.foldl writeDrawing g
    Awaits after [] ∧ after.vram = (g.atRest.strokes commands).foldl Stroke.draw g.vram ∧
      flag after.status GraphicsStatus.checkMask = flag g.status GraphicsStatus.checkMask ∧
      flag after.status GraphicsStatus.setMask = flag g.status GraphicsStatus.setMask := by
  induction commands generalizing g pending rest with
  | nil =>
      obtain ⟨rfl, rfl⟩ := List.append_eq_nil_iff.mp hwords
      exact ⟨h, rfl, rfl, rfl⟩
  | cons words later ih =>
      have hfirst := hcommands words List.mem_cons_self
      obtain ⟨now, hnow, hpending, rfl⟩ := hfirst.split h hwords
      obtain ⟨hunit, hawaits⟩ := hfirst.carriedOut h hpending hnow
      obtain ⟨hdone, hvram, hcheck, hset⟩ :=
        ih (fun words hwords => hcommands words (List.mem_cons_of_mem _ hwords)) hawaits rfl
      obtain ⟨hcheck', hset'⟩ := g.atRest.flags_carryOut hfirst.opcode
      rw [← hunit] at hcheck' hset'
      intro after
      have hafter : after = later.flatten.foldl writeDrawing (now.foldl writeDrawing g) :=
        List.foldl_append ..
      rw [hafter]
      refine ⟨hdone, ?_, hcheck.trans hcheck', hset.trans hset'⟩
      have hdrawn : (now.foldl writeDrawing g).vram =
          (g.atRest.commandStrokes words (.ofOpcode (opcodeOf (words.headD 0)))).foldl
            Stroke.draw g.vram :=
        (congrArg vram hunit).trans (g.atRest.vram_carryOut words _)
      rw [hvram, hunit, hdrawn, strokes, List.foldl_append]

/-! ## What a polygon leaves -/

/-- What a polygon changes: pixels, what the unit keeps of a command in progress and, if it
has a texture, the texture page in bits 0 to 8 and 15 of the status. -/
structure PolygonFrame (form : PolygonForm) (g after : Graphics) : Prop where
  others : after =
    { g with
      vram := after.vram
      queue := after.queue
      progress := after.progress
      status := after.status }
  status : ∀ i < 32, bit after.status i = bit g.status i ∨
    form.textured = true ∧ (i < 9 ∨ i = 15)

/-- A unit that waits for the rest of such a command is not in an upload. -/
theorem LeavesMaskSettings.upload_eq_none {pending rest : List UInt32}
    (h : LeavesMaskSettings words) (hawaits : Awaits g pending) (hwords : pending ++ rest = words) :
    g.upload = none := by
  subst hwords
  cases hawaits with
  | idle queue progress upload => exact upload
  | queued queue progress upload short => exact upload
  | uploading opcode queue progress upload short =>
      have hlength := h.length
      rw [List.cons_append, List.headD_cons, (ofOpcode_eq_iff _).1.mpr opcode] at hlength
      cases hlength
  | dropping policy command queue progress upload short => exact upload
  | stalled policy command queue progress upload => exact upload

/-- A polygon changes pixels and the status word, besides what the unit keeps of the command. -/
theorem drawPolygon_others (g : Graphics) (form : PolygonForm) (words : List UInt32)
    (queue : WordQueue) (progress : Progress) :
    { g.drawPolygon form words with queue, progress } =
      { g with
        vram := (g.drawPolygon form words).vram
        queue
        progress
        status := (g.drawPolygon form words).status } := by
  unfold drawPolygon
  cases form.textured <;> rfl

/-- A unit that has drawn a polygon, and has no more of an upload than before. -/
theorem polygonFrame_of_atRest {after : Graphics} {form : PolygonForm}
    (hunit : after.atRest = g.atRest.drawPolygon form words) (hupload : after.upload = g.upload) :
    PolygonFrame form g after := by
  obtain ⟨hkept, hrest⟩ := drawPolygon_sameCommand g form words
  have hdrawn : after.atRest = (g.drawPolygon form words).atRest := hunit.trans hrest.symm
  have hvram := congrArg vram hdrawn
  have hstatus := congrArg status hdrawn
  change after.vram = (g.drawPolygon form words).vram at hvram
  change after.status = (g.drawPolygon form words).status at hstatus
  refine ⟨?_, fun i hi => ?_⟩
  · rw [hvram, hstatus, ← drawPolygon_others]
    exact eq_of_atRest_eq hdrawn (hupload.trans hkept.upload.symm)
  · rw [hstatus]
    exact g.bit_status_drawPolygon form words hi

/-- **One polygon**, whose first words may be there already. -/
theorem IsPolygon.carriedOut {pending rest : List UInt32} (hwords : IsPolygon words)
    (h : Awaits g pending) (hpending : pending ++ rest = words) :
    (rest.foldl writeDrawing g).atRest =
        g.atRest.drawPolygon (.ofBits (opcodeOf (words.headD 0))) words ∧
      Awaits (rest.foldl writeDrawing g) [] := by
  have hleaves := hwords.leavesMaskSettings
  have hall : pending ++ rest = words ++ [] := by rw [hpending, List.append_nil]
  obtain ⟨now, hnow, hsplit, hrest⟩ := hleaves.split h hall
  rw [List.append_nil] at hrest
  subst hrest
  obtain ⟨hunit, hdone⟩ := hleaves.carriedOut h hsplit hnow
  rw [ofOpcode_of_mem_polygonOpcodes hwords.opcode] at hunit
  exact ⟨hunit, hdone⟩

/-- The words of a polygon change no more than its frame says, however many have come before. -/
theorem polygonFrame_of_words {pending rest : List UInt32} (hwords : IsPolygon words)
    (h : Awaits g pending) (hpending : pending ++ rest = words) :
    PolygonFrame (.ofBits (opcodeOf (words.headD 0))) g (rest.foldl writeDrawing g) := by
  obtain ⟨hunit, hdone⟩ := hwords.carriedOut h hpending
  have hupload := hwords.leavesMaskSettings.upload_eq_none h hpending
  exact polygonFrame_of_atRest hunit (hdone.upload_eq_none.trans hupload.symm)

/-- **The mask bit, and the frame of polygons.**  A unit that can be reached awaits the rest
of a command, or nothing.  Let it be given that rest and more whole commands, none of which
gives the mask settings: polygons (`IsPolygon.leavesMaskSettings`), and whatever else is
carried out as one between them.

* The unit is idle then, its mask settings are the same, and its pixels are what the
  strokes of the commands lead to.
* From every moment between two strokes to every later one, a pixel that has the mask bit
  stays the same if the unit checks it, and a pixel that has changed has the mask bit
  exactly if the unit sets it.  So it is from the first moment to the last one.
* A single polygon changes nothing else but the queue, the progress and, if it has a
  texture, bits 0 to 8 and 15 of the status. -/
theorem mask_bit_respected {policy : UnhandledCommand} (h : Reachable policy g) :
    ∃ pending, Awaits g pending ∧
      (∀ (commands : List (List UInt32)) (rest : List UInt32),
        (∀ words ∈ commands, LeavesMaskSettings words) → pending ++ rest = commands.flatten →
        let check := flag g.status GraphicsStatus.checkMask
        let set := flag g.status GraphicsStatus.setMask
        let after := rest.foldl writeDrawing g
        let history := stores g.vram (g.atRest.strokes commands)
        Awaits after [] ∧ flag after.status GraphicsStatus.checkMask = check ∧
          flag after.status GraphicsStatus.setMask = set ∧
          history.getLast? = some after.vram ∧ history.Pairwise (MaskRespected check set) ∧
          MaskRespected check set g.vram after.vram) ∧
      ∀ words rest : List UInt32, IsPolygon words → pending ++ rest = words →
        PolygonFrame (.ofBits (opcodeOf (words.headD 0))) g (rest.foldl writeDrawing g) := by
  obtain ⟨pending, hawaits⟩ := h.settled.awaits
  refine ⟨pending, hawaits, fun commands rest hcommands hwords => ?_,
    fun words rest hpolygon hwords => polygonFrame_of_words hpolygon hawaits hwords⟩
  obtain ⟨hdone, hvram, hcheck, hset⟩ := drawn_of_commands hcommands hawaits hwords
  have hlast := getLast?_stores g.vram (g.atRest.strokes commands)
  rw [← hvram] at hlast
  have hstrokes := under_strokes hcommands g.atRest
  exact ⟨hdone, hcheck, hset, hlast, pairwise_stores hstrokes g.vram,
    .of_mem_stores hstrokes (List.mem_of_getLast? hlast)⟩

/-- A pixel that has the mask bit is behind a triangle. -/
theorem mask_bit_respected_of_dot :
    let g := (Graphics.initial .drop).performAll [.write 0 0xE6000003, .writePixel 0 0 0x8001]
    Reachable .drop g ∧ IsPolygon dot ∧
      (g.atRest.strokes [dot]).map Stroke.fragment = [⟨0, 0, ⟨255, 255, 255⟩, 0, 0⟩] ∧
      (dot.foldl writeDrawing g).vram.get 0 0 = 0x8001 := by
  intro g
  have hreachable : Reachable .drop g := Reachable.initial.performAll _
  have hidle : g.progress.inProgress = false := by decide +kernel
  have hcheck : flag g.status GraphicsStatus.checkMask = true := by decide +kernel
  have hpixel : g.vram.get 0 0 = 0x8001 := by
    change (Vram.set _ 0 0 0x8001).get 0 0 = 0x8001
    rw [Vram.get_set]
    rfl
  obtain ⟨pending, hawaits, hdrawn, -⟩ := mask_bit_respected hreachable
  obtain rfl := hawaits.pending_eq_nil hidle
  have hcommands : ∀ words ∈ [dot], LeavesMaskSettings words := fun words hwords => by
    rw [List.mem_singleton.mp hwords]
    exact isPolygon_dot.leavesMaskSettings
  obtain ⟨-, -, -, -, -, hrespected⟩ := hdrawn [dot] dot hcommands rfl
  refine ⟨hreachable, isPolygon_dot, by decide +kernel, ?_⟩
  rw [hrespected.kept hcheck 0 0 (by rw [hpixel]; decide), hpixel]

end Graphics
end PlayStation
