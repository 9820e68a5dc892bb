import PlayStation.Proofs.Graphics.SettingsShown

/-!
# Queries undo settings

A query of the control port is answered with the word that the drawing setting was given
last, cut to the bits that the setting has (`Shows.answer`): the slices that setting it
took apart, the answer puts together again.  Reads of the drawing port return the answer
until another query or the pixels of a download take its place (`query_answers`).
-/

namespace PlayStation

open Bits

/-- The answer to a query.  A kind that is no query leaves the previous answer. -/
def answerTo (value : Setting → UInt32) (previous query : UInt32) : UInt32 :=
  match (query &&& 7).toNat with
  | 2 => value .textureWindow &&& 0xFFFFF
  | 3 => value .topLeft &&& 0xFFFFF
  | 4 => value .bottomRight &&& 0xFFFFF
  | 5 => value .offset &&& 0x3FFFFF
  | 7 => 2
  | _ => previous

/-- Whether an order changes what reads of the drawing port return: a download, or a
query. -/
def Order.isReply : Order → Bool
  | command words => opcodeOf (words.headD 0) == 0xC0
  | control word => 0x10 ≤ (word >>> 24).toNat && (word >>> 24).toNat ≤ 0x1F

/-! ## Putting settings together again -/

/-- The window is read back as the word that set it, in its twenty bits. -/
theorem TextureWindow.toWord_ofWord (word : UInt32) : (ofWord word).toWord = word &&& 0xFFFFF := by
  have hbyte (lo : UInt32) : (slice word lo 5).toUInt8.toUInt32 = slice word lo 5 := by
    have hle : (slice word lo 5).toNat ≤ 31 := by
      rw [slice, UInt32.toNat_and]
      exact Nat.and_le_right
    apply UInt32.toNat_inj.mp
    rw [UInt8.toNat_toUInt32, UInt32.toNat_toUInt8]
    omega
  have hlow : slice word 0 5 = word &&& 0x1F := by
    rw [slice, UInt32.shiftRight_zero]
    rfl
  unfold toWord ofWord
  rw [hbyte, hbyte, hbyte, hbyte, hlow,
    or_slice word 0x3FF (by decide) (by decide) (by decide) (by decide),
    or_slice word 0x7FFF (by decide) (by decide) (by decide) (by decide),
    or_slice word 0xFFFFF (by decide) (by decide) (by decide) (by decide)]

namespace Graphics

variable {g h : Graphics} {value : Setting → UInt32}

/-- The coordinates of a corner make up its word. -/
theorem word_of_areaCoordinates (word : UInt32) :
    UInt32.ofNat (areaCoordinates word).1 ||| (UInt32.ofNat (areaCoordinates word).2 <<< 10) =
      word &&& 0xFFFFF := by
  have hlow : slice word 0 10 = word &&& 0x3FF := by
    rw [slice, UInt32.shiftRight_zero]
    rfl
  rw [areaCoordinates, UInt32.ofNat_toNat, UInt32.ofNat_toNat, hlow,
    or_slice word 0xFFFFF (by decide) (by decide) (by decide) (by decide)]

/-- The low bits of a coordinate of the offset are those that it was made of. -/
theorem word_of_coordinate (word : UInt32) :
    (Int32.ofInt (signExtend word 11).toInt).toUInt32 &&& 0x7FF = word &&& 0x7FF := by
  rw [Int32.ofInt_toInt, signExtend_and word (by decide) (by decide) (by decide)]

/-- **A query is answered with the setting.** -/
theorem Shows.answer (hg : Shows g value) (query : UInt32) :
    (g.query? query).getD g.latch = answerTo value g.latch query := by
  unfold query? answerTo
  match (query &&& 7).toNat with
  | 2 =>
      rw [hg.window]
      exact TextureWindow.toWord_ofWord _
  | 3 =>
      have hcorner := word_of_areaCoordinates (value .topLeft)
      rw [← hg.topLeft] at hcorner
      exact hcorner
  | 4 =>
      have hcorner := word_of_areaCoordinates (value .bottomRight)
      rw [← hg.bottomRight] at hcorner
      exact hcorner
  | 5 =>
      have hupper : value .offset >>> 11 &&& 0x7FF = slice (value .offset) 11 11 := rfl
      rw [hg.offset, word_of_coordinate, word_of_coordinate, hupper]
      exact or_slice _ _ (by decide) (by decide) (by decide) (by decide)
  | 7 => rfl
  | 0 | 1 | 6 => rfl
  | _ + 8 => rfl

/-! ## Answers stay -/

/-- Both units return the same word when they are read, and have no pixels to return. -/
structure SameReply (g h : Graphics) : Prop where
  readback : h.readback = none
  latch : h.latch = g.latch

variable {log : Log}

/-- A command that is no download changes no reply. -/
theorem carryOut_reply (hidle : g.readback = none) {words : List UInt32} {command : Command}
    (hcommand : command ≠ .download) : SameReply g (g.carryOut words command) := by
  cases command with
  | polygon form =>
      have hsame : (g.drawPolygon form words).readback = g.readback ∧
          (g.drawPolygon form words).latch = g.latch := by
        unfold drawPolygon paintFor
        cases form.textured <;> exact ⟨rfl, rfl⟩
      exact ⟨hsame.1.trans hidle, hsame.2⟩
  | setting =>
      obtain ⟨-, hreadback, hlatch⟩ := g.applySetting_keeps (words.headD 0)
      exact ⟨hreadback.trans hidle, hlatch⟩
  | download => exact absurd rfl hcommand
  | _ => exact ⟨hidle, rfl⟩

/-- Nor does a word that does not complete a download. -/
theorem arrive_reply (hidle : g.readback = none) {pending : List UInt32} {word : UInt32}
    (hdownload : isComplete (pending ++ [word]) = true →
      (Order.command (pending ++ [word])).isReply = false) :
    SameReply g (g.arrive pending word) := by
  unfold arrive
  dsimp only
  split
  · split <;> exact ⟨hidle, rfl⟩
  · split
    · rename_i hcomplete
      refine carryOut_reply hidle fun hcommand => ?_
      have hopcode := (ofOpcode_eq_iff _).2.mp hcommand
      have hreply := hdownload hcomplete
      rw [Order.isReply, hopcode] at hreply
      cases hreply
    · exact ⟨hidle, rfl⟩

/-- A control word that is no query leaves the reply. -/
theorem control_reply (hidle : g.readback = none) {word : UInt32}
    (hquery : (Order.control word).isReply = false) : SameReply g (g.control word) := by
  unfold Graphics.control
  split
  case h_10 =>
    split
    · rename_i hrange
      rw [Order.isReply, decide_eq_true hrange.1, decide_eq_true hrange.2] at hquery
      cases hquery
    · exact ⟨hidle, rfl⟩
  all_goals exact ⟨by first | exact hidle | rfl, rfl⟩

/-- An operation that adds no reply to the log changes no reply. -/
theorem Records.reply_perform (hg : Records g log) (hidle : g.readback = none)
    {operation : Operation} (hnone : ∀ order ∈ (Log.perform ⟨[], log.pending⟩ operation).orders,
      order.isReply = false) : SameReply g (g.perform operation).2 := by
  have hwrite {offset word : UInt32}
      (hnone : ∀ order ∈ (Log.write ⟨[], log.pending⟩ offset word).orders,
        order.isReply = false) : SameReply g (g.write offset word) := by
    unfold Log.write at hnone
    unfold Graphics.write
    split
    · rename_i hport
      rw [if_pos hport] at hnone
      have hunit := (arrived_writeDrawing hg.awaits word fun _ => hg.policy).unit
      have harrive : SameReply g.atRest (g.atRest.arrive log.pending word) := by
        refine arrive_reply (g := g.atRest) hidle fun hcomplete => ?_
        unfold Log.drawing at hnone
        dsimp only at hnone
        rw [if_pos hcomplete] at hnone
        exact hnone _ (List.mem_singleton.mpr rfl)
      rw [← hunit] at harrive
      exact ⟨harrive.readback, harrive.latch⟩
    · rename_i hport
      rw [if_neg hport] at hnone
      rw [(hg.awaits.writeControl word).1]
      exact control_reply hidle (hnone _ (List.mem_singleton.mpr rfl))
  have hread (offset : UInt32) : SameReply g (g.read offset).2 := by
    unfold Graphics.read readDrawing
    rw [hidle]
    split <;> exact ⟨hidle, rfl⟩
  cases operation with
  | write offset word => exact hwrite hnone
  | dmaWrite clock word => exact hwrite hnone
  | read offset => exact hread offset
  | dmaRead clock => exact hread 0
  | writeRect x y w h pixels =>
      dsimp only [Graphics.perform]
      unfold Graphics.writeRect
      cases g.vram.writeRect x y w h pixels <;> exact ⟨hidle, rfl⟩
  | reset => exact ⟨rfl, rfl⟩
  | _ => exact ⟨hidle, rfl⟩

/-- Operations that neither ask nor download leave the reply. -/
theorem Records.reply_performAll (hg : Records g log) (hidle : g.readback = none)
    {operations : List Operation}
    (hnone : ∀ order ∈ (Log.performAll ⟨[], log.pending⟩ operations).orders,
      order.isReply = false) : SameReply g (g.performAll operations) := by
  induction operations generalizing g log with
  | nil => exact ⟨hidle, rfl⟩
  | cons operation later ih =>
      have hsplit : (Log.performAll ⟨[], log.pending⟩ (operation :: later)).orders =
          (Log.perform ⟨[], log.pending⟩ operation).orders ++
            (Log.performAll ⟨[], (log.perform operation).pending⟩ later).orders := by
        rw [log.perform_eq]
        exact congrArg Log.orders (Log.performAll_eq _ later)
      rw [hsplit] at hnone
      have hone := hg.reply_perform hidle fun order horder =>
        hnone order (List.mem_append_left _ horder)
      have hrest := ih (hg.perform operation) hone.readback fun order horder =>
        hnone order (List.mem_append_right _ horder)
      exact ⟨hrest.readback, hrest.latch.trans hone.latch⟩

/-- A unit without pixels to return returns its latch. -/
theorem read_of_idle (hidle : g.readback = none) : (g.read 0).1 = g.latch := by
  have hport : (0 : UInt32) &&& 4 = 0 := by decide
  rw [Graphics.read, if_pos hport, readDrawing, hidle]

/-- A query puts its answer into the latch and does nothing else. -/
theorem control_of_query (g : Graphics) {query : UInt32} (hleast : 0x10 ≤ (query >>> 24).toNat)
    (hmost : (query >>> 24).toNat ≤ 0x1F) :
    g.control query = { g with latch := (g.query? query).getD g.latch } := by
  unfold Graphics.control
  split
  case h_10 => exact if_pos ⟨hleast, hmost⟩
  all_goals omega

/-- **Queries undo settings.**  In any history, a query while no pixels are waiting to be
read makes the drawing port return the setting that it asks for as it was given last, and
nothing but a download or another query changes what the port returns. -/
theorem query_answers (operations : List Operation) (query : UInt32) (later : List Operation) :
    let g := (initial .drop).performAll operations
    let log := Log.of operations
    g.readback = none → 0x10 ≤ (query >>> 24).toNat → (query >>> 24).toNat ≤ 0x1F →
      (∀ order ∈ (Log.performAll ⟨[], log.pending⟩ later).orders, order.isReply = false) →
      (((g.writeControl query).performAll later).read 0).1 =
        answerTo (latest log.orders) (g.read 0).1 query := by
  intro g log hidle hleast hmost hlater
  have hrecords : Records g log := records_of operations
  have hkeeps : abandons query = false := by
    rw [abandons, Bool.or_eq_false_iff, beq_eq_false_iff_ne, beq_eq_false_iff_ne]
    exact ⟨by omega, by omega⟩
  have hpending : (log.control query).pending = log.pending := by
    rw [Log.control, hkeeps]
    rfl
  have hanswer : g.writeControl query =
      { g with latch := answerTo (latest log.orders) g.latch query } := by
    rw [(hrecords.awaits.writeControl query).1, control_of_query g hleast hmost,
      hrecords.shows.answer query]
  have hstill : (g.writeControl query).readback = none := by
    rw [hanswer]
    exact hidle
  have hstays := (hrecords.control query).reply_performAll hstill (hpending ▸ hlater)
  rw [read_of_idle hstays.readback, hstays.latch, hanswer, read_of_idle hidle]

/-- A negative offset comes back.  The words of a polygon that look like settings are
none, and reading does not use the answer up. -/
theorem query_of_offset :
    let g := (initial .drop).performAll
      [.write 0 0xE53FF7FE, .write 0 0x24000000, .write 0 0xE5000000]
    (((g.writeControl 0x1F000005).performAll [.write 0 0xE5000000, .read 0]).read 0).1 =
      0x3FF7FE := by
  intro g
  have hidle : g.readback = none :=
    (Records.reply_performAll (records_of []) rfl (by decide)).readback
  exact (query_answers [.write 0 0xE53FF7FE, .write 0 0x24000000, .write 0 0xE5000000] 0x1F000005
    [.write 0 0xE5000000, .read 0] hidle (by decide) (by decide) (by decide)).trans (by decide)

end Graphics
end PlayStation
