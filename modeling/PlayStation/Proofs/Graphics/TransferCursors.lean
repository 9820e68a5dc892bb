import PlayStation.Proofs.Graphics.Quiescence
import PlayStation.Proofs.Graphics.RoundTrip

/-!
# Transfer cursors

An upload keeps a cursor and, in another place, the number of words that it still waits
for.  Both begin when its header is read and end with its last word (`CursorsFit`): the
cursor stands behind an even number of pixels, and the words that are awaited hold the
pixels behind it.  A readable rectangle has such a cursor too.

This is kept by each round of carrying out commands (`CursorsFit.step`), so it holds where
a round starts (`rounds`), and in every reachable unit (`Reachable.cursorsFit`).  What the
handler of uploads relies on follows (`transfer_cursors`).  The words of the command in
progress (`Awaits`) are not enough for it: they are known only between operations.
-/

namespace PlayStation

namespace Transfer

/-- The number of pixels in front of the cursor. -/
def passed (t : Transfer) : Nat :=
  t.currentY * t.width + t.currentX

/-- No sum that is formed at a cursor, to find its pixel or the next one, leaves sixteen
bits. -/
structure SumsFit (t : Transfer) : Prop where
  column : t.x + t.currentX < 65536
  row : t.y + t.currentY < 65536
  nextColumn : t.currentX + 1 < 65536
  nextRow : t.currentY + 1 < 65536

/-- A cursor between two words of a rectangle that has pixels left. -/
structure BetweenWords (t : Transfer) : Prop where
  column : t.currentX < t.width
  even : t.passed % 2 = 0
  inside : t.passed < t.width * t.height
  /-- Neither at the cursor nor at the second pixel of the word. -/
  sums : t.SumsFit ∧ t.step.SumsFit

/-- The cursor behind the first `count` words of a rectangle that words name, where more
words follow. -/
def Behind (t : Transfer) (count : Nat) : Prop :=
  ∃ position size, t = (ofWords position size).after (2 * count) ∧
    count < (ofWords position size).wordCount

/-- At its start a transfer has nothing behind it. -/
theorem behind_zero (position size : UInt32) : (ofWords position size).Behind 0 :=
  ⟨position, size, (after_zero position size).symm, ofWords_wordCount_pos position size⟩

/-- A transfer that has made `n` steps has `n` pixels behind it. -/
theorem passed_after (t : Transfer) (n : Nat) : (t.after n).passed = n := by
  change n / t.width * t.width + n % t.width = n
  rw [Nat.mul_comm, Nat.div_add_mod]

/-- Up to its end, the sums at the cursor of a transfer fit. -/
theorem sumsFit_after (position size : UInt32) {n : Nat}
    (hn : n ≤ (ofWords position size).pixelCount) : ((ofWords position size).after n).SumsFit := by
  have ht := ofWords_fits position size
  have hx : (ofWords position size).x ≤ 1023 := by
    change (Bits.slice position 0 10).toNat ≤ 1023
    rw [Bits.slice, UInt32.toNat_and]
    exact Nat.and_le_right
  have hy : (ofWords position size).y ≤ 511 := by
    change (Bits.slice position 16 9).toNat ≤ 511
    rw [Bits.slice, UInt32.toNat_and]
    exact Nat.and_le_right
  have hcolumn : n % (ofWords position size).width < (ofWords position size).width :=
    Nat.mod_lt n ht.width_pos
  have hrow : n / (ofWords position size).width ≤ (ofWords position size).height :=
    Nat.div_le_of_le_mul hn
  have hwidth : (ofWords position size).width ≤ 1024 := ht.width_le
  have hheight : (ofWords position size).height ≤ 512 := ht.height_le
  constructor <;> simp only [after] <;> omega

/-- With whole words behind it, a transfer is between words. -/
theorem Behind.betweenWords {t : Transfer} {count : Nat} (h : t.Behind count) :
    t.BetweenWords := by
  obtain ⟨position, size, rfl, hcount⟩ := h
  have hinside := (lt_pixelCount hcount).1
  have hpos := ofWords_width_pos position size
  refine ⟨Nat.mod_lt _ hpos, ?_, ?_, sumsFit_after position size (Nat.le_of_lt hinside), ?_⟩
  · rw [passed_after, Nat.mul_mod_right]
  · rw [passed_after]
    exact hinside
  · rw [step_after hpos]
    exact sumsFit_after position size hinside

/-- The words that are still to come hold the pixels behind the cursor, two to a word. -/
theorem Behind.words_left {t : Transfer} {count : Nat} (h : t.Behind count) :
    t.wordCount - count = (t.width * t.height - t.passed + 1) / 2 ∧ 0 < t.wordCount - count := by
  obtain ⟨position, size, rfl, hcount⟩ := h
  have hwords : ((ofWords position size).after (2 * count)).wordCount =
      (ofWords position size).wordCount := rfl
  have hinside := (lt_pixelCount hcount).1
  rw [passed_after, hwords]
  change _ = ((ofWords position size).pixelCount - 2 * count + 1) / 2 ∧ _
  rw [wordCount] at hcount ⊢
  omega

end Transfer

namespace Graphics

variable {g : Graphics} {policy : UnhandledCommand}

/-- The opcode of an upload has been captured, and the upload has not ended. -/
def Uploading (g : Graphics) : Prop :=
  g.progress.inProgress = true ∧ g.progress.opcode = 0xA0

/-- The cursors of a unit, and what it keeps of an upload elsewhere. -/
structure CursorsFit (g : Graphics) : Prop where
  upload : ∀ t, g.upload = some t → g.Uploading ∧
    ∃ count, t.Behind count ∧ g.progress.remaining = t.wordCount - count
  /-- Without a cursor the header is still in the queue. -/
  header : g.Uploading → g.upload = none → g.progress.remaining = 0 ∧
    ∃ first rest, g.queue.toList = first :: rest ∧ opcodeOf first = 0xA0
  readback : ∀ t, g.readback = some t → ∃ count, t.Behind count

/-- Without an upload command there is no cursor of one. -/
theorem CursorsFit.upload_eq_none (h : g.CursorsFit) (hnot : ¬ g.Uploading) : g.upload = none :=
  Option.eq_none_iff_forall_ne_some.mpr fun t ht => hnot (h.upload t ht).1

/-- A unit that is not uploading. -/
theorem cursorsFit_of_idle (hnot : ¬ g.Uploading) (hupload : g.upload = none)
    (hreadback : ∀ t, g.readback = some t → ∃ count, t.Behind count) : g.CursorsFit where
  upload t ht := by cases hupload.symm.trans ht
  header huploading := absurd huploading hnot
  readback := hreadback

/-- The cursors fit if the command in progress and the readback are the same. -/
theorem CursorsFit.congr {g h : Graphics} (hg : g.CursorsFit) (hsame : SameCommand g h)
    (hreadback : h.readback = g.readback) : h.CursorsFit := by
  obtain ⟨hqueue, hprogress, hupload, -⟩ := hsame
  constructor
  · rw [hupload, hprogress, Uploading, hprogress]
    exact hg.upload
  · rw [hupload, hprogress, hqueue, Uploading, hprogress]
    exact hg.header
  · rw [hreadback]
    exact hg.readback

/-! ## One round -/

/-- A transfer that begins has fitting cursors. -/
theorem CursorsFit.begin? (h : g.CursorsFit) {begun : Graphics} (hbegin : g.begin? = some begun) :
    begun.CursorsFit := by
  unfold Graphics.begin? at hbegin
  split at hbegin
  · cases hbegin
    exact h
  · rename_i hidle
    obtain ⟨opcode, hopcode, rfl⟩ := Option.map_eq_some_iff.mp hbegin
    have hnone : g.upload = none := h.upload_eq_none fun huploading => hidle huploading.1
    constructor
    · intro t ht
      cases hnone.symm.trans ht
    · intro huploading _
      refine ⟨rfl, ?_⟩
      rcases hqueue : g.queue.toList with _ | ⟨first, rest⟩
      · cases (WordQueue.opcode?_of_nil hqueue).symm.trans hopcode
      · rw [WordQueue.opcode?_of_toList hqueue] at hopcode
        cases hopcode
        exact ⟨first, rest, rfl, huploading.2⟩
    · exact h.readback

/-- A word that is queued. -/
theorem CursorsFit.push (h : g.CursorsFit) (word : UInt32) :
    ({ g with queue := g.queue.push word } : Graphics).CursorsFit where
  upload := h.upload
  header huploading hnone := by
    obtain ⟨hremaining, first, rest, hqueue, hfirst⟩ := h.header huploading hnone
    obtain ⟨more, hmore⟩ := WordQueue.toList_push_of_cons hqueue word
    exact ⟨hremaining, first, more, hmore, hfirst⟩
  readback := h.readback

/-- The header of an upload makes its cursor, and each of its words moves it on by two
pixels or ends the upload. -/
theorem CursorsFit.stepUpload (h : g.CursorsFit) (huploading : g.Uploading) :
    g.stepUpload.CursorsFit := by
  unfold Graphics.stepUpload
  split
  · split
    · rename_i position size queue _
      refine ⟨?_, (fun _ hnone => nomatch hnone), h.readback⟩
      rintro t ⟨⟩
      exact ⟨huploading, 0, Transfer.behind_zero position size, rfl⟩
    · exact h
  · rename_i hremaining
    split
    · rename_i word queue t _ ht
      obtain ⟨-, count, ⟨position, size, rfl, hcount⟩, hcounter⟩ := h.upload t ht
      have hwords : ((Transfer.ofWords position size).after (2 * count)).wordCount =
          (Transfer.ofWords position size).wordCount := rfl
      obtain ⟨-, hnext⟩ := uploadPixels_after g.vram (Transfer.ofWords_width_pos position size)
        hcount word
      dsimp only
      split
      · exact cursorsFit_of_idle nofun rfl h.readback
      · rename_i hmore
        have hless : count + 1 < (Transfer.ofWords position size).wordCount := by omega
        refine ⟨?_, (fun _ hnone => nomatch hnone), h.readback⟩
        rintro t ⟨⟩
        rw [hnext hless]
        refine ⟨huploading, count + 1, ⟨position, size, rfl, hless⟩, ?_⟩
        change g.progress.remaining - 1 = (Transfer.ofWords position size).wordCount - (count + 1)
        omega
    · rename_i hnone
      exact absurd (h.header huploading hnone).1 hremaining
    · exact h

/-- **One round.** -/
theorem CursorsFit.step (h : g.CursorsFit) (hbusy : g.progress.inProgress = true) :
    g.step.CursorsFit := by
  by_cases hcommand : Command.ofOpcode g.progress.opcode = .upload
  · have huploading : g.Uploading := ⟨hbusy, (ofOpcode_eq_iff _).1.mp hcommand⟩
    have hstep : g.step = g.stepUpload := by
      unfold Graphics.step
      rw [hcommand]
    rw [hstep]
    exact h.stepUpload huploading
  · obtain ⟨hupload, hopcode, hreadback⟩ := step_keeps hcommand
    have hother : g.progress.opcode ≠ 0xA0 := fun hopcode =>
      hcommand ((ofOpcode_eq_iff _).1.mpr hopcode)
    refine cursorsFit_of_idle (fun hstill => hother (hopcode.symm.trans hstill.2))
      (hupload.trans (h.upload_eq_none fun huploading => hother huploading.2)) fun t ht => ?_
    rcases hreadback with hsame | ⟨position, size, hnew⟩
    · exact h.readback t (hsame.symm.trans ht)
    · obtain rfl := Option.some.inj (hnew.symm.trans ht)
      exact ⟨0, Transfer.behind_zero position size⟩

/-! ## All rounds -/

/-- The units in which a round starts while the queue is carried out. -/
def rounds (g : Graphics) : List Graphics :=
  match g.begin? with
  | none => []
  | some begun =>
    let after := begun.step
    if after.queue.count < g.queue.count then begun :: after.rounds else [begun]
  termination_by g.queue.count

/-- What the last round leaves is what `run` leaves. -/
theorem run_eq_getLast? (g : Graphics) : g.run = (g.rounds.getLast?.map step).getD g := by
  induction hcount : g.queue.count using Nat.strongRecOn generalizing g with
  | ind count ih =>
      rw [run, rounds]
      cases hbegin : g.begin? with
      | none => rfl
      | some begun =>
          dsimp only
          by_cases hless : begun.step.queue.count < g.queue.count
          · rw [if_pos hless, if_pos hless, ih _ (hcount ▸ hless) begun.step rfl]
            rcases begun.step.rounds with _ | ⟨next, later⟩ <;> rfl
          · rw [if_neg hless, if_neg hless]
            rfl

/-- **Carrying out the queue** keeps the cursors fit, round by round. -/
theorem CursorsFit.run (h : g.CursorsFit) :
    g.run.CursorsFit ∧
      ∀ round ∈ g.rounds, round.CursorsFit ∧ round.progress.inProgress = true := by
  induction hcount : g.queue.count using Nat.strongRecOn generalizing g with
  | ind count ih =>
      rw [Graphics.run, rounds]
      cases hbegin : g.begin? with
      | none => exact ⟨h, List.forall_mem_nil _⟩
      | some begun =>
          have hbegun := h.begin? hbegin
          have hbusy := (begin?_eq_some hbegin).1
          have hafter := hbegun.step hbusy
          dsimp only
          by_cases hless : begun.step.queue.count < g.queue.count
          · obtain ⟨hrun, hrounds⟩ := ih _ (hcount ▸ hless) hafter rfl
            rw [if_pos hless, if_pos hless]
            refine ⟨hrun, fun round hmem => ?_⟩
            rcases List.mem_cons.mp hmem with rfl | hmem
            · exact ⟨hbegun, hbusy⟩
            · exact hrounds round hmem
          · rw [if_neg hless, if_neg hless]
            refine ⟨hafter, fun round hmem => ?_⟩
            obtain rfl := List.mem_singleton.mp hmem
            exact ⟨hbegun, hbusy⟩

/-! ## Operations from outside -/

/-- A word that takes effect at once does not touch the cursors. -/
theorem CursorsFit.immediate? (h : g.CursorsFit) {word : UInt32} {after : Graphics}
    (himmediate : g.immediate? word = some after) : after.CursorsFit := by
  rcases cases_of_immediate? himmediate with ⟨-, rfl⟩ | ⟨-, rfl⟩
  · exact h.congr (applySetting_sameCommand g word).1 (applySetting_keeps g word).2.1
  · exact h

/-- A reset makes no rectangle readable, and no other control word changes which one is. -/
theorem readback_control (g : Graphics) (word : UInt32) :
    (g.control word).readback = none ∨ (g.control word).readback = g.readback := by
  unfold control
  split
  case h_1 => exact .inl rfl
  case h_10 => split <;> exact .inr rfl
  all_goals exact .inr rfl

/-- A control word leaves them alone or, as a reset, clears them. -/
theorem CursorsFit.control (h : g.CursorsFit) (word : UInt32) : (g.control word).CursorsFit := by
  have hreadback (t : Transfer) (ht : (g.control word).readback = some t) :
      ∃ count, t.Behind count := by
    rcases readback_control g word with hnone | hsame
    · cases hnone.symm.trans ht
    · exact h.readback t (hsame.symm.trans ht)
  rcases control_cases g word with ⟨-, -, hprogress, hupload, -⟩ | ⟨-, hsame⟩
  · refine cursorsFit_of_idle (fun huploading => ?_) hupload hreadback
    rw [Uploading, hprogress] at huploading
    cases huploading.1
  · obtain ⟨hqueue, hprogress, hupload, -⟩ := hsame
    refine ⟨?_, ?_, hreadback⟩
    · rw [hupload, Uploading, hprogress]
      exact h.upload
    · rw [hupload, hqueue, Uploading, hprogress]
      exact h.header

/-- A read moves the cursor of the readable rectangle on by two pixels, or ends it. -/
theorem readback_readDrawing {t : Transfer} {count : Nat} (ht : g.readback = some t)
    (hbehind : t.Behind count) :
    ∀ after, g.readDrawing.2.readback = some after → after.Behind (count + 1) := by
  obtain ⟨position, size, rfl, hcount⟩ := hbehind
  have hpos := Transfer.ofWords_width_pos position size
  have hfirst := (Transfer.lt_pixelCount hcount).1
  unfold readDrawing
  rw [ht]
  dsimp only
  rw [nextPixel_after _ hpos, if_pos hfirst]
  dsimp only
  rw [nextPixel_after _ hpos]
  by_cases hsecond : 2 * count + 1 < (Transfer.ofWords position size).pixelCount
  · rw [if_pos hsecond]
    dsimp only
    rw [Transfer.isDone_after hpos]
    intro after hafter
    split at hafter
    · cases hafter
    · rename_i hmore
      cases hafter
      refine ⟨position, size, rfl, ?_⟩
      rw [decide_eq_true_eq] at hmore
      rw [Transfer.wordCount]
      omega
  · rw [if_neg hsecond]
    dsimp only
    rw [Transfer.isDone_after hpos, if_pos (by rw [decide_eq_true_eq]; omega)]
    rintro _ ⟨⟩

/-- After a load the cursors fit: that of a readback has moved by one word, or is gone. -/
theorem CursorsFit.read (h : g.CursorsFit) (offset : UInt32) :
    (g.read offset).2.CursorsFit := by
  obtain ⟨hqueue, hprogress, hupload, -⟩ := read_sameCommand g offset
  refine ⟨?_, ?_, ?_⟩
  · rw [hupload, Uploading, hprogress]
    exact h.upload
  · rw [hupload, hqueue, Uploading, hprogress]
    exact h.header
  · intro t ht
    unfold Graphics.read at ht
    split at ht
    · rcases hreadback : g.readback with _ | before
      · rw [readDrawing, hreadback] at ht
        cases hreadback.symm.trans ht
      · obtain ⟨count, hbehind⟩ := h.readback before hreadback
        exact ⟨count + 1, readback_readDrawing hreadback hbehind t ht⟩
    · exact h.readback t ht

/-- The units in which a round starts after a word of the drawing port has been written.  A
word that takes effect at once starts none. -/
def roundsOfDrawing (g : Graphics) (word : UInt32) : List Graphics :=
  let immediate := if g.progress.inProgress then none else g.immediate? word
  match immediate with
  | some _ => []
  | none => rounds { g with queue := g.queue.push word }

/-- The same for a write at an offset from the first port. -/
def roundsOfWrite (g : Graphics) (offset word : UInt32) : List Graphics :=
  if offset &&& 4 = 0 then g.roundsOfDrawing word else (g.control word).rounds

/-- The units in which a round starts in the course of an operation. -/
def roundsOf (g : Graphics) : Operation → List Graphics
  | .write offset word => g.roundsOfWrite offset word
  | .dmaWrite _ word => g.roundsOfWrite 0 word
  | _ => []

/-- What a word for the drawing port leaves is what the last round leaves. -/
theorem writeDrawing_of_getLast? {word : UInt32} {last : Graphics}
    (hlast : (g.roundsOfDrawing word).getLast? = some last) : g.writeDrawing word = last.step := by
  have hqueued (hrounds : (rounds { g with queue := g.queue.push word }).getLast? = some last) :
      run { g with queue := g.queue.push word } = last.step := by
    rw [run_eq_getLast?, hrounds]
    rfl
  unfold roundsOfDrawing at hlast
  unfold writeDrawing
  by_cases hbusy : g.progress.inProgress
  · rw [if_pos hbusy] at hlast
    rw [if_pos hbusy]
    exact hqueued hlast
  · rw [if_neg hbusy] at hlast
    rw [if_neg hbusy]
    cases himmediate : g.immediate? word with
    | none =>
        rw [himmediate] at hlast
        exact hqueued hlast
    | some after =>
        rw [himmediate] at hlast
        cases hlast

/-- The same of a store to either port. -/
theorem write_of_getLast? {offset word : UInt32} {last : Graphics}
    (hlast : (g.roundsOfWrite offset word).getLast? = some last) :
    g.write offset word = last.step := by
  unfold roundsOfWrite at hlast
  unfold write
  split at hlast
  · rename_i hport
    rw [if_pos hport]
    exact writeDrawing_of_getLast? hlast
  · rename_i hport
    rw [if_neg hport, writeControl, run_eq_getLast?, hlast]
    rfl

/-- The last round that an operation starts leaves what the operation leaves. -/
theorem perform_of_getLast? {operation : Operation} {last : Graphics}
    (hlast : (g.roundsOf operation).getLast? = some last) :
    (g.perform operation).2 = last.step := by
  cases operation with
  | write offset word => exact write_of_getLast? hlast
  | dmaWrite clock word => exact write_of_getLast? hlast
  | _ => cases hlast

/-- A word for the drawing port keeps the cursors fitting, and they fit before each round of the
dispatcher. -/
theorem CursorsFit.writeDrawing (h : g.CursorsFit) (word : UInt32) :
    (g.writeDrawing word).CursorsFit ∧
      ∀ round ∈ g.roundsOfDrawing word, round.CursorsFit ∧ round.progress.inProgress = true := by
  have hqueued := (h.push word).run
  unfold Graphics.writeDrawing roundsOfDrawing
  by_cases hbusy : g.progress.inProgress
  · rw [if_pos hbusy]
    exact hqueued
  · rw [if_neg hbusy]
    cases himmediate : g.immediate? word with
    | none => exact hqueued
    | some after => exact ⟨h.immediate? himmediate, List.forall_mem_nil _⟩

theorem CursorsFit.write (h : g.CursorsFit) (offset word : UInt32) :
    (g.write offset word).CursorsFit ∧
      ∀ round ∈ g.roundsOfWrite offset word,
        round.CursorsFit ∧ round.progress.inProgress = true := by
  unfold Graphics.write roundsOfWrite
  split
  · exact h.writeDrawing word
  · exact (h.control word).run

/-- **One operation** keeps the cursors fit, and so does each round in the course of it. -/
theorem CursorsFit.perform (h : g.CursorsFit) (operation : Operation) :
    (g.perform operation).2.CursorsFit ∧
      ∀ round ∈ g.roundsOf operation, round.CursorsFit ∧ round.progress.inProgress = true := by
  cases operation with
  | write offset word => exact h.write offset word
  | dmaWrite clock word => exact h.write 0 word
  | read offset => exact ⟨h.read offset, List.forall_mem_nil _⟩
  | dmaRead clock => exact ⟨h.read 0, List.forall_mem_nil _⟩
  | writePixel x y pixel => exact ⟨⟨h.upload, h.header, h.readback⟩, List.forall_mem_nil _⟩
  | readPixel x y => exact ⟨h, List.forall_mem_nil _⟩
  | writeRect x y width height pixels =>
      refine ⟨?_, List.forall_mem_nil _⟩
      dsimp only [Graphics.perform]
      split
      · rename_i after hwrite
        unfold writeRect at hwrite
        rcases hrect : g.vram.writeRect x y width height pixels with e | vram
        · rw [hrect] at hwrite
          cases hwrite
        · rw [hrect] at hwrite
          cases hwrite
          exact ⟨h.upload, h.header, h.readback⟩
      · exact h
  | reset => exact ⟨cursorsFit_of_idle nofun rfl nofun, List.forall_mem_nil _⟩

/-- **The cursors of a reachable unit fit.** -/
theorem Reachable.cursorsFit (h : Reachable policy g) : g.CursorsFit := by
  induction h with
  | initial => exact cursorsFit_of_idle nofun rfl nofun
  | perform operation h ih => exact (ih.perform operation).1

/-! ## What the handlers rely on -/

/-- What can be told of a unit by its cursors. -/
structure CursorLaw (g : Graphics) : Prop where
  /-- The cursor of an upload is there exactly while words of one are awaited. -/
  upload_iff : g.upload.isSome = true ↔ g.Uploading ∧ 0 < g.progress.remaining
  upload : ∀ t, g.upload = some t → t.BetweenWords ∧
    g.progress.remaining = (t.width * t.height - t.passed + 1) / 2
  readback : ∀ t, g.readback = some t → t.BetweenWords
  /-- An upload that awaits no words has not read its header, which lies at the head of the
  queue. -/
  header : g.Uploading → g.progress.remaining = 0 →
    ∃ first rest, g.queue.toList = first :: rest ∧ opcodeOf first = 0xA0

/-- **Where the cursors fit, the law of cursors holds.** -/
theorem CursorsFit.law (h : g.CursorsFit) : g.CursorLaw where
  upload_iff := by
    rcases hupload : g.upload with _ | t
    · refine iff_of_false Bool.false_ne_true ?_
      rintro ⟨huploading, hpos⟩
      rw [(h.header huploading hupload).1] at hpos
      exact Nat.lt_irrefl 0 hpos
    · obtain ⟨huploading, count, hbehind, hremaining⟩ := h.upload t hupload
      rw [hremaining]
      exact iff_of_true rfl ⟨huploading, hbehind.words_left.2⟩
  upload t ht := by
    obtain ⟨-, count, hbehind, hremaining⟩ := h.upload t ht
    rw [hremaining]
    exact ⟨hbehind.betweenWords, hbehind.words_left.1⟩
  readback t ht := by
    obtain ⟨count, hbehind⟩ := h.readback t ht
    exact hbehind.betweenWords
  header huploading hremaining := by
    refine (h.header huploading (Option.eq_none_iff_forall_ne_some.mpr fun t ht => ?_)).2
    obtain ⟨-, count, hbehind, hcounter⟩ := h.upload t ht
    have hleft := hbehind.words_left.2
    omega

/-- What the handler of uploads finds when it is called for a word: there is a cursor, and
the number of words that remain can be made smaller by one. -/
def HandlerReady (g : Graphics) : Prop :=
  Command.ofOpcode g.progress.opcode = .upload → g.progress.remaining ≠ 0 →
    ∃ t, g.upload = some t ∧ t.BetweenWords ∧
      g.progress.remaining - 1 + 1 = g.progress.remaining

/-- Under the law, the handler of the command in progress finds the cursor that it needs. -/
theorem CursorLaw.handlerReady (h : g.CursorLaw) (hbusy : g.progress.inProgress = true) :
    g.HandlerReady := by
  intro hcommand hremaining
  have huploading : g.Uploading := ⟨hbusy, (ofOpcode_eq_iff _).1.mp hcommand⟩
  obtain ⟨t, ht⟩ := Option.isSome_iff_exists.mp
    (h.upload_iff.mpr ⟨huploading, Nat.pos_of_ne_zero hremaining⟩)
  exact ⟨t, ht, (h.upload t ht).1, by omega⟩

/-- **Transfer cursors.**  In every reachable unit, under either policy, and wherever a round
starts in the course of an operation on it:

* an upload has a cursor exactly while it is in progress and awaits words; an even number
  of pixels lies in front of the cursor, and the words that remain are those that hold the
  pixels behind it, two to a word;
* a readable rectangle has such a cursor too, and no sum that is formed at a cursor leaves
  sixteen bits;
* an upload that awaits no words still has its header in the queue.

So the handler of uploads finds a cursor for each pixel word, and a counter above 0.  These
are all rounds: what the last one leaves is what the operation leaves. -/
theorem transfer_cursors (h : Reachable policy g) :
    g.CursorLaw ∧ ∀ operation,
      (∀ round ∈ g.roundsOf operation, round.CursorLaw ∧ round.HandlerReady) ∧
        ∀ last, (g.roundsOf operation).getLast? = some last →
          (g.perform operation).2 = last.step := by
  refine ⟨h.cursorsFit.law, fun operation => ⟨fun round hmem => ?_, fun _ => perform_of_getLast?⟩⟩
  obtain ⟨hfit, hbusy⟩ := (h.cursorsFit.perform operation).2 round hmem
  exact ⟨hfit.law, hfit.law.handlerReady hbusy⟩

/-- Once the header of an upload has been read, the cursor stands in front of the first
pixel. -/
theorem Awaits.cursor_of_header {first position size : UInt32} (hopcode : opcodeOf first = 0xA0)
    (h : Awaits g [first, position, size]) :
    g.upload = some (.ofWords position size) ∧
      g.progress.remaining = (Transfer.ofWords position size).wordCount := by
  have hupload := (ofOpcode_eq_iff _).1.mpr hopcode
  cases h with
  | queued _ _ _ short =>
      rw [hupload] at short
      exact absurd short (Nat.lt_irrefl 3)
  | uploading _ _ progress upload _ =>
      rw [progress, upload]
      exact ⟨congrArg some (Transfer.after_zero position size), rfl⟩
  | dropping _ command => cases hupload.symm.trans command
  | stalled _ command => cases hupload.symm.trans command

/-- A column of three pixels, at the last place of the store, waits for two words. -/
theorem transfer_cursors_of_column :
    let g := (initial .drop).performAll
      [.write 0 0xA0000000, .write 0 0x01FF03FF, .write 0 0x00030001]
    Reachable .drop g ∧ g.upload = some ⟨1023, 511, 1, 3, 0, 0⟩ ∧ g.progress.remaining = 2 ∧
      g.CursorLaw ∧ ∀ operation,
        (∀ round ∈ g.roundsOf operation, round.CursorLaw ∧ round.HandlerReady) ∧
          ∀ last, (g.roundsOf operation).getLast? = some last →
            (g.perform operation).2 = last.step := by
  intro g
  have hidle : Awaits (initial .drop) [] := .idle rfl rfl rfl
  have hawaits : Awaits g [0xA0000000, 0x01FF03FF, 0x00030001] :=
    (uploading_of_header hidle (by decide : opcodeOf 0xA0000000 = 0xA0) 0x01FF03FF 0x00030001).2
  obtain ⟨hcursor, hremaining⟩ := hawaits.cursor_of_header (by decide)
  have hreachable : Reachable .drop g := Reachable.initial.performAll _
  exact ⟨hreachable, hcursor.trans (by decide), hremaining.trans (by decide),
    transfer_cursors hreachable⟩

end Graphics
end PlayStation
