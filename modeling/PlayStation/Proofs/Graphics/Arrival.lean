import PlayStation.Proofs.Graphics.CommandInProgress

/-!
# One word arrives

When a word has been queued behind the pending ones, one step of the command in
progress does with it what the stream says (`Arrived`).  There is a lemma for
each way in which a command takes its words: all at once, pixel word by pixel
word, or only to drop them.
-/

namespace PlayStation

namespace Graphics

/-! ## What commands leave alone -/

/-- The unit with the drawing settings of another one. -/
def withSettings (g other : Graphics) : Graphics :=
  { g with
    status := other.status
    flip := other.flip
    window := other.window
    area := other.area
    offset := other.offset }

/-- A setting reads and changes the drawing settings only, whatever the rest of the unit
is. -/
theorem applySetting_withSettings (g other : Graphics) (word : UInt32) :
    (g.withSettings other).applySetting word = g.withSettings (other.applySetting word) := by
  unfold applySetting setDrawMode setWindow setTopLeft setBottomRight setOffset setMasks
  split <;> rfl

/-- Applying a setting changes the settings alone. -/
theorem applySetting_eq_withSettings (g : Graphics) (word : UInt32) :
    g.applySetting word = g.withSettings (g.applySetting word) :=
  applySetting_withSettings g g word

/-- A setting leaves the pixels alone, and what reads of the drawing port return. -/
theorem applySetting_keeps (g : Graphics) (word : UInt32) :
    (g.applySetting word).vram = g.vram ∧ (g.applySetting word).readback = g.readback ∧
      (g.applySetting word).latch = g.latch := by
  rw [applySetting_eq_withSettings]
  exact ⟨rfl, rfl, rfl⟩

/-- A setting leaves the command in progress alone, and does not look at it. -/
theorem applySetting_sameCommand (g : Graphics) (word : UInt32) :
    SameCommand g (g.applySetting word) ∧
      (g.applySetting word).atRest = g.atRest.applySetting word := by
  have hrest := applySetting_withSettings g.atRest g word
  rw [applySetting_eq_withSettings g word]
  exact ⟨⟨rfl, rfl, rfl, rfl⟩, hrest.symm⟩

/-- Drawing a polygon leaves the command in progress, and does not look at it. -/
theorem drawPolygon_sameCommand (g : Graphics) (form : PolygonForm) (words : List UInt32) :
    SameCommand g (g.drawPolygon form words) ∧
      (g.drawPolygon form words).atRest = g.atRest.drawPolygon form words := by
  unfold drawPolygon paintFor
  cases form.textured <;> exact ⟨⟨rfl, rfl, rfl, rfl⟩, rfl⟩

/-- Discarding a command touches neither its opcode nor a transfer. -/
theorem discard_keeps (length : CommandLength) (count : Nat) (g : Graphics) :
    (g.discard length count).upload = g.upload ∧
      (g.discard length count).progress.opcode = g.progress.opcode ∧
      (g.discard length count).readback = g.readback := by
  induction count generalizing g with
  | zero => exact ⟨rfl, rfl, rfl⟩
  | succ count ih =>
      unfold discard
      split
      · dsimp only
        split
        · exact ⟨rfl, rfl, rfl⟩
        · exact ih _
      · exact ⟨rfl, rfl, rfl⟩

/-- Another command than an upload keeps the cursor of an upload and its opcode, and makes
at most a new rectangle readable. -/
theorem step_keeps {g : Graphics} (hnot : Command.ofOpcode g.progress.opcode ≠ .upload) :
    g.step.upload = g.upload ∧ g.step.progress.opcode = g.progress.opcode ∧
      (g.step.readback = g.readback ∨
        ∃ position size, g.step.readback = some (.ofWords position size)) := by
  unfold Graphics.step
  cases hcommand : Command.ofOpcode g.progress.opcode with
  | clearQueue => exact ⟨rfl, rfl, .inl rfl⟩
  | polygon form =>
      dsimp only
      split
      · rename_i words queue _
        obtain ⟨hsame, hrest⟩ := drawPolygon_sameCommand { g with queue } form words
        have hreadback : (drawPolygon { g with queue } form words).readback = g.readback := by
          unfold drawPolygon
          cases form.textured <;> rfl
        have hopcode := congrArg Progress.opcode hsame.progress
        exact ⟨hsame.upload, hopcode, .inl hreadback⟩
      · exact ⟨rfl, rfl, .inl rfl⟩
  | upload => exact absurd hcommand hnot
  | download =>
      dsimp only
      unfold startDownload
      split
      · rename_i position size queue _
        exact ⟨rfl, rfl, .inr ⟨position, size, rfl⟩⟩
      · exact ⟨rfl, rfl, .inl rfl⟩
  | setting =>
      dsimp only
      split
      · rename_i word queue _
        have hsame := (applySetting_sameCommand { g with queue } word).1
        have hreadback := (applySetting_keeps { g with queue } word).2.1
        have hopcode := congrArg Progress.opcode hsame.progress
        exact ⟨hsame.upload, hopcode, .inl hreadback⟩
      · exact ⟨rfl, rfl, .inl rfl⟩
  | noOperation =>
      dsimp only
      split <;> exact ⟨rfl, rfl, .inl rfl⟩
  | unhandled =>
      dsimp only
      split
      · obtain ⟨hupload, hopcode, hreadback⟩ := discard_keeps (.ofOpcode g.progress.opcode)
          g.queue.count g
        exact ⟨hupload, hopcode, .inl hreadback⟩
      · exact ⟨rfl, rfl, .inl rfl⟩

/-- A round keeps the opcode, also when it ends the command. -/
theorem opcode_step (g : Graphics) : g.step.progress.opcode = g.progress.opcode := by
  by_cases hupload : Command.ofOpcode g.progress.opcode = .upload
  · unfold step
    rw [hupload]
    dsimp only
    unfold stepUpload
    split
    · split <;> rfl
    · split
      · dsimp only
        split <;> rfl
      · rfl
      · rfl
  · exact (step_keeps hupload).2.1

/-! ## One word arrives -/

/-- What a word that follows the pending ones does to the drawing unit: its effect
is that of the stream, and the unit awaits what the stream has pending. -/
structure Arrived (g after : Graphics) (pending : List UInt32) (word : UInt32) : Prop where
  unit : after.atRest = g.atRest.arrive pending word
  policy : after.unhandledCommand = g.unhandledCommand
  awaits : Awaits after
    (if isComplete (pending ++ [word]) then [] else pending ++ [word])

/-- A unit that has begun a command, all of whose words are in the queue. -/
structure Loaded (g : Graphics) (first : UInt32) (arguments : List UInt32) : Prop where
  queue : g.queue.toList = first :: arguments
  progress : g.progress = { inProgress := true, opcode := opcodeOf first }
  upload : g.upload = none

variable {g after : Graphics} {pending arguments : List UInt32} {word first : UInt32}
  {command : Command} {length : CommandLength}

/-- A command that is carried out as a whole waits for its last word. -/
theorem arrive_of_length? (hwords : pending ++ [word] = first :: arguments)
    (hcommand : Command.ofOpcode (opcodeOf first) = command)
    (hlength : command.length? = some length) :
    g.arrive pending word =
      if length.reachedBy (first :: arguments) then g.carryOut (first :: arguments) command
      else g := by
  have hcomplete : isComplete (first :: arguments) = length.reachedBy (first :: arguments) :=
    isComplete_of_lengthOf? (lengthOf?_of_length? hcommand hlength arguments)
  unfold arrive
  dsimp only
  rw [hwords, hcomplete, List.headD_cons, hcommand]
  cases command with
  | upload => cases hlength
  | _ => rfl

/-- The word that completes a command has arrived when the command has been carried out and no
word of it is left. -/
theorem Arrived.of_carriedOut (hwords : pending ++ [word] = first :: arguments)
    (hcommand : Command.ofOpcode (opcodeOf first) = command)
    (hlength : command.length? = some length)
    (hreached : length.reachedBy (first :: arguments) = true)
    (unit : after.atRest = g.atRest.carryOut (first :: arguments) command)
    (policy : after.unhandledCommand = g.unhandledCommand) (idle : Awaits after []) :
    Arrived g after pending word := by
  have hcomplete : isComplete (pending ++ [word]) = true := by
    rw [hwords, isComplete_of_lengthOf? (lengthOf?_of_length? hcommand hlength arguments)]
    exact hreached
  refine ⟨?_, policy, ?_⟩
  · rw [arrive_of_length? hwords hcommand hlength, if_pos hreached]
    exact unit
  · rw [if_pos hcomplete]
    exact idle

/-- The words of a command that takes all of them at once. -/
theorem Loaded.dequeue? (h : Loaded g first arguments) {n : Nat} (hn : arguments.length + 1 = n) :
    ∃ q', g.queue.dequeue? n = some (first :: arguments, q') ∧ q'.toList = [] := by
  subst hn
  exact WordQueue.dequeue?_all h.queue

/-- The opcode in progress is that of the first word in the queue. -/
theorem Loaded.opcode (h : Loaded g first arguments) : g.progress.opcode = opcodeOf first := by
  rw [h.progress]

/-- The last word of a polygon has arrived after one step. -/
theorem arrived_polygon {form : PolygonForm} (h : Loaded g first arguments)
    (hwords : pending ++ [word] = first :: arguments)
    (hcommand : Command.ofOpcode (opcodeOf first) = .polygon form)
    (hlength : arguments.length + 1 = form.words) : Arrived g g.step pending word := by
  obtain ⟨q', htake, hempty⟩ := h.dequeue? hlength
  obtain ⟨hsame, hrest⟩ := drawPolygon_sameCommand { g with queue := q' } form (first :: arguments)
  have hstep : g.step =
      (drawPolygon { g with queue := q' } form (first :: arguments)).complete := by
    rw [step, h.opcode, hcommand]
    dsimp only
    rw [htake]
  rw [hstep]
  refine .of_carriedOut hwords hcommand rfl ?_ hrest hsame.policy ?_
  · rw [CommandLength.reachedBy, decide_eq_true_eq, ← hlength]
    exact Nat.le_refl _
  · exact .idle (hsame.queue ▸ hempty) rfl (hsame.upload.trans h.upload)

theorem arrived_download (h : Loaded g first arguments)
    (hwords : pending ++ [word] = first :: arguments)
    (hcommand : Command.ofOpcode (opcodeOf first) = .download)
    (hlength : arguments.length + 1 = 3) : Arrived g g.step pending word := by
  obtain ⟨q', htake, hempty⟩ := h.dequeue? hlength
  obtain _ | ⟨position, _ | ⟨size, _ | ⟨extra, rest⟩⟩⟩ := arguments
  · cases hlength
  · cases hlength
  · have hstep : g.step =
        { g with
          queue := q'
          readback := some (.ofWords position size)
          progress := g.progress.complete } := by
      rw [step, h.opcode, hcommand]
      dsimp only
      rw [startDownload, htake]
    rw [hstep]
    exact .of_carriedOut hwords hcommand rfl rfl rfl rfl (.idle hempty rfl h.upload)
  · simp at hlength

theorem arrived_setting (h : Loaded g first [])
    (hwords : pending ++ [word] = [first])
    (hcommand : Command.ofOpcode (opcodeOf first) = .setting) : Arrived g g.step pending word := by
  obtain ⟨q', htake, hempty⟩ := h.dequeue? (n := 1) rfl
  obtain ⟨hsame, hrest⟩ := applySetting_sameCommand { g with queue := q' } first
  have hstep : g.step = (applySetting { g with queue := q' } first).complete := by
    rw [step, h.opcode, hcommand]
    dsimp only
    rw [htake]
  rw [hstep]
  exact .of_carriedOut hwords hcommand rfl rfl hrest hsame.policy
    (.idle (hsame.queue ▸ hempty) rfl (hsame.upload.trans h.upload))

/-- The word of a command that does nothing has arrived after one step. -/
theorem arrived_noOperation (h : Loaded g first [])
    (hwords : pending ++ [word] = [first])
    (hcommand : Command.ofOpcode (opcodeOf first) = .noOperation) :
    Arrived g g.step pending word := by
  obtain ⟨q', htake, hempty⟩ := h.dequeue? (n := 1) rfl
  have hstep : g.step = { g with queue := q', progress := g.progress.complete } := by
    rw [step, h.opcode, hcommand]
    dsimp only
    rw [htake]
  rw [hstep]
  exact .of_carriedOut hwords hcommand rfl rfl rfl rfl (.idle hempty rfl h.upload)

theorem arrived_clearQueue (h : Loaded g first [])
    (hwords : pending ++ [word] = [first])
    (hcommand : Command.ofOpcode (opcodeOf first) = .clearQueue) :
    Arrived g g.step pending word := by
  have hstep : g.step = { g with queue := g.queue.clear, progress := g.progress.complete } := by
    rw [step, h.opcode, hcommand]
  rw [hstep]
  exact .of_carriedOut hwords hcommand rfl rfl rfl rfl
    (.idle (WordQueue.toList_clear _) rfl h.upload)

/-- The third word of an upload names the rectangle. -/
theorem arrived_uploadSize {position size : UInt32} (h : Loaded g first [position, size])
    (hwords : pending ++ [word] = [first, position, size])
    (hcommand : Command.ofOpcode (opcodeOf first) = .upload) : Arrived g g.step pending word := by
  have hopcode : opcodeOf first = 0xA0 := (ofOpcode_eq_iff _).1.mp hcommand
  obtain ⟨rfl, rfl⟩ : pending = [first, position] ∧ word = size := by
    have hsplit : pending ++ [word] = [first, position] ++ [size] := hwords
    obtain ⟨hinit, hlast⟩ := List.append_inj' hsplit rfl
    exact ⟨hinit, List.head_eq_of_cons_eq hlast⟩
  obtain ⟨q', htake, hempty⟩ := h.dequeue? (n := 3) rfl
  have hremaining : g.progress.remaining = 0 := by rw [h.progress]
  have hstep : g.step =
      { g with
        queue := q'
        progress := { g.progress with remaining := (Transfer.ofWords position word).wordCount }
        upload := some (Transfer.ofWords position word) } := by
    rw [step, h.opcode, hcommand]
    dsimp only
    rw [stepUpload, if_pos hremaining, htake]
  have hpositive := Transfer.ofWords_wordCount_pos position word
  have hincomplete : isComplete [first, position, word] = false := by
    rw [isComplete_of_lengthOf? (lengthOf?_of_upload hopcode []), CommandLength.reachedBy,
      decide_eq_false_iff_not]
    simp only [List.length_cons, List.length_nil]
    omega
  rw [hstep]
  refine ⟨?_, rfl, ?_⟩
  · simp only [arrive, List.cons_append, List.nil_append, List.headD_cons, hcommand]
    rfl
  · rw [hwords, hincomplete]
    refine .uploading hopcode hempty ?_ ?_ hpositive
    · rw [h.progress]
      rfl
    · rw [List.length_nil, Nat.mul_zero, Transfer.after_zero]

/-- Copying a queued pixel word ends the upload when it was the last one. -/
theorem step_of_pixels {t : Transfer} (hcommand : Command.ofOpcode g.progress.opcode = .upload)
    (queue : g.queue.toList = [word]) (upload : g.upload = some t)
    (hbusy : g.progress.remaining ≠ 0) :
    ∃ q', q'.toList = [] ∧ g.step =
      if g.progress.remaining - 1 = 0 then
        { g with
          vram := (uploadPixels g.vram t (pixelsOf word)).1
          queue := q'
          upload := none
          progress := g.progress.complete }
      else
        { g with
          vram := (uploadPixels g.vram t (pixelsOf word)).1
          queue := q'
          upload := some (uploadPixels g.vram t (pixelsOf word)).2
          progress := { g.progress with remaining := g.progress.remaining - 1 } } := by
  obtain ⟨q', htake, hempty⟩ := WordQueue.dequeue?_all queue
  rw [List.length_singleton] at htake
  refine ⟨q', hempty, ?_⟩
  rw [step, hcommand]
  dsimp only
  rw [stepUpload, if_neg hbusy, htake, upload]

/-- An upload is complete with the last of its pixel words. -/
theorem isComplete_of_pixels {position size : UInt32} {data : List UInt32}
    (hopcode : opcodeOf first = 0xA0) :
    isComplete (first :: position :: size :: data ++ [word]) =
      decide ((Transfer.ofWords position size).wordCount ≤ data.length + 1) := by
  rw [List.cons_append, List.cons_append, List.cons_append,
    isComplete_of_lengthOf? (lengthOf?_of_upload hopcode _), CommandLength.reachedBy,
    decide_eq_decide]
  simp only [List.length_cons, List.length_append, List.length_nil]
  omega

/-- The effect of a pixel word. -/
theorem arrive_pixels (hopcode : opcodeOf first = 0xA0) (g : Graphics) (position size : UInt32)
    (data : List UInt32) (word : UInt32) :
    g.arrive (first :: position :: size :: data) word =
      g.putData (.ofWords position size) data.length word := by
  have hcommand : Command.ofOpcode (opcodeOf first) = .upload := (ofOpcode_eq_iff _).1.mpr hopcode
  simp only [arrive, List.cons_append, List.headD_cons, hcommand]

/-- A pixel word of an upload is put where it belongs. -/
theorem arrived_pixels {position size : UInt32} {data : List UInt32}
    (hopcode : opcodeOf first = 0xA0) (queue : g.queue.toList = [word])
    (progress : g.progress =
      { inProgress := true
        opcode := opcodeOf first
        remaining := (Transfer.ofWords position size).wordCount - data.length })
    (upload : g.upload = some ((Transfer.ofWords position size).after (2 * data.length)))
    (short : data.length < (Transfer.ofWords position size).wordCount) :
    Arrived g g.step (first :: position :: size :: data) word := by
  have hcommand : Command.ofOpcode (opcodeOf first) = .upload := (ofOpcode_eq_iff _).1.mpr hopcode
  have hknown : g.progress.opcode = opcodeOf first := by rw [progress]
  have hremaining : g.progress.remaining =
      (Transfer.ofWords position size).wordCount - data.length := by rw [progress]
  have hbusy : g.progress.remaining ≠ 0 := by omega
  obtain ⟨hput, hcursor⟩ := uploadPixels_after g.vram
    (Transfer.ofWords_width_pos position size) short word
  obtain ⟨q', hempty, hstep⟩ := step_of_pixels (hknown ▸ hcommand) queue upload hbusy
  have harrive := arrive_pixels hopcode g.atRest position size data word
  rw [hstep, hput]
  by_cases hlast : g.progress.remaining - 1 = 0
  · rw [if_pos hlast]
    refine ⟨harrive.symm, rfl, ?_⟩
    rw [isComplete_of_pixels hopcode, if_pos (by rw [decide_eq_true_eq]; omega)]
    exact .idle hempty rfl rfl
  · have hmore : data.length + 1 < (Transfer.ofWords position size).wordCount := by omega
    have hlength : (data ++ [word]).length = data.length + 1 := by simp
    rw [if_neg hlast, hcursor hmore]
    refine ⟨harrive.symm, rfl, ?_⟩
    rw [isComplete_of_pixels hopcode, if_neg (by rw [decide_eq_true_eq]; omega)]
    change Awaits _ (first :: position :: size :: (data ++ [word]))
    refine .uploading hopcode hempty ?_ ?_ ?_
    · rw [hlength, progress]
      rfl
    · rw [hlength]
    · rw [hlength]
      exact hmore

/-- Dropping a queued word ends the command when it was the last one. -/
theorem step_of_dropped (hcommand : Command.ofOpcode g.progress.opcode = .unhandled)
    (policy : g.unhandledCommand = .drop) (queue : g.queue.toList = [word]) :
    ∃ q', q'.toList = [] ∧ g.step =
      if (CommandLength.ofOpcode g.progress.opcode).endsAt (g.progress.consumed + 1) word then
        { g with queue := q', progress := g.progress.complete }
      else
        { g with
          queue := q'
          progress := { g.progress with consumed := g.progress.consumed + 1 } } := by
  obtain ⟨q', htake, hempty⟩ := WordQueue.dequeue?_all queue
  have hcount : g.queue.count = 1 := WordQueue.count_eq_length queue
  rw [List.length_singleton] at htake
  have hstep : g.step = g.discard (CommandLength.ofOpcode g.progress.opcode) 1 := by
    rw [step, hcommand]
    dsimp only
    rw [policy, hcount]
  refine ⟨q', hempty, ?_⟩
  rw [hstep, discard, htake]
  rfl

/-- A word of a dropped command leaves the queue, and ends the command if it is
the last one. -/
theorem arrived_dropped (hwords : pending ++ [word] = first :: arguments)
    (hcommand : Command.ofOpcode (opcodeOf first) = .unhandled)
    (queue : g.queue.toList = [word])
    (progress : g.progress =
      { inProgress := true, opcode := opcodeOf first, consumed := pending.length })
    (upload : g.upload = none) (policy : g.unhandledCommand = .drop)
    (short : pending = [] ∨
      (CommandLength.ofOpcode (opcodeOf first)).reachedBy pending = false) :
    Arrived g g.step pending word := by
  have hknown : g.progress.opcode = opcodeOf first := by rw [progress]
  have hconsumed : g.progress.consumed = pending.length := by rw [progress]
  have hlength : pending.length = arguments.length := by
    have hlengths := congrArg List.length hwords
    simpa using hlengths
  have hends : isComplete (pending ++ [word]) =
      (CommandLength.ofOpcode (opcodeOf first)).endsAt (pending.length + 1) word := by
    rw [← CommandLength.reachedBy_concat short, hwords]
    exact isComplete_of_lengthOf? (lengthOf?_of_unhandled hcommand arguments)
  have harrive : g.atRest.arrive pending word = g.atRest := by
    simp only [arrive, hwords, List.headD_cons, hcommand, carryOut, ite_self]
  obtain ⟨q', hempty, hstep⟩ := step_of_dropped (hknown ▸ hcommand) policy queue
  rw [hknown, hconsumed, ← hends] at hstep
  rw [hstep]
  by_cases hlast : isComplete (pending ++ [word])
  · rw [if_pos hlast]
    refine ⟨harrive.symm, rfl, ?_⟩
    rw [if_pos hlast]
    exact .idle hempty rfl upload
  · rw [if_neg hlast]
    refine ⟨harrive.symm, rfl, ?_⟩
    rw [if_neg hlast, hwords]
    refine .dropping policy hcommand hempty ?_ upload ?_
    · rw [progress, hlength]
    · rw [← hwords, CommandLength.reachedBy_concat short, ← hends]
      exact Bool.eq_false_iff.mpr hlast

/-- A command that lacks words waits for them. -/
theorem Loaded.arrived_of_short (h : Loaded g first arguments)
    (hwords : pending ++ [word] = first :: arguments)
    (hshort : arguments.length + 1 < (Command.ofOpcode (opcodeOf first)).takes) :
    Arrived g g.step pending word := by
  have hlength : pending.length = arguments.length := by
    have hlengths := congrArg List.length hwords
    simpa using hlengths
  have hunreached {command : Command} {count : Nat}
      (hcommand : Command.ofOpcode (opcodeOf first) = command)
      (hcount : command.length? = some (.fixed count)) (hlt : arguments.length + 1 < count) :
      g.atRest.arrive pending word = g.atRest ∧ isComplete (first :: arguments) = false := by
    have hreached : CommandLength.reachedBy (first :: arguments) (.fixed count) = false :=
      decide_eq_false (Nat.not_le.mpr hlt)
    rw [arrive_of_length? hwords hcommand hcount, hreached,
      isComplete_of_lengthOf? (lengthOf?_of_length? hcommand hcount arguments)]
    exact ⟨rfl, hreached⟩
  have hwaits : g.atRest.arrive pending word = g.atRest ∧
      isComplete (first :: arguments) = false := by
    cases hcommand : Command.ofOpcode (opcodeOf first) with
    | polygon form =>
        rw [hcommand] at hshort
        exact hunreached hcommand rfl hshort
    | download =>
        rw [hcommand] at hshort
        exact hunreached hcommand rfl hshort
    | upload =>
        rw [hcommand] at hshort
        have htwo : arguments.length < 2 := Nat.lt_of_succ_lt_succ hshort
        rw [isComplete, lengthOf?_of_short_upload ((ofOpcode_eq_iff _).1.mp hcommand) htwo]
        refine ⟨?_, rfl⟩
        simp only [arrive, hwords, List.headD_cons, hcommand]
        obtain _ | ⟨a, _ | ⟨b, _ | ⟨c, rest⟩⟩⟩ := pending
        · rfl
        · rfl
        · rfl
        · simp at hlength
          omega
    | _ =>
        -- The others take one word, and that one is there.
        rw [hcommand] at hshort
        simp [Command.takes] at hshort
  rw [step_of_short h.queue h.progress hshort]
  refine ⟨hwaits.1.symm, rfl, ?_⟩
  rw [hwords, hwaits.2]
  exact .queued h.queue h.progress h.upload hshort

/-- **A command whose words are all in the queue does what the stream says**, unless
it stalls. -/
theorem Loaded.arrived (h : Loaded g first arguments)
    (hpolicy : Command.ofOpcode (opcodeOf first) = .unhandled → g.unhandledCommand = .drop)
    (hwords : pending ++ [word] = first :: arguments)
    (hpending : pending = [] ∨ pending.length < (Command.ofOpcode (opcodeOf first)).takes) :
    Arrived g g.step pending word := by
  have hlength : pending.length = arguments.length := by
    have hlengths := congrArg List.length hwords
    simpa using hlengths
  have htakes : arguments.length + 1 ≤ (Command.ofOpcode (opcodeOf first)).takes := by
    rcases hpending with rfl | hpending
    · rw [← hlength, List.length_nil]
      exact Command.takes_pos _
    · omega
  rcases Nat.lt_or_eq_of_le htakes with hshort | hall
  · exact h.arrived_of_short hwords hshort
  · cases hcommand : Command.ofOpcode (opcodeOf first) with
    | polygon form =>
        rw [hcommand] at hall
        exact arrived_polygon h hwords hcommand hall
    | download =>
        rw [hcommand] at hall
        exact arrived_download h hwords hcommand hall
    | upload =>
        rw [hcommand] at hall
        obtain _ | ⟨position, _ | ⟨size, _ | ⟨extra, rest⟩⟩⟩ := arguments
        · cases hall
        · cases hall
        · exact arrived_uploadSize h hwords hcommand
        · simp [Command.takes] at hall
    | setting =>
        obtain rfl : arguments = [] := by simpa [hcommand, Command.takes] using hall
        exact arrived_setting h hwords hcommand
    | noOperation =>
        obtain rfl : arguments = [] := by simpa [hcommand, Command.takes] using hall
        exact arrived_noOperation h hwords hcommand
    | clearQueue =>
        obtain rfl : arguments = [] := by simpa [hcommand, Command.takes] using hall
        exact arrived_clearQueue h hwords hcommand
    | unhandled =>
        obtain rfl : arguments = [] := by simpa [hcommand, Command.takes] using hall
        obtain rfl : pending = [] := List.length_eq_zero_iff.mp hlength
        obtain rfl : word = first := List.head_eq_of_cons_eq hwords
        exact arrived_dropped hwords hcommand h.queue h.progress h.upload (hpolicy hcommand)
          (.inl rfl)

end Graphics
end PlayStation
