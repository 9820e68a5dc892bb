import PlayStation.Proofs.Graphics.StatusBits

/-!
# The settings that a drawing unit shows

The status word and the drawing settings are determined by the words that the settings
were given last (`Shows`), whatever else was written, read and drawn.  One order at a
time: `Shows.arrive` for the drawing port, `Shows.control` for the control port.

For the status word this means that every bit shows a bit of one such word, or never
changes (`statusBit`, `status_shows_latest`).
-/

namespace PlayStation

open Bits

/-- The bit of the status word that the words of the settings determine. -/
def statusBit (value : Setting → UInt32) (i : Nat) : Bool :=
  if i < 9 then bit (value .texturePage) i
  else if i < 11 then bit (value .drawMode) i
  else if i < 13 then bit (value .masks) (i - 11)
  else if i = 14 then bit (value .displayMode) 7
  else if i = 15 then bit (value .texturePage) 11
  else if i = 16 then bit (value .displayMode) 6
  else if 17 ≤ i ∧ i < 23 then bit (value .displayMode) (i - 17)
  else if i = 23 then bit (value .displayDisable) 0
  else if 29 ≤ i ∧ i < 31 then bit (value .dmaDirection) (i - 29)
  -- The bit that is always set and the readiness bits; the others stay clear.
  else i = 13 ∨ i = 26 ∨ i = 27 ∨ i = 28

namespace Graphics

/-- A drawing unit that shows the words that its settings were given. -/
structure Shows (g : Graphics) (value : Setting → UInt32) : Prop where
  status : ∀ i < 32, bit g.status i = statusBit value i
  window : g.window = .ofWord (value .textureWindow)
  topLeft : (g.area.left, g.area.top) = areaCoordinates (value .topLeft)
  bottomRight : (g.area.right, g.area.bottom) = areaCoordinates (value .bottomRight)
  offset : g.offset =
    ⟨(signExtend (value .offset) 11).toInt, (signExtend (value .offset >>> 11) 11).toInt⟩

variable {g h : Graphics} {value : Setting → UInt32}

/-- A new unit shows the initial settings. -/
theorem shows_initial (policy : UnhandledCommand) : Shows (.initial policy) Setting.initial := by
  cases policy <;> exact ⟨by decide, by decide, by decide, by decide, by decide⟩

/-- Units with the same settings show the same. -/
theorem Shows.congr (hg : Shows g value) (hstatus : h.status = g.status)
    (hwindow : h.window = g.window) (harea : h.area = g.area) (hoffset : h.offset = g.offset) :
    Shows h value where
  status := hstatus ▸ hg.status
  window := hwindow ▸ hg.window
  topLeft := harea ▸ hg.topLeft
  bottomRight := harea ▸ hg.bottomRight
  offset := hoffset ▸ hg.offset

/-- Orders that give settings of the status word only. -/
theorem Shows.withStatus (hg : Shows g value) {status : UInt32} {given : Setting → UInt32}
    (hkept : ∀ s ∈ [.textureWindow, .topLeft, .bottomRight, .offset], given s = value s)
    (hstatus : ∀ i < 32, bit status i = statusBit given i) : Shows { g with status } given := by
  refine ⟨hstatus, ?_, ?_, ?_, ?_⟩
  · rw [hkept .textureWindow (by decide)]
    exact hg.window
  · rw [hkept .topLeft (by decide)]
    exact hg.topLeft
  · rw [hkept .bottomRight (by decide)]
    exact hg.bottomRight
  · rw [hkept .offset (by decide)]
    exact hg.offset

/-! ## The drawing port -/

/-- What each setting command changes. -/
theorem applySetting_eq (g : Graphics) {word : UInt32}
    (h : Command.ofOpcode (opcodeOf word) = .setting) :
    (g.applySetting word).status =
        (if opcodeOf word = 0xE1 then GraphicsStatus.withDrawMode g.status word
        else if opcodeOf word = 0xE6 then GraphicsStatus.withMaskSettings g.status word
        else g.status) ∧
      (g.applySetting word).window =
        (if opcodeOf word = 0xE2 then .ofWord word else g.window) ∧
      ((g.applySetting word).area.left, (g.applySetting word).area.top) =
        (if opcodeOf word = 0xE3 then areaCoordinates word else (g.area.left, g.area.top)) ∧
      ((g.applySetting word).area.right, (g.applySetting word).area.bottom) =
        (if opcodeOf word = 0xE4 then areaCoordinates word else (g.area.right, g.area.bottom)) ∧
      (g.applySetting word).offset =
        (if opcodeOf word = 0xE5 then
          ⟨(signExtend word 11).toInt, (signExtend (word >>> 11) 11).toInt⟩
        else g.offset) := by
  unfold Graphics.applySetting setDrawMode setWindow setTopLeft setBottomRight setOffset setMasks
  rw [toNat_opcode]
  rcases opcode_of_setting _ h with hopcode | hopcode | hopcode | hopcode | hopcode | hopcode <;>
  simp [hopcode]

/-- A setting command gives its word to its settings. -/
theorem Shows.applySetting (hg : Shows g value) {first : UInt32}
    (hsetting : Command.ofOpcode (opcodeOf first) = .setting) (arguments : List UInt32) :
    Shows (g.applySetting first) ((Order.command (first :: arguments)).update value) := by
  have hgiven {s : Setting} {opcode : UInt8} (hsets : s.opcode? = some opcode) :
      (Order.command (first :: arguments)).update value s =
        if opcodeOf first = opcode then first else value s := by
    rw [Order.update_of_setting rfl hsetting, hsets]
    simp only [Option.some.injEq, eq_comm]
  have hkept {s : Setting} (hsets : s.opcode? = none) :
      (Order.command (first :: arguments)).update value s = value s := by
    rw [Order.update_of_setting rfl hsetting, hsets, if_neg nofun]
  obtain ⟨hstatus, hwindow, htopLeft, hbottomRight, hoffset⟩ := g.applySetting_eq hsetting
  refine ⟨fun i hi => ?_, ?_, ?_, ?_, ?_⟩
  · rw [hstatus, statusBit, hgiven (s := .texturePage) rfl, hgiven (s := .drawMode) rfl,
      hgiven (s := .masks) rfl, hkept (s := .displayMode) rfl, hkept (s := .displayDisable) rfl,
      hkept (s := .dmaDirection) rfl]
    have hbefore := hg.status i hi
    rw [statusBit] at hbefore
    by_cases hmode : opcodeOf first = 0xE1
    · rw [if_pos hmode, GraphicsStatus.bit_withDrawMode _ _ hi, hbefore]
      grind
    · by_cases hmasks : opcodeOf first = 0xE6
      · rw [if_neg hmode, if_pos hmasks, GraphicsStatus.bit_withMaskSettings _ _ hi, hbefore]
        grind
      · simp only [if_neg hmode, if_neg hmasks]
        exact hbefore
  · rw [hwindow, hgiven rfl, hg.window]
    split <;> rfl
  · rw [htopLeft, hgiven rfl, hg.topLeft]
    split <;> rfl
  · rw [hbottomRight, hgiven rfl, hg.bottomRight]
    split <;> rfl
  · rw [hoffset, hgiven rfl, hg.offset]
    split <;> rfl

/-- A polygon gives its texture page, if it has one. -/
theorem Shows.drawPolygon (hg : Shows g value) {form : PolygonForm} {words : List UInt32}
    (hpolygon : Command.ofOpcode (opcodeOf (words.headD 0)) = .polygon form) :
    Shows (g.drawPolygon form words) ((Order.command words).update value) := by
  have hupdate (s : Setting) : (Order.command words).update value s =
      if s = .texturePage ∧ form.textured then words.getD 4 0 >>> 16 else value s :=
    Order.update_of_polygon hpolygon s
  have hpaged : Shows
      (if form.textured then g.applyTexturePage (.ofWord (words.getD 4 0)) else g)
      ((Order.command words).update value) := by
    cases htextured : form.textured with
    | false =>
        have hsame : (Order.command words).update value = value := by
          funext setting
          rw [hupdate, htextured, if_neg (fun h => nomatch h.2)]
        rw [hsame]
        exact hg
    | true =>
        have hgiven : (Order.command words).update value .texturePage = words.getD 4 0 >>> 16 := by
          rw [hupdate, htextured]
          rfl
        have hkept (s : Setting) (hs : s ≠ .texturePage) :
            (Order.command words).update value s = value s := by
          rw [hupdate, if_neg (fun h => hs h.1)]
        refine hg.withStatus (fun s hs => hkept s fun h => ?_) fun i hi => ?_
        · subst h
          revert hs
          decide
        · have hbefore := hg.status i hi
          rw [statusBit] at hbefore
          rw [GraphicsStatus.bit_withTexturePage _ _ hi, hbefore, statusBit, hgiven,
            hkept .drawMode (by decide), hkept .masks (by decide), hkept .displayMode (by decide),
            hkept .displayDisable (by decide), hkept .dmaDirection (by decide), TexturePage.ofWord]
          grind
  exact hpaged.congr rfl rfl rfl rfl

/-- A word of the drawing port gives what the command gives that it completes. -/
theorem Shows.arrive (hg : Shows g value) (pending : List UInt32) (word : UInt32) :
    Shows (g.arrive pending word)
      (if isComplete (pending ++ [word]) then (Order.command (pending ++ [word])).update value
      else value) := by
  obtain ⟨first, arguments, hwords⟩ :
      ∃ first arguments, pending ++ [word] = first :: arguments := by
    cases pending with
    | nil => exact ⟨word, [], rfl⟩
    | cons first rest => exact ⟨first, rest ++ [word], rfl⟩
  unfold Graphics.arrive
  dsimp only
  rw [hwords, List.headD_cons]
  -- What a command does when it is complete, unless it is an upload.
  have hcarried {after : Graphics} (h : Shows after ((Order.command (first :: arguments)).update
      value)) : Shows (if isComplete (first :: arguments) then after else g)
        (if isComplete (first :: arguments) then (Order.command (first :: arguments)).update value
        else value) := by
    by_cases hcomplete : isComplete (first :: arguments) = true
    · rw [if_pos hcomplete, if_pos hcomplete]
      exact h
    · rw [if_neg hcomplete, if_neg hcomplete]
      exact hg
  have hother (h : Command.ofOpcode (opcodeOf first) ≠ .setting ∧
      ∀ form, Command.ofOpcode (opcodeOf first) ≠ .polygon form) :
      (Order.command (first :: arguments)).update value = value :=
    Order.update_of_other h.1 h.2
  cases hcommand : Command.ofOpcode (opcodeOf first) with
  | upload =>
      rw [hother ⟨by rw [hcommand]; exact nofun, by rw [hcommand]; exact nofun⟩, ite_self]
      dsimp only
      split
      · exact hg.congr rfl rfl rfl rfl
      · exact hg
  | polygon form => exact hcarried (hg.drawPolygon hcommand)
  | setting => exact hcarried (hg.applySetting hcommand arguments)
  | _ =>
      refine hcarried ?_
      rw [hother ⟨by rw [hcommand]; exact nofun, by rw [hcommand]; exact nofun⟩]
      exact hg.congr rfl rfl rfl rfl

/-! ## The control port -/

/-- A control word gives what its code says. -/
theorem Shows.control (hg : Shows g value) (word : UInt32) :
    Shows (g.control word) ((Order.control word).update value) := by
  have hdrawing {code : Nat} (hcode : (word >>> 24).toNat = code) (hreset : code ≠ 0) :
      ∀ s ∈ [.textureWindow, .topLeft, .bottomRight, .offset],
        (Order.control word).update value s = value s := by
    intro s hs
    have hnone : s.code? = none := by
      revert s
      decide
    rw [Order.update_of_control hcode hreset, hnone]
    rfl
  have hbefore := hg.status
  simp only [statusBit] at hbefore
  unfold Graphics.control
  split
  -- One case for each code of the table; codes that set nothing that is shown come last.
  case h_1 hcode =>
    rw [Order.update_of_reset hcode]
    exact (shows_initial .drop).congr rfl rfl rfl rfl
  case h_3 hcode =>
    rw [Order.update_of_control_other hcode (by decide) (by intro s; cases s <;> decide)]
    refine hg.withStatus (fun _ _ => rfl) fun i hi => ?_
    have hinterrupt : ∀ i < 32, bit GraphicsStatus.interrupt i = decide (i = 24) := by decide
    rw [bit_setFlag _ _ _ hi, hinterrupt i hi]
    by_cases hbit : i = 24
    · subst hbit
      rfl
    · rw [if_neg (by rwa [decide_eq_true_eq])]
      exact hg.status i hi
  case h_4 hcode =>
    refine hg.withStatus (hdrawing hcode (by decide)) fun i hi => ?_
    rw [GraphicsStatus.bit_displayDisable _ _ hi, hbefore i hi]
    simp only [statusBit, Order.update_of_control hcode (by decide), Setting.code?,
      Option.some.injEq, reduceCtorEq, Nat.reduceEqDiff, if_true, if_false]
    grind
  case h_5 hcode =>
    refine hg.withStatus (hdrawing hcode (by decide)) fun i hi => ?_
    rw [GraphicsStatus.bit_dmaDirection _ _ hi, hbefore i hi]
    simp only [statusBit, Order.update_of_control hcode (by decide), Setting.code?,
      Option.some.injEq, reduceCtorEq, Nat.reduceEqDiff, if_true, if_false]
    grind
  case h_9 hcode =>
    refine hg.withStatus (hdrawing hcode (by decide)) fun i hi => ?_
    rw [GraphicsStatus.bit_withDisplayMode _ _ hi, hbefore i hi]
    simp only [statusBit, Order.update_of_control hcode (by decide), Setting.code?,
      Option.some.injEq, reduceCtorEq, Nat.reduceEqDiff, if_true, if_false]
    grind
  -- A query or a code without a meaning.
  case h_10 hreset _ _ hdisable hdirection _ _ _ hmode =>
    have hnone (s : Setting) : s.code? ≠ some (word >>> 24).toNat := by
      cases s with
      | displayDisable => exact fun h => hdisable (Option.some.inj h).symm
      | dmaDirection => exact fun h => hdirection (Option.some.inj h).symm
      | displayMode => exact fun h => hmode (Option.some.inj h).symm
      | _ => exact Option.some_ne_none _ ∘ Eq.symm
    rw [Order.update_of_control_other rfl hreset hnone]
    split
    · exact hg.congr rfl rfl rfl rfl
    · exact hg
  all_goals
    rename_i hcode
    rw [Order.update_of_control_other hcode (by decide) (by intro s; cases s <;> decide)]
    exact hg.congr rfl rfl rfl rfl

/-! ## Whole histories -/

/-- A drawing unit that stands where its log does. -/
structure Records (g : Graphics) (log : Log) : Prop where
  policy : g.unhandledCommand = .drop
  awaits : Awaits g log.pending
  shows : Shows g (latest log.orders)

variable {log : Log}

/-- A unit that its log records is recorded after a word of the drawing port. -/
theorem Records.drawing (hg : Records g log) (word : UInt32) :
    Records (g.writeDrawing word) (log.drawing word) := by
  obtain ⟨hunit, hpolicy, hawaits⟩ := arrived_writeDrawing hg.awaits word fun _ => hg.policy
  have hrest : Shows g.atRest (latest log.orders) := hg.shows.congr rfl rfl rfl rfl
  have harrive := hrest.arrive log.pending word
  rw [← hunit] at harrive
  have hshows := harrive.congr (h := g.writeDrawing word) rfl rfl rfl rfl
  unfold Log.drawing
  dsimp only
  by_cases hcomplete : isComplete (log.pending ++ [word]) = true
  · rw [if_pos hcomplete] at hawaits hshows ⊢
    refine ⟨hpolicy.trans hg.policy, hawaits, ?_⟩
    rw [latest_concat]
    exact hshows
  · rw [if_neg hcomplete] at hawaits hshows ⊢
    exact ⟨hpolicy.trans hg.policy, hawaits, hshows⟩

/-- It is recorded after a control word. -/
theorem Records.control (hg : Records g log) (word : UInt32) :
    Records (g.writeControl word) (log.control word) := by
  obtain ⟨hwrite, hawaits⟩ := hg.awaits.writeControl word
  rw [hwrite]
  refine ⟨(control_policy g word).trans hg.policy, hawaits, ?_⟩
  rw [Log.control, latest_concat]
  exact hg.shows.control word

/-- It is recorded after a store to either port. -/
theorem Records.write (hg : Records g log) (offset word : UInt32) :
    Records (g.write offset word) (log.write offset word) := by
  unfold Graphics.write Log.write
  split
  · exact hg.drawing word
  · exact hg.control word

/-- Reading and writing pixels changes no setting and no command in progress. -/
theorem Records.congr (hg : Records g log) (hsame : SameCommand g h)
    (hstatus : h.status = g.status) (hwindow : h.window = g.window) (harea : h.area = g.area)
    (hoffset : h.offset = g.offset) : Records h log :=
  ⟨hsame.policy.trans hg.policy, hg.awaits.congr hsame,
    hg.shows.congr hstatus hwindow harea hoffset⟩

/-- A load changes nothing that the log records. -/
theorem Records.read (hg : Records g log) (offset : UInt32) : Records (g.read offset).2 log := by
  refine hg.congr (read_sameCommand g offset) ?_ ?_ ?_ ?_ <;>
  · unfold Graphics.read readDrawing
    split
    · split <;> rfl
    · rfl

/-- **One operation.**  The drawing unit keeps up with its log. -/
theorem Records.perform (hg : Records g log) (operation : Operation) :
    Records (g.perform operation).2 (log.perform operation) := by
  cases operation with
  | write offset word => exact hg.write offset word
  | read offset => exact hg.read offset
  | dmaWrite clock word => exact hg.write 0 word
  | dmaRead clock => exact hg.read 0
  | writePixel x y pixel =>
      have hsame : SameCommand g (g.writePixel x y pixel) := ⟨rfl, rfl, rfl, rfl⟩
      exact hg.congr hsame rfl rfl rfl rfl
  | readPixel x y => exact hg
  | writeRect x y w h pixels =>
      dsimp only [Graphics.perform]
      unfold Graphics.writeRect
      cases g.vram.writeRect x y w h pixels with
      | ok vram =>
          have hsame : SameCommand g { g with vram } := ⟨rfl, rfl, rfl, rfl⟩
          exact hg.congr hsame rfl rfl rfl rfl
      | error e => exact hg
  | reset =>
      have hreset := hg.control 0
      rw [(hg.awaits.writeControl 0).1] at hreset
      exact hreset

/-- It is recorded through any operations. -/
theorem Records.performAll (hg : Records g log) (operations : List Operation) :
    Records (g.performAll operations) (log.performAll operations) := by
  induction operations generalizing g log with
  | nil => exact hg
  | cons operation later ih => exact ih (hg.perform operation)

/-- **A drawing unit stands where its log does**, whatever was done to it since
power-on. -/
theorem records_of (operations : List Operation) :
    Records ((initial .drop).performAll operations) (.of operations) :=
  Records.performAll ⟨rfl, .idle rfl rfl rfl, shows_initial .drop⟩ operations

/-- A word that does not complete a textured polygon, but belongs to a command in
progress, gives nothing. -/
theorem latest_drawing_of_pending (hawaits : Awaits g log.pending) (hpending : log.pending ≠ [])
    {word : UInt32} (htextured : isComplete (log.pending ++ [word]) = true →
      isTexturedPolygon (opcodeOf (log.pending.headD 0)) = false) :
    latest (log.drawing word).orders = latest log.orders := by
  obtain ⟨first, rest, hwords⟩ := List.exists_cons_of_ne_nil hpending
  rw [hwords] at hawaits htextured
  unfold Log.drawing
  rw [hwords]
  dsimp only
  by_cases hcomplete : isComplete (first :: rest ++ [word]) = true
  · have huntextured := htextured hcomplete
    rw [if_pos hcomplete, latest_concat]
    refine Order.update_of_untextured hawaits.not_setting huntextured
  · rw [if_neg hcomplete]

/-- **The status word is determined by the orders.**  After any history, each of its bits
shows a bit of the word that a setting was given last, or never changes.

A word that belongs to a command in progress leaves the status word alone, unless it
completes a textured polygon. -/
theorem status_shows_latest (operations : List Operation) :
    let g := (initial .drop).performAll operations
    let log := Log.of operations
    (∀ i < 32, bit (g.read 4).1 i = statusBit (latest log.orders) i) ∧
      ∀ word, log.pending ≠ [] →
        (isComplete (log.pending ++ [word]) = true →
          isTexturedPolygon (opcodeOf (log.pending.headD 0)) = false) →
        ((g.writeDrawing word).read 4).1 = (g.read 4).1 := by
  intro g log
  have hrecords : Records g log := records_of operations
  refine ⟨hrecords.shows.status, fun word hpending htextured => ext_bit fun i hi => ?_⟩
  have hbefore := hrecords.shows.status i hi
  have hafter := (hrecords.drawing word).shows.status i hi
  rw [latest_drawing_of_pending hrecords.awaits hpending htextured] at hafter
  exact hafter.trans hbefore.symm

/-- A polygon in progress, whose words look like settings. -/
theorem status_during_polygon :
    let g := (initial .drop).performAll
      [.write 0 0xE1000203, .write 4 0x08000027, .write 0 0x24FFFFFF, .write 0 0xE6000003]
    (g.read 4).1 = 0x1CCE2203 ∧ ((g.writeDrawing 0xE1000000).read 4).1 = (g.read 4).1 := by
  intro g
  obtain ⟨hstatus, hargument⟩ := status_shows_latest
    [.write 0 0xE1000203, .write 4 0x08000027, .write 0 0x24FFFFFF, .write 0 0xE6000003]
  refine ⟨ext_bit fun i hi => (hstatus i hi).trans ?_, hargument _ (by decide) (by decide)⟩
  revert i
  decide

end Graphics
end PlayStation
