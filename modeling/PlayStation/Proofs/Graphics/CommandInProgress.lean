import PlayStation.Proofs.Graphics.UploadCursor

/-!
# The command in progress

What the drawing unit keeps of a command whose first words have been written
(`Awaits`).  The words of a polygon, a download or the head of an upload wait
in the queue; the pixel words of an upload and the words of a dropped command
leave it at once, and a counter and a cursor say how many there were.  A command
that stalls stays in the queue, and all words after it wait behind it.

A unit that awaits words has nothing to do until the next one is written
(`Awaits.run_eq`).
-/

namespace PlayStation

namespace WordQueue

/-- A queue counts the words in it. -/
theorem count_eq_length {q : WordQueue} {words : List UInt32} (h : q.toList = words) :
    q.count = words.length := by
  rw [← length_toList, h]

/-- A word goes to the end of a queue that is not full. -/
theorem toList_push {q : WordQueue} {words : List UInt32} (h : q.toList = words)
    (hroom : words.length < capacity) (word : UInt32) : (q.push word).toList = words ++ [word] := by
  rcases hpush : q.enqueue? word with _ | q'
  · have hfull := enqueue?_eq_none_iff.mp hpush
    rw [count_eq_length h] at hfull
    omega
  · rw [push, hpush, Option.getD_some, toList_enqueue? hpush, h]

/-- A word that is queued leaves the first one where it is, also when there is no room. -/
theorem toList_push_of_cons {q : WordQueue} {first : UInt32} {rest : List UInt32}
    (h : q.toList = first :: rest) (word : UInt32) :
    ∃ more, (q.push word).toList = first :: more := by
  rcases hpush : q.enqueue? word with _ | q'
  · rw [push, hpush]
    exact ⟨rest, h⟩
  · rw [push, hpush, Option.getD_some, toList_enqueue? hpush, h]
    exact ⟨rest ++ [word], rfl⟩

/-- Fewer words than asked for are left alone. -/
theorem dequeue?_of_short {q : WordQueue} {words : List UInt32} (h : q.toList = words) {n : Nat}
    (hshort : words.length < n) : q.dequeue? n = none := by
  rw [← count_eq_length h] at hshort
  unfold dequeue?
  rw [dif_neg (by omega)]

/-- Taking as many words as there are empties the queue. -/
theorem dequeue?_all {q : WordQueue} {words : List UInt32} (h : q.toList = words) :
    ∃ q', q.dequeue? words.length = some (words, q') ∧ q'.toList = [] := by
  have hcount := count_eq_length h
  rcases htake : q.dequeue? words.length with _ | ⟨taken, q'⟩
  · unfold dequeue? at htake
    rw [dif_pos (by omega)] at htake
    cases htake
  · have hall := toList_dequeue? htake
    have hrest : q'.toList = [] := by
      rw [← List.length_eq_zero_iff, length_toList, (count_dequeue? htake).1]
      omega
    rw [hrest, List.append_nil, h] at hall
    exact ⟨q', by rw [hall], hrest⟩

/-- The oldest word has the opcode of the command at the head. -/
theorem opcode?_of_toList {q : WordQueue} {first : UInt32} {rest : List UInt32}
    (h : q.toList = first :: rest) : q.opcode? = some (opcodeOf first) := by
  have hcount : q.count = rest.length + 1 := count_eq_length h
  have hpeek : q.peek 0 = first := by
    have hhead : q.oldest 1 = [first] := by
      rw [oldest_eq_take (by omega), h]
      rfl
    exact List.head_eq_of_cons_eq hhead
  have hempty : ¬ q.isEmpty = true := by
    rw [isEmpty, hcount]
    simp
  rw [opcode?, front?, if_neg hempty, hpeek]
  rfl

/-- An empty queue has no opcode at its head. -/
theorem opcode?_of_nil {q : WordQueue} (h : q.toList = []) : q.opcode? = none := by
  have hempty : q.isEmpty = true := by
    rw [isEmpty, count_eq_length h]
    rfl
  rw [opcode?, front?, if_pos hempty]
  rfl

end WordQueue

/-- How many words a command takes from the queue at once. -/
def Command.takes : Command → Nat
  | polygon form => form.words
  | upload | download => 3
  | _ => 1

/-- No polygon has more words than the queue has room for. -/
theorem PolygonForm.words_le (f : PolygonForm) : f.words ≤ 12 := by
  unfold words corners
  cases f.quad <;> cases f.textured <;> cases f.shaded <;> decide

/-- Every polygon has a corner behind its first word. -/
theorem PolygonForm.one_lt_words (f : PolygonForm) : 1 < f.words := by
  unfold words corners
  cases f.quad <;> simp <;> omega

/-- No handler waits for more words than the queue has room for. -/
theorem Command.takes_le (command : Command) : command.takes ≤ 12 := by
  cases command with
  | polygon form => exact form.words_le
  | _ => simp [takes]

/-- Every handler takes the word of the opcode at least. -/
theorem Command.takes_pos (command : Command) : 1 ≤ command.takes := by
  cases command with
  | polygon form => exact Nat.le_of_lt form.one_lt_words
  | _ => simp [takes]

namespace Graphics

/-- What the drawing unit keeps of the command that the words have begun. -/
inductive Awaits (g : Graphics) : List UInt32 → Prop
  | idle (queue : g.queue.toList = []) (progress : g.progress = { opcode := g.progress.opcode })
      (upload : g.upload = none) : Awaits g []
  /-- The command waits for the words that it takes at once. -/
  | queued {first : UInt32} {rest : List UInt32} (queue : g.queue.toList = first :: rest)
      (progress : g.progress = { inProgress := true, opcode := opcodeOf first })
      (upload : g.upload = none)
      (short : rest.length + 1 < (Command.ofOpcode (opcodeOf first)).takes) :
      Awaits g (first :: rest)
  /-- An upload has been told its rectangle and waits for pixel words. -/
  | uploading {first position size : UInt32} {data : List UInt32}
      (opcode : opcodeOf first = 0xA0) (queue : g.queue.toList = [])
      (progress : g.progress =
        { inProgress := true
          opcode := opcodeOf first
          remaining := (Transfer.ofWords position size).wordCount - data.length })
      (upload : g.upload = some ((Transfer.ofWords position size).after (2 * data.length)))
      (short : data.length < (Transfer.ofWords position size).wordCount) :
      Awaits g (first :: position :: size :: data)
  /-- A command that is dropped waits for its end. -/
  | dropping {first : UInt32} {rest : List UInt32} (policy : g.unhandledCommand = .drop)
      (command : Command.ofOpcode (opcodeOf first) = .unhandled) (queue : g.queue.toList = [])
      (progress : g.progress =
        { inProgress := true, opcode := opcodeOf first, consumed := rest.length + 1 })
      (upload : g.upload = none)
      (short : (CommandLength.ofOpcode (opcodeOf first)).reachedBy (first :: rest) = false) :
      Awaits g (first :: rest)
  /-- A command that is neither carried out nor dropped waits for a reset. -/
  | stalled {first : UInt32} {rest : List UInt32} (policy : g.unhandledCommand = .stall)
      (command : Command.ofOpcode (opcodeOf first) = .unhandled)
      (queue : g.queue.toList = first :: rest)
      (progress : g.progress = { inProgress := true, opcode := opcodeOf first })
      (upload : g.upload = none) : Awaits g (first :: rest)

/-- Both units keep the same of the command in progress. -/
structure SameCommand (g h : Graphics) : Prop where
  queue : h.queue = g.queue
  progress : h.progress = g.progress
  upload : h.upload = g.upload
  policy : h.unhandledCommand = g.unhandledCommand

/-- What a unit awaits depends on the command in progress alone. -/
theorem Awaits.congr {g h : Graphics} {words : List UInt32} (hsame : SameCommand g h)
    (hg : Awaits g words) : Awaits h words := by
  obtain ⟨hqueue, hprogress, hupload, hpolicy⟩ := hsame
  cases hg with
  | idle queue progress upload =>
      exact .idle (hqueue ▸ queue) (hprogress ▸ progress) (hupload ▸ upload)
  | queued queue progress upload short =>
      exact .queued (hqueue ▸ queue) (hprogress ▸ progress) (hupload ▸ upload) short
  | uploading opcode queue progress upload short =>
      exact .uploading opcode (hqueue ▸ queue) (hprogress ▸ progress) (hupload ▸ upload) short
  | dropping policy command queue progress upload short =>
      exact .dropping (hpolicy ▸ policy) command (hqueue ▸ queue) (hprogress ▸ progress)
        (hupload ▸ upload) short
  | stalled policy command queue progress upload =>
      exact .stalled (hpolicy ▸ policy) command (hqueue ▸ queue) (hprogress ▸ progress)
        (hupload ▸ upload)

/-- A unit is busy exactly while words are pending. -/
theorem Awaits.inProgress_iff {g : Graphics} {words : List UInt32} (h : Awaits g words) :
    g.progress.inProgress = true ↔ words ≠ [] := by
  cases h with
  | idle queue progress upload =>
      rw [progress]
      simp
  | queued queue progress upload short => rw [progress]; simp
  | uploading opcode queue progress upload short => rw [progress]; simp
  | dropping policy command queue progress upload short => rw [progress]; simp
  | stalled policy command queue progress upload => rw [progress]; simp

/-- An idle unit awaits a first word. -/
theorem Awaits.pending_eq_nil {g : Graphics} {words : List UInt32} (h : Awaits g words)
    (hidle : g.progress.inProgress = false) : words = [] := by
  cases words with
  | nil => rfl
  | cons first rest =>
      have hbusy := h.inProgress_iff.mpr (List.cons_ne_nil first rest)
      rw [hidle] at hbusy
      cases hbusy

/-- A unit that awaits a first word has none in the queue. -/
theorem Awaits.queue_eq_nil {g : Graphics} (h : Awaits g []) : g.queue.toList = [] := by
  cases h with
  | idle queue progress upload => exact queue

/-- A unit that awaits a first word is in no upload. -/
theorem Awaits.upload_eq_none {g : Graphics} (h : Awaits g []) : g.upload = none := by
  cases h with
  | idle queue progress upload => exact upload

/-- A busy unit knows the opcode of the first pending word. -/
theorem Awaits.opcode {g : Graphics} {first : UInt32} {rest : List UInt32}
    (h : Awaits g (first :: rest)) : g.progress.opcode = opcodeOf first := by
  cases h with
  | queued queue progress upload short => rw [progress]
  | uploading opcode queue progress upload short => rw [progress]
  | dropping policy command queue progress upload short => rw [progress]
  | stalled policy command queue progress upload => rw [progress]

/-! ## Nothing to do until the next word -/

/-- A command that lacks words that it takes at once does nothing. -/
theorem step_of_short {g : Graphics} {first : UInt32} {rest : List UInt32}
    (queue : g.queue.toList = first :: rest)
    (progress : g.progress = { inProgress := true, opcode := opcodeOf first })
    (short : rest.length + 1 < (Command.ofOpcode (opcodeOf first)).takes) : g.step = g := by
  have hopcode : g.progress.opcode = opcodeOf first := by rw [progress]
  have hnone : g.queue.dequeue? (Command.ofOpcode (opcodeOf first)).takes = none :=
    WordQueue.dequeue?_of_short queue short
  unfold step
  rw [hopcode]
  cases hcommand : Command.ofOpcode (opcodeOf first) with
  | polygon form =>
      have hwords : g.queue.dequeue? form.words = none := by
        rw [hcommand] at hnone
        exact hnone
      dsimp only
      rw [hwords]
  | upload =>
      have hhead : g.queue.dequeue? 3 = none := by
        rw [hcommand] at hnone
        exact hnone
      have hremaining : g.progress.remaining = 0 := by rw [progress]
      dsimp only
      rw [stepUpload, if_pos hremaining, hhead]
  | download =>
      have hwords : g.queue.dequeue? 3 = none := by
        rw [hcommand] at hnone
        exact hnone
      dsimp only
      rw [startDownload, hwords]
  | _ =>
      rw [hcommand] at short
      simp [Command.takes] at short

/-- Without a queued word an upload or a dropped command does nothing. -/
theorem step_of_uploading {g : Graphics} {first : UInt32} (opcode : opcodeOf first = 0xA0)
    (queue : g.queue.toList = []) {remaining : Nat} (hremaining : 0 < remaining)
    (progress : g.progress = { inProgress := true, opcode := opcodeOf first, remaining }) :
    g.step = g := by
  have hcommand : Command.ofOpcode (opcodeOf first) = .upload := by
    rw [opcode]
    decide
  have hopcode : g.progress.opcode = opcodeOf first := by rw [progress]
  have hnone : g.queue.dequeue? 1 = none := WordQueue.dequeue?_of_short queue (by decide)
  have hbusy : g.progress.remaining ≠ 0 := by
    rw [progress]
    exact Nat.ne_of_gt hremaining
  unfold step
  rw [hopcode, hcommand]
  dsimp only
  rw [stepUpload, if_neg hbusy, hnone]

/-- With an empty queue, a unit that drops a command waits. -/
theorem step_of_dropping {g : Graphics} (policy : g.unhandledCommand = .drop)
    (command : Command.ofOpcode g.progress.opcode = .unhandled) (queue : g.queue.toList = []) :
    g.step = g := by
  have hcount : g.queue.count = 0 := WordQueue.count_eq_length queue
  unfold step
  rw [command]
  dsimp only
  rw [policy, hcount]
  rfl

/-- A command that stalls does nothing. -/
theorem step_of_stalled {g : Graphics} (policy : g.unhandledCommand = .stall)
    (command : Command.ofOpcode g.progress.opcode = .unhandled) : g.step = g := by
  unfold step
  rw [command]
  dsimp only
  rw [policy]

/-- Carrying out the queue is one step, when that leaves nothing to do. -/
theorem run_of_begin? {g g' : Graphics} (hbegin : g.begin? = some g')
    (hstable : g'.step.run = g'.step) : g.run = g'.step := by
  rw [run, hbegin]
  dsimp only
  split
  · exact hstable
  · rfl

/-- **A unit that awaits words has nothing to do.** -/
theorem Awaits.run_eq {g : Graphics} {words : List UInt32} (h : Awaits g words) : g.run = g := by
  have hbusy (hprogress : g.progress.inProgress = true) (hstep : g.step = g) : g.run = g := by
    have hbegin : g.begin? = some g := by rw [begin?, if_pos hprogress]
    rw [run, hbegin]
    dsimp only
    rw [hstep, if_neg (Nat.lt_irrefl _)]
  cases h with
  | idle queue progress upload =>
      have hbegin : g.begin? = none := by
        rw [begin?, progress, if_neg (by simp), WordQueue.opcode?_of_nil queue]
        rfl
      rw [run, hbegin]
  | queued queue progress upload short =>
      exact hbusy (by rw [progress]) (step_of_short queue progress short)
  | uploading opcode queue progress upload short =>
      exact hbusy (by rw [progress])
        (step_of_uploading opcode queue (Nat.sub_pos_of_lt short) progress)
  | dropping policy command queue progress upload short =>
      exact hbusy (by rw [progress])
        (step_of_dropping policy (by rw [progress]; exact command) queue)
  | stalled policy command queue progress upload =>
      exact hbusy (by rw [progress]) (step_of_stalled policy (by rw [progress]; exact command))

end Graphics
end PlayStation
