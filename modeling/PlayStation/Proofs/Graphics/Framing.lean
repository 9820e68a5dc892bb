import PlayStation.Proofs.Graphics.Arrival

/-!
# The drawing unit follows the command stream

Under the policy that drops commands without a handler, the drawing unit cuts
the words of the drawing port into commands where the stream does, and each
word has the effect that the stream gives it (`framing`).

One word at a time: `arrived_writeDrawing` goes through the ways in which the
unit can be waiting, `control_cases` through the words of the control port, and
`Follows.foldl` puts the words one after the other.
-/

namespace PlayStation

namespace Graphics

variable {g after : Graphics} {pending : List UInt32} {word : UInt32}

/-! ## The two ports -/

/-- Units that are the same but for the command in progress have the same policy. -/
theorem policy_of_atRest {g h : Graphics} (hrest : g.atRest = h.atRest) :
    g.unhandledCommand = h.unhandledCommand := by
  have hpolicy := congrArg unhandledCommand hrest
  exact hpolicy

/-- Units that are the same at rest, and in their upload, differ in what they keep of the
command in progress alone. -/
theorem eq_of_atRest_eq {g h : Graphics} (hrest : h.atRest = g.atRest)
    (hupload : h.upload = g.upload) : h = { g with queue := h.queue, progress := h.progress } := by
  cases g
  cases h
  simp only [atRest, mk.injEq] at hrest hupload ⊢
  simp only [hrest, hupload, and_self]

/-- A queued word is carried out by one step. -/
theorem Arrived.of_queued {begun : Graphics} (h : Arrived begun begun.step pending word)
    (hrest : begun.atRest = g.atRest)
    (himmediate : g.progress.inProgress = true ∨ g.immediate? word = none)
    (hbegin : begin? { g with queue := g.queue.push word } = some begun) :
    Arrived g (g.writeDrawing word) pending word := by
  have hwrite : g.writeDrawing word = run { g with queue := g.queue.push word } := by
    unfold writeDrawing
    rcases himmediate with hbusy | hnone
    · rw [if_pos hbusy]
    · rw [hnone, ite_self]
  rw [hwrite, run_of_begin? hbegin h.awaits.run_eq]
  exact ⟨hrest ▸ h.unit, h.policy.trans (policy_of_atRest hrest), h.awaits⟩

/-- An idle unit carries out an immediate word without a round of the queue. -/
theorem writeDrawing_of_immediate (hidle : g.progress.inProgress = false)
    (himmediate : g.immediate? word = some after) : g.writeDrawing word = after := by
  unfold writeDrawing
  rw [hidle, if_neg Bool.false_ne_true, himmediate]

/-- The first word of a command that needs no queue has its effect at once. -/
theorem arrived_immediate (h : Awaits g []) (himmediate : g.immediate? word = some after) :
    Arrived g (g.writeDrawing word) [] word := by
  have hidle : ¬ g.progress.inProgress = true := fun hbusy => h.inProgress_iff.mp hbusy rfl
  rw [writeDrawing_of_immediate (Bool.eq_false_iff.mpr hidle) himmediate]
  rcases cases_of_immediate? himmediate with ⟨hsetting, rfl⟩ | ⟨hnone, rfl⟩
  · obtain ⟨hsame, hrest⟩ := applySetting_sameCommand g word
    exact .of_carriedOut rfl hsetting rfl rfl hrest hsame.policy (h.congr hsame)
  · exact .of_carriedOut rfl hnone rfl rfl rfl rfl h

/-- A first word that needs the queue begins its command there. -/
theorem loaded_first (h : Awaits g []) (word : UInt32) :
    ∃ begun, begin? { g with queue := g.queue.push word } = some begun ∧ Loaded begun word [] ∧
      begun.atRest = g.atRest := by
  have hidle : ¬ g.progress.inProgress = true := fun hbusy => h.inProgress_iff.mp hbusy rfl
  cases h with
  | idle queue progress upload =>
      have hpush : (g.queue.push word).toList = [word] :=
        WordQueue.toList_push queue (by decide) word
      have hbegin : begin? { g with queue := g.queue.push word } =
          some { g with
            queue := g.queue.push word
            progress := g.progress.start (opcodeOf word) } := by
        rw [begin?, if_neg hidle]
        dsimp only
        rw [WordQueue.opcode?_of_toList hpush]
        rfl
      exact ⟨_, hbegin, ⟨hpush, rfl, upload⟩, rfl⟩

/-- **A word of the drawing port does what the stream says**, unless the command that
it belongs to stalls. -/
theorem arrived_writeDrawing (h : Awaits g pending) (word : UInt32)
    (hpolicy : Command.ofOpcode (opcodeOf ((pending ++ [word]).headD 0)) = .unhandled →
      g.unhandledCommand = .drop) : Arrived g (g.writeDrawing word) pending word := by
  have hbegin (hbusy : g.progress.inProgress = true) :
      begin? { g with queue := g.queue.push word } =
        some { g with queue := g.queue.push word } := by
    rw [begin?, if_pos hbusy]
  -- The queue is empty but for the words of a command that takes them at once, and
  -- no command takes more than twelve.
  have hroom : ([] : List UInt32).length < WordQueue.capacity := by decide
  cases h with
  | idle queue progress upload =>
      have hidle : Awaits g [] := .idle queue progress upload
      rcases himmediate : g.immediate? word with _ | after
      · obtain ⟨begun, hbegun, hloaded, hrest⟩ := loaded_first hidle word
        have hsame := policy_of_atRest hrest
        have hwords : [] ++ [word] = word :: [] := rfl
        exact .of_queued (hloaded.arrived (fun h => hsame.trans (hpolicy h)) hwords (.inl rfl))
          hrest (.inr himmediate) hbegun
      · exact arrived_immediate hidle himmediate
  | @queued first rest queue progress upload short =>
      have hcapacity : (first :: rest).length < WordQueue.capacity := by
        have hle := Command.takes_le (Command.ofOpcode (opcodeOf first))
        simp only [List.length_cons, WordQueue.capacity]
        omega
      have hbusy : g.progress.inProgress = true := by rw [progress]
      have hloaded : Loaded { g with queue := g.queue.push word } first (rest ++ [word]) :=
        ⟨WordQueue.toList_push queue hcapacity word, progress, upload⟩
      have hwords : first :: rest ++ [word] = first :: (rest ++ [word]) := rfl
      exact .of_queued (hloaded.arrived hpolicy hwords (.inr short)) rfl (.inl hbusy) (hbegin hbusy)
  | uploading opcode queue progress upload short =>
      have hbusy : g.progress.inProgress = true := by rw [progress]
      have harrived := arrived_pixels (g := { g with queue := g.queue.push word }) opcode
        (WordQueue.toList_push queue hroom word) progress upload short
      exact .of_queued harrived rfl (.inl hbusy) (hbegin hbusy)
  | dropping policy command queue progress upload short =>
      have hbusy : g.progress.inProgress = true := by rw [progress]
      have harrived := arrived_dropped (g := { g with queue := g.queue.push word })
        (List.cons_append ..) command (WordQueue.toList_push queue hroom word) progress upload
        policy (.inr short)
      exact .of_queued harrived rfl (.inl hbusy) (hbegin hbusy)
  | stalled policy command queue progress upload =>
      cases policy.symm.trans (hpolicy command)

/-- What a word of the control port does to the drawing unit. -/
theorem control_cases (g : Graphics) (word : UInt32) :
    (abandons word = true ∧ (g.control word).queue.toList = [] ∧
        (g.control word).progress = { opcode := (g.control word).progress.opcode } ∧
        (g.control word).upload = none ∧ (g.control word).unhandledCommand = g.unhandledCommand) ∨
      (abandons word = false ∧ SameCommand g (g.control word)) := by
  unfold abandons control
  split
  case h_1 hopcode => exact .inl ⟨by rw [hopcode]; rfl, rfl, rfl, rfl, rfl⟩
  case h_2 hopcode => exact .inl ⟨by rw [hopcode]; rfl, rfl, rfl, rfl, rfl⟩
  case h_10 hreset habandon _ _ _ _ _ _ _ =>
    refine .inr ⟨?_, ?_⟩
    · simp only [Bool.or_eq_false_iff, beq_eq_false_iff_ne]
      exact ⟨hreset, habandon⟩
    · split <;> exact ⟨rfl, rfl, rfl, rfl⟩
  all_goals rename_i hopcode; exact .inr ⟨by rw [hopcode]; rfl, rfl, rfl, rfl, rfl⟩

/-- A control word does not look at the command in progress. -/
theorem control_atRest (g : Graphics) (word : UInt32) :
    (g.control word).atRest = (g.atRest.control word).atRest := by
  unfold control
  split
  case h_10 => split <;> rfl
  all_goals rfl

/-- **A control word** leaves no queued command to carry out. -/
theorem Awaits.writeControl (h : Awaits g pending) (word : UInt32) :
    g.writeControl word = g.control word ∧
      Awaits (g.control word) (if abandons word then [] else pending) := by
  unfold Graphics.writeControl
  rcases control_cases g word with ⟨habandons, hqueue, hprogress, hupload, -⟩ | ⟨hkeeps, hsame⟩
  · have hidle : Awaits (g.control word) [] := .idle hqueue hprogress hupload
    rw [if_pos habandons]
    exact ⟨hidle.run_eq, hidle⟩
  · have hstill : Awaits (g.control word) pending := h.congr hsame
    rw [if_neg (by rw [hkeeps]; decide)]
    exact ⟨hstill.run_eq, hstill⟩

/-- No control word changes the policy, a reset included. -/
theorem control_policy (g : Graphics) (word : UInt32) :
    (g.control word).unhandledCommand = g.unhandledCommand := by
  rcases control_cases g word with ⟨-, -, -, -, hpolicy⟩ | ⟨-, hsame⟩
  · exact hpolicy
  · exact hsame.policy

/-! ## The whole stream -/

/-- The drawing unit stands where the stream does. -/
structure Follows (g : Graphics) (s : Stream) : Prop where
  unit : g.atRest = s.unit
  policy : g.unhandledCommand = .drop
  awaits : Awaits g s.pending

/-- A unit that follows the stream follows it after a word of the drawing port. -/
theorem Follows.drawing {g : Graphics} {s : Stream} (h : Follows g s) (word : UInt32) :
    Follows (g.writeDrawing word) (s.drawing word) := by
  obtain ⟨hunit, hsame, hawaits⟩ := arrived_writeDrawing h.awaits word fun _ => h.policy
  have hpolicy : (g.writeDrawing word).unhandledCommand = .drop := hsame.trans h.policy
  rw [h.unit] at hunit
  unfold Stream.drawing
  by_cases hcomplete : isComplete (s.pending ++ [word])
  · rw [if_pos hcomplete] at hawaits
    rw [if_pos hcomplete]
    exact ⟨hunit, hpolicy, hawaits⟩
  · rw [if_neg hcomplete] at hawaits
    rw [if_neg hcomplete]
    exact ⟨hunit, hpolicy, hawaits⟩

/-- It follows it after a control word. -/
theorem Follows.control {g : Graphics} {s : Stream} (h : Follows g s) (word : UInt32) :
    Follows (g.writeControl word) (s.control word) := by
  have hunit : (g.control word).atRest = (s.unit.control word).atRest := by
    rw [control_atRest, h.unit]
  have hpolicy : (g.control word).unhandledCommand = .drop :=
    (control_policy g word).trans h.policy
  obtain ⟨hwrite, hawaits⟩ := h.awaits.writeControl word
  rw [hwrite]
  unfold Stream.control
  by_cases habandons : abandons word
  · rw [if_pos habandons] at hawaits
    rw [if_pos habandons]
    exact ⟨hunit, hpolicy, hawaits⟩
  · rw [if_neg habandons] at hawaits
    rw [if_neg habandons]
    exact ⟨hunit, hpolicy, hawaits⟩

/-- **One write.**  The drawing unit keeps up with the stream. -/
theorem Follows.receive {g : Graphics} {s : Stream} (h : Follows g s) (write : PortWrite) :
    Follows (g.receive write) (s.receive write) := by
  cases write with
  | drawing word => exact h.drawing word
  | control word => exact h.control word

/-- It follows it through any history. -/
theorem Follows.foldl {g : Graphics} {s : Stream} (h : Follows g s) (history : List PortWrite) :
    Follows (history.foldl Graphics.receive g) (history.foldl Stream.receive s) := by
  induction history generalizing g s with
  | nil => exact h
  | cons write history ih => exact ih (h.receive write)

/-- A new unit follows a stream without words. -/
theorem follows_initial : Follows (.initial .drop) .initial where
  unit := rfl
  policy := rfl
  awaits := .idle rfl rfl rfl

/-- **Framing.**  Whatever is written to the two ports of a new drawing unit that
drops commands without a handler, it cuts the words of the drawing port where
the stream does.

* The finished commands, what resets cut off and the pending words are the words
  that were written, in their order; commands are whole, and the other pieces
  are not (`Stream.WellFormed`).
* A finished command is as long as its words tell: as many words as the length of its opcode,
  of its rectangle if it is an upload, or up to the first end mark if it is a polyline
  (`CommandLength.Spans`).
* A command is in progress exactly while words are pending, and its opcode is
  that of the first pending word.
* The unit is where the effects of the words, one after the other, have led
  (`Graphics.arrive`), but for what it keeps of the command in progress. -/
theorem framing (history : List PortWrite) :
    let g := history.foldl Graphics.receive (.initial .drop)
    let s := history.foldl Stream.receive .initial
    s.WellFormed (history.filterMap PortWrite.drawing?) ∧
      (∀ words, .command words ∈ s.frames →
        ∃ length, lengthOf? words = some length ∧ length.Spans words) ∧
      (g.progress.inProgress = true ↔ s.pending ≠ []) ∧
      (∀ first rest, s.pending = first :: rest → g.progress.opcode = opcodeOf first) ∧
      g.atRest = s.unit := by
  intro g s
  have hfollows : Follows g s := follows_initial.foldl history
  have hwords : s.WellFormed ([] ++ history.filterMap PortWrite.drawing?) :=
    Stream.wellFormed_foldl ⟨rfl, fun _ hframe => absurd hframe List.not_mem_nil, rfl⟩ history
  have hspans (words : List UInt32) (hframe : .command words ∈ s.frames) :
      ∃ length, lengthOf? words = some length ∧ length.Spans words :=
    IsCommand.spans (hwords.frames (.command words) hframe)
  refine ⟨hwords, hspans, hfollows.awaits.inProgress_iff, ?_, hfollows.unit⟩
  intro first rest hpending
  have hawaits := hfollows.awaits
  rw [hpending] at hawaits
  exact hawaits.opcode

end Graphics
end PlayStation
