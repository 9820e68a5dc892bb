import PlayStation.Proofs.Graphics.Reachable

/-!
# Words that need no queue

A no-operation, and a setting other than the texture window and the mask settings, takes
effect at once when no command is in progress (`IsImmediate`).  Had the word been queued,
the queue would have been carried out at once, with the same effect.  The two ways differ
in the opcode that the unit remembers and in where its empty queue stands in the ring
(`immediate_agrees_with_queue`).

Behind a command in progress such a word is queued, so what a word does must not depend
on the way that it takes.
-/

namespace PlayStation

namespace WordQueue

variable {q : WordQueue}

/-- An empty queue that a word has gone through: the ring has moved on, and nothing is left
in it. -/
def passedBy (q : WordQueue) (word : UInt32) : WordQueue :=
  { (q.push word).clear with next := (q.push word).next }

@[simp] theorem toList_passedBy (q : WordQueue) (word : UInt32) : (q.passedBy word).toList = [] :=
  rfl

/-- The only word of a queue is taken out again. -/
theorem dequeue?_push (h : q.toList = []) (word : UInt32) :
    (q.push word).dequeue? 1 = some ([word], q.passedBy word) := by
  have hcount : q.count = 0 := count_eq_length h
  obtain ⟨slots, next, count, hle⟩ := q
  obtain rfl : count = 0 := hcount
  have hpushed : (push ⟨slots, next, 0, hle⟩ word).toList = [word] :=
    toList_push h (by decide) word
  have hroom : 1 ≤ (push ⟨slots, next, 0, hle⟩ word).count :=
    Nat.le_of_eq (count_eq_length hpushed).symm
  have hword : (push ⟨slots, next, 0, hle⟩ word).oldest 1 = [word] := by
    rw [oldest_eq_take hroom, hpushed]
    rfl
  rw [dequeue?, dif_pos hroom, hword]
  rfl

end WordQueue

namespace Graphics

variable {g : Graphics} {word : UInt32} {command : Command}

/-! ## Without the queue -/

/-- The table of immediate words does for each of them what the handler of its opcode does. -/
theorem immediate?_of_isImmediate (g : Graphics) (h : IsImmediate (opcodeOf word)) :
    g.immediate? word = some (g.carryOut [word] (.ofOpcode (opcodeOf word))) := by
  rw [immediate?_eq, if_pos h]

/-- No other word is in the table. -/
theorem immediate?_of_not_isImmediate (g : Graphics) (h : ¬ IsImmediate (opcodeOf word)) :
    g.immediate? word = none := by
  rw [immediate?_eq, if_neg h]

/-! ## Through the queue -/

/-- Settings and no-operations do not look at the queue and the progress of commands. -/
theorem carryOut_beside (g : Graphics) (q : WordQueue) (p : Progress) (word : UInt32)
    (h : command = .setting ∨ command = .noOperation) :
    carryOut { g with queue := q, progress := p } [word] command =
      { g.carryOut [word] command with queue := q, progress := p } := by
  rcases h with rfl | rfl
  · have hsettings := applySetting_withSettings { g with queue := q, progress := p } g word
    change applySetting _ word = { g.applySetting word with queue := q, progress := p }
    rw [applySetting_eq_withSettings g word]
    exact hsettings
  · rfl

/-- Such a command touches neither the queue nor the command in progress nor a transfer. -/
theorem carryOut_keeps (g : Graphics) (word : UInt32)
    (h : command = .setting ∨ command = .noOperation) :
    (g.carryOut [word] command).queue = g.queue ∧
      (g.carryOut [word] command).progress = g.progress ∧
      (g.carryOut [word] command).upload = g.upload := by
  rcases h with rfl | rfl
  · obtain ⟨hsame, -⟩ := applySetting_sameCommand g word
    exact ⟨hsame.queue, hsame.progress, hsame.upload⟩
  · exact ⟨rfl, rfl, rfl⟩

/-- The step that carries out a setting or a no-operation takes its word off the queue. -/
theorem step_of_single (hcommand : Command.ofOpcode g.progress.opcode = command)
    (hkind : command = .setting ∨ command = .noOperation) {q : WordQueue}
    (htake : g.queue.dequeue? 1 = some ([word], q)) :
    g.step = (carryOut { g with queue := q } [word] command).complete := by
  unfold step
  rw [hcommand]
  rcases hkind with rfl | rfl
  · dsimp only
    rw [htake]
    rfl
  · dsimp only
    rw [htake]
    rfl

/-- **A setting or a no-operation that goes through the queue** of an idle unit leaves the
queue empty and its opcode behind. -/
theorem run_of_single (h : Awaits g [])
    (hkind : Command.ofOpcode (opcodeOf word) = .setting ∨
      Command.ofOpcode (opcodeOf word) = .noOperation) :
    run { g with queue := g.queue.push word } =
      { g.carryOut [word] (.ofOpcode (opcodeOf word)) with
        queue := g.queue.passedBy word
        progress := { opcode := opcodeOf word } } := by
  have hqueue := h.queue_eq_nil
  have hidle : ¬ g.progress.inProgress = true := fun hbusy => h.inProgress_iff.mp hbusy rfl
  let begun : Graphics :=
    { g with queue := g.queue.push word, progress := g.progress.start (opcodeOf word) }
  have hbegin : begin? { g with queue := g.queue.push word } = some begun := by
    rw [begin?, if_neg hidle,
      WordQueue.opcode?_of_toList (WordQueue.toList_push hqueue (by decide) word)]
    rfl
  have hstep : begun.step =
      { g.carryOut [word] (.ofOpcode (opcodeOf word)) with
        queue := g.queue.passedBy word
        progress := { opcode := opcodeOf word } } := by
    rw [step_of_single (g := begun) rfl hkind (WordQueue.dequeue?_push hqueue word)]
    exact congrArg complete (carryOut_beside g _ (g.progress.start (opcodeOf word)) word hkind)
  have hupload : (g.carryOut [word] (.ofOpcode (opcodeOf word))).upload = none :=
    (carryOut_keeps g word hkind).2.2.trans h.upload_eq_none
  have hrest : Awaits begun.step [] := by
    rw [hstep]
    exact .idle (WordQueue.toList_passedBy _ _) rfl hupload
  rw [run_of_begin? hbegin hrest.run_eq, hstep]

/-- **Both ways agree.**  Let a word be written to a reachable unit without a command in
progress.

* If its opcode is that of an immediate word, it takes effect at once.  Queueing it and
  carrying out the queue leaves the same unit, with the queue empty before and after, save
  for the opcode that the unit remembers and for the ring, through which the word has gone.
* Any other word is queued and changes nothing before. -/
theorem immediate_agrees_with_queue {policy : UnhandledCommand} (h : Reachable policy g)
    (hidle : g.progress.inProgress = false) (word : UInt32) :
    (IsImmediate (opcodeOf word) →
      ∃ after, g.immediate? word = some after ∧ g.writeDrawing word = after ∧
        g.queue.toList = [] ∧ after.queue = g.queue ∧ (g.queue.passedBy word).toList = [] ∧
        run { g with queue := g.queue.push word } =
          { after with
            queue := g.queue.passedBy word
            progress := { after.progress with opcode := opcodeOf word } }) ∧
      (¬ IsImmediate (opcodeOf word) →
        g.immediate? word = none ∧
          g.writeDrawing word = run { g with queue := g.queue.push word }) := by
  obtain ⟨pending, hawaits⟩ := h.settled.awaits
  obtain rfl := hawaits.pending_eq_nil hidle
  have hfree : ¬ g.progress.inProgress = true := by rw [hidle]; exact Bool.false_ne_true
  constructor
  · intro himmediate
    have hnow := immediate?_of_isImmediate g himmediate
    have hkind : Command.ofOpcode (opcodeOf word) = .setting ∨
        Command.ofOpcode (opcodeOf word) = .noOperation :=
      ofOpcode_of_isImmediate _ himmediate
    obtain ⟨hqueue, hprogress, -⟩ := carryOut_keeps g word hkind
    have hwrite : g.writeDrawing word = g.carryOut [word] (.ofOpcode (opcodeOf word)) := by
      unfold writeDrawing
      rw [if_neg hfree, hnow]
    have hremembers : ({ opcode := opcodeOf word } : Progress) =
        { g.progress with opcode := opcodeOf word } := by
      cases hawaits with
      | idle queue progress upload => rw [progress]
    refine ⟨_, hnow, hwrite, hawaits.queue_eq_nil, hqueue, rfl, ?_⟩
    rw [run_of_single hawaits hkind, hremembers, hprogress]
  · intro hqueued
    have hnone := immediate?_of_not_isImmediate g hqueued
    refine ⟨hnone, ?_⟩
    unfold writeDrawing
    rw [if_neg hfree, hnone]

/-- An offset that arrives after a download, whose words have moved the ring on, and mask
settings, which are queued. -/
theorem immediate_agrees_after_download :
    let g := (initial .drop).performAll [.write 0 0xC0000000, .write 0 0, .write 0 0x00010001]
    Reachable .drop g ∧ g.progress.inProgress = false ∧
      IsImmediate (opcodeOf 0xE5004003) ∧ ¬ IsImmediate (opcodeOf 0xE6000003) ∧
      run { g with queue := g.queue.push 0xE5004003 } =
        { g.writeDrawing 0xE5004003 with
          queue := g.queue.passedBy 0xE5004003
          progress := { (g.writeDrawing 0xE5004003).progress with opcode := 0xE5 } } ∧
      g.writeDrawing 0xE6000003 = run { g with queue := g.queue.push 0xE6000003 } := by
  intro g
  have hreachable : Reachable .drop g := Reachable.initial.performAll _
  have hidle : g.progress.inProgress = false := by decide +kernel
  have hoffset : IsImmediate (opcodeOf 0xE5004003) := by decide
  have hmasks : ¬ IsImmediate (opcodeOf 0xE6000003) := by decide
  obtain ⟨after, -, hnow, -, -, -, hsame⟩ :=
    (immediate_agrees_with_queue hreachable hidle 0xE5004003).1 hoffset
  obtain ⟨-, hqueued⟩ := (immediate_agrees_with_queue hreachable hidle 0xE6000003).2 hmasks
  refine ⟨hreachable, hidle, hoffset, hmasks, ?_, hqueued⟩
  rw [hsame, hnow]
  rfl

end Graphics
end PlayStation
