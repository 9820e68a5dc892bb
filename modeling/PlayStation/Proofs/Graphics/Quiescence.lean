import PlayStation.Proofs.Graphics.Reachable

/-!
# The drawing unit comes to rest

Carrying out the queue is a loop without a bound of its own: it goes on as long as
a round ends the command in progress or removes a word.  A round that ends a
command without removing a word finds the queue empty (`step_cases`), so from any
state the loop ends within two rounds more than there are queued words
(`rounds?_eq_run`).

In a reachable unit there is nothing left to carry out (`Quiescent`): without a
command in progress the queue is empty, and under the policy that drops commands
the queue never has more than eight words, so it takes every word that is
written (`Reachable.quiescent`).
-/

namespace PlayStation

namespace Graphics

variable {g : Graphics} {policy : UnhandledCommand}

/-- The loop that carries out the queue, cut off after a number of rounds.  It ends
when there is no command to begin, or when a round neither ends the command in
progress nor removes a word. -/
def rounds? : Nat → Graphics → Option Graphics
  | 0, _ => none
  | limit + 1, g =>
    match g.begin? with
    | none => some g
    | some g' =>
      if g'.step.progress.inProgress ∧ g'.step.queue.count = g'.queue.count then some g'.step
      else rounds? limit g'.step

/-! ## What a round does to the queue -/

/-- Taking a word leaves fewer. -/
theorem count_of_dequeue? {q q' : WordQueue} {n : Nat} {words : List UInt32} (hn : 0 < n)
    (h : q.dequeue? n = some (words, q')) : q'.count < q.count := by
  obtain ⟨hcount, hle⟩ := WordQueue.count_dequeue? h
  omega

/-- Dropping words never makes the queue longer, and leaves the unit as it is when
no word is removed. -/
theorem discard_cases (length : CommandLength) (count : Nat) (g : Graphics) :
    g.discard length count = g ∨ (g.discard length count).queue.count < g.queue.count := by
  induction count generalizing g with
  | zero => exact .inl rfl
  | succ count ih =>
      unfold discard
      split
      · rename_i word queue hdequeue
        have hless : queue.count < g.queue.count := count_of_dequeue? Nat.one_pos hdequeue
        dsimp only
        split
        · exact .inr hless
        · rcases ih { g with queue, progress := { g.progress with
              consumed := g.progress.consumed + 1 } } with hsame | hshorter
          · rw [hsame]
            exact .inr hless
          · exact .inr (Nat.lt_trans hshorter hless)
      · exact .inl rfl

@[simp] theorem complete_queue (g : Graphics) : g.complete.queue = g.queue := rfl

/-- An upload takes a word or waits. -/
theorem stepUpload_cases (g : Graphics) :
    g.stepUpload = g ∨ g.stepUpload.queue.count < g.queue.count := by
  unfold stepUpload
  split
  · split
    · rename_i hdequeue
      exact .inr (count_of_dequeue? (by decide) hdequeue)
    · exact .inl rfl
  · split
    · rename_i hdequeue _
      have hless := count_of_dequeue? Nat.one_pos hdequeue
      dsimp only
      split <;> exact .inr hless
    · rename_i hdequeue _
      exact .inr (count_of_dequeue? Nat.one_pos hdequeue)
    · exact .inl rfl

/-- **One round** does nothing, removes a word, or ends its command with an empty
queue. -/
theorem step_cases (g : Graphics) :
    g.step = g ∨ g.step.queue.count < g.queue.count ∨
      (g.step.queue.count = g.queue.count ∧ g.step.begin? = none) := by
  unfold step
  split
  -- Clearing an empty queue takes no word, but then there is nothing left to begin.
  · by_cases hempty : g.queue.count = 0
    · refine .inr (.inr ⟨hempty.symm, ?_⟩)
      rw [begin?, if_neg (by simp [Progress.complete]),
        WordQueue.opcode?_of_nil (WordQueue.toList_clear _)]
      rfl
    · exact .inr (.inl (Nat.pos_of_ne_zero hempty))
  · rename_i form _
    split
    · rename_i words queue hdequeue
      have hsame := (drawPolygon_sameCommand { g with queue } form words).1
      refine .inr (.inl ?_)
      rw [complete_queue, hsame.queue]
      exact count_of_dequeue? (Nat.zero_lt_of_lt form.one_lt_words) hdequeue
    · exact .inl rfl
  · exact (stepUpload_cases g).imp_right .inl
  · unfold startDownload
    split
    · rename_i hdequeue
      exact .inr (.inl (count_of_dequeue? (by decide) hdequeue))
    · exact .inl rfl
  · split
    · rename_i word queue hdequeue
      have hsame := (applySetting_sameCommand { g with queue } word).1
      refine .inr (.inl ?_)
      rw [complete_queue, hsame.queue]
      exact count_of_dequeue? Nat.one_pos hdequeue
    · exact .inl rfl
  · split
    · rename_i hdequeue
      exact .inr (.inl (count_of_dequeue? Nat.one_pos hdequeue))
    · exact .inl rfl
  · split
    · exact (discard_cases _ _ g).imp_right .inl
    · exact .inl rfl

/-- Beginning a command leaves the queue alone. -/
theorem begin?_eq_some {g' : Graphics} (h : g.begin? = some g') :
    g'.progress.inProgress = true ∧ g'.queue = g.queue := by
  unfold begin? at h
  split at h
  · rename_i hbusy
    obtain rfl := Option.some.inj h
    exact ⟨hbusy, rfl⟩
  · obtain ⟨opcode, -, rfl⟩ := Option.map_eq_some_iff.mp h
    exact ⟨rfl, rfl⟩

/-- A queue with no command to begin needs no further round. -/
theorem rounds?_of_done (h : g.begin? = none) {limit : Nat} (hlimit : 0 < limit) :
    g.rounds? limit = some g := by
  obtain ⟨limit, rfl⟩ := Nat.exists_eq_add_of_lt hlimit
  rw [rounds?.eq_def]
  simp only [h]

/-- **The loop ends**, and what it leaves is what `run` gives: the words in the queue
and two more rounds are enough. -/
theorem rounds?_eq_run (g : Graphics) (limit : Nat) (hlimit : g.queue.count + 2 ≤ limit) :
    g.rounds? limit = some g.run := by
  induction limit generalizing g with
  | zero => omega
  | succ limit ih =>
      unfold rounds?
      rw [run]
      cases hbegin : g.begin? with
      | none => rfl
      | some g' =>
          obtain ⟨hbusy, hqueue⟩ := begin?_eq_some hbegin
          rw [← hqueue] at hlimit ⊢
          dsimp only
          rcases g'.step_cases with hsame | hshorter | ⟨hcount, hdone⟩
          · rw [hsame, if_pos ⟨hbusy, rfl⟩, if_neg (Nat.lt_irrefl _)]
          · rw [if_neg fun hstop => Nat.ne_of_lt hshorter hstop.2, if_pos hshorter]
            exact ih g'.step (by omega)
          · have hidle : ¬ g'.step.progress.inProgress = true := by
              intro hstill
              rw [begin?, if_pos hstill] at hdone
              cases hdone
            rw [if_neg fun hstop => hidle hstop.1, if_neg (by omega)]
            exact rounds?_of_done hdone (by omega)

/-! ## Nothing is left to do -/

/-- The drawing unit at rest, between two operations. -/
structure Quiescent (policy : UnhandledCommand) (g : Graphics) : Prop where
  /-- Without a command in progress no word is queued or expected. -/
  idle : g.progress.inProgress = false →
    g.queue.toList = [] ∧ g.progress.remaining = 0 ∧ g.progress.consumed = 0
  /-- Carrying out the queue again changes nothing. -/
  run_eq : g.run = g
  /-- A unit that drops commands queues fewer words than the command at the head
  takes, and that command is in progress. -/
  short : policy = .drop → ∀ first rest, g.queue.toList = first :: rest →
    g.progress.inProgress = true ∧ g.progress.opcode = opcodeOf first ∧
      rest.length + 1 < (Command.ofOpcode (opcodeOf first)).takes
  /-- Such a unit queues at most eight words, so there is room for the next one. -/
  room : policy = .drop → g.queue.count ≤ 8 ∧
    ∀ word, (g.queue.push word).toList = g.queue.toList ++ [word]

set_option maxRecDepth 2000 in
/-- No command that is carried out takes more than nine words at once. -/
theorem takes_ofOpcode_le (opcode : UInt8) : (Command.ofOpcode opcode).takes ≤ 9 := by
  revert opcode
  exact Bits.forall_byte (by decide)

/-- A unit that does not stall keeps no complete command in the queue. -/
theorem Awaits.short {pending : List UInt32} (h : Awaits g pending)
    (hdrop : g.unhandledCommand = .drop) {first : UInt32} {rest : List UInt32}
    (hqueue : g.queue.toList = first :: rest) :
    g.progress.inProgress = true ∧ g.progress.opcode = opcodeOf first ∧
      rest.length + 1 < (Command.ofOpcode (opcodeOf first)).takes := by
  cases h with
  | queued queue progress upload short =>
      obtain ⟨rfl, rfl⟩ := List.cons.inj (queue.symm.trans hqueue)
      exact ⟨by rw [progress], by rw [progress], short⟩
  | stalled policy command queue progress upload => cases hdrop.symm.trans policy
  | idle queue progress upload => cases queue.symm.trans hqueue
  | uploading opcode queue progress upload short => cases queue.symm.trans hqueue
  | dropping policy command queue progress upload short => cases queue.symm.trans hqueue

/-- **A settled unit is quiescent.** -/
theorem Settled.quiescent (h : Settled policy g) : Quiescent policy g := by
  obtain ⟨hpolicy, pending, hawaits⟩ := h
  have hshort (hdrop : policy = .drop) {first : UInt32} {rest : List UInt32}
      (hqueue : g.queue.toList = first :: rest) := hawaits.short (hpolicy.trans hdrop) hqueue
  have hcount (hdrop : policy = .drop) : g.queue.count ≤ 8 := by
    rw [← WordQueue.length_toList]
    cases hqueue : g.queue.toList with
    | nil => exact Nat.zero_le 8
    | cons first rest =>
        have hless := (hshort hdrop hqueue).2.2
        have hnine := takes_ofOpcode_le (opcodeOf first)
        rw [List.length_cons]
        omega
  refine ⟨?_, hawaits.run_eq, fun hdrop first rest hqueue => hshort hdrop hqueue, ?_⟩
  · intro hidle
    obtain rfl := hawaits.pending_eq_nil hidle
    cases hawaits with
    | idle queue progress upload => exact ⟨queue, by rw [progress], by rw [progress]⟩
  · intro hdrop
    refine ⟨hcount hdrop, fun word => WordQueue.toList_push rfl ?_ word⟩
    rw [WordQueue.length_toList, WordQueue.capacity]
    exact Nat.lt_of_le_of_lt (hcount hdrop) (by decide)

/-- **Quiescence.**  From every state the loop that carries out the queue ends,
within two rounds more than there are queued words, and leaves what `run` gives;
and a reachable unit is at rest. -/
theorem dispatch_quiescent :
    (∀ g : Graphics, g.rounds? (g.queue.count + 2) = some g.run) ∧
      ∀ (policy : UnhandledCommand) (g : Graphics), Reachable policy g → Quiescent policy g :=
  ⟨fun g => rounds?_eq_run g _ (Nat.le_refl _), fun _ _ h => h.settled.quiescent⟩

/-- A unit that waits for the last corner of a triangle. -/
theorem quiescent_of_triangle :
    let g := (initial .drop).performAll [.write 0 0x20000000, .write 0 0, .write 0 10]
    Reachable .drop g ∧ Quiescent .drop g := by
  intro g
  have hreachable : Reachable .drop g := Reachable.initial.performAll _
  exact ⟨hreachable, dispatch_quiescent.2 .drop g hreachable⟩

end Graphics
end PlayStation
