import PlayStation.Proofs.Graphics.Reachable

/-!
# A command that stalls

Under the policy that does not drop commands, one that cannot be carried out stays at
the head of the queue (`Stalled`).  A word of the drawing port is then queued as long
as there is room and does nothing else (`Stalled.writeDrawing`), and everything but a
reset goes its way beside the queue (`Stalled.perform_queue`).  So after any
operations the unit is where those that bring no such word lead, with the words in
its queue (`Stalled.performAll_without_words`).

* `stalled_until_reset` — what a unit does between the stall and a reset, and how it
  goes on after one.
-/

namespace PlayStation

/-- Of a list that is cut twice at the same place, nothing is kept that the second cut
alone would not keep. -/
theorem take_append_of_take {α : Type} (l l' : List α) (n : Nat) :
    (l.take n ++ l').take n = (l ++ l').take n := by
  have hrest : n - (l.take n).length = n - l.length := by
    rw [List.length_take]
    omega
  rw [List.take_append, List.take_append, List.take_take, Nat.min_self, hrest]

namespace WordQueue

/-- A word is queued behind the others, or dropped if that makes too many. -/
theorem toList_push_eq_take (q : WordQueue) (word : UInt32) :
    (q.push word).toList = (q.toList ++ [word]).take capacity := by
  have hle : q.count ≤ capacity := q.count_le
  by_cases hroom : q.toList.length < capacity
  · rw [toList_push rfl hroom, List.take_of_length_le]
    rw [List.length_append, List.length_singleton]
    exact hroom
  · rw [length_toList] at hroom
    have hfull : q.count = capacity := Nat.le_antisymm hle (Nat.not_lt.mp hroom)
    rw [push, enqueue?_eq_none_iff.mpr hfull, Option.getD_none, ← hfull, ← length_toList,
      List.take_left]

end WordQueue

namespace Graphics

/-- The word that an operation brings to the drawing port. -/
def Operation.drawing? : Operation → Option UInt32
  | .write offset word => if offset &&& 4 = 0 then some word else none
  | .dmaWrite _ word => some word
  | _ => none

/-- Whether an operation forgets the command in progress. -/
def Operation.abandons : Operation → Bool
  | .write offset word => offset &&& 4 != 0 && PlayStation.abandons word
  | .reset => true
  | _ => false

/-- The words for the drawing port are those stored where bit 2 of the offset is clear. -/
theorem Operation.drawing?_write_eq_some {offset written word : UInt32}
    (h : (Operation.write offset written).drawing? = some word) :
    offset &&& 4 = 0 ∧ written = word := by
  dsimp only [drawing?] at h
  split at h
  · exact ⟨by assumption, Option.some.inj h⟩
  · cases h

/-- What is known of a write that neither brings a word to the drawing port nor
resets. -/
theorem Operation.control_of_write {offset word : UInt32}
    (hother : (Operation.write offset word).drawing? = none)
    (hkeeps : (Operation.write offset word).abandons = false) :
    offset &&& 4 ≠ 0 ∧ PlayStation.abandons word = false := by
  have hport : offset &&& 4 ≠ 0 := by
    intro hport
    dsimp only [drawing?] at hother
    rw [if_pos hport] at hother
    cases hother
  refine ⟨hport, ?_⟩
  dsimp only [abandons] at hkeeps
  rw [bne_iff_ne.mpr hport] at hkeeps
  exact hkeeps

/-- A unit that keeps a command which it does not carry out. -/
structure Stalled (g : Graphics) : Prop where
  policy : g.unhandledCommand = .stall
  inProgress : g.progress.inProgress = true
  command : Command.ofOpcode g.progress.opcode = .unhandled

/-- A control word that is not a reset does not look at the queue. -/
theorem control_queue (g : Graphics) {word : UInt32} (hkeeps : abandons word = false)
    (q : WordQueue) : control { g with queue := q } word = { g.control word with queue := q } := by
  obtain ⟨hreset, hforget⟩ := Bool.or_eq_false_iff.mp hkeeps
  unfold control
  split
  case h_1 hcommand =>
    rw [hcommand] at hreset
    cases hreset
  case h_2 hcommand =>
    rw [hcommand] at hforget
    cases hforget
  case h_10 => split <;> rfl
  all_goals rfl

/-- What a read leaves of a unit does not depend on its queue. -/
theorem read_queue (g : Graphics) (offset : UInt32) (q : WordQueue) :
    (read { g with queue := q } offset).2 = { (g.read offset).2 with queue := q } := by
  unfold read readDrawing
  split
  · dsimp only
    split <;> rfl
  · rfl

namespace Stalled

variable {g : Graphics} {operation : Operation}

/-- Whether a unit is stalled depends on the command in progress and the policy alone. -/
theorem congr {g h : Graphics} (hsame : SameCommand g h) (hg : Stalled g) : Stalled h where
  policy := hsame.policy.trans hg.policy
  inProgress := hsame.progress ▸ hg.inProgress
  command := hsame.progress ▸ hg.command

/-- Another queue does not make the command go on. -/
theorem requeue (h : Stalled g) (q : WordQueue) : Stalled { g with queue := q } :=
  ⟨h.policy, h.inProgress, h.command⟩

/-- A stalled unit makes no round of the queue. -/
theorem run_eq (h : Stalled g) : g.run = g := by
  have hbegin : g.begin? = some g := by rw [begin?, if_pos h.inProgress]
  have hstep : g.step = g := step_of_stalled h.policy h.command
  rw [run, hbegin]
  dsimp only
  rw [hstep, if_neg (Nat.lt_irrefl _)]

/-- The command is the one whose first word leads the queue. -/
theorem opcode?_eq (h : Stalled g) {policy : UnhandledCommand} (hsettled : Settled policy g) :
    g.queue.opcode? = some g.progress.opcode := by
  obtain ⟨pending, hawaits⟩ := hsettled.awaits
  have hcommand := h.command
  cases hawaits with
  | idle queue progress upload =>
      have hbusy := h.inProgress
      rw [progress] at hbusy
      cases hbusy
  | queued queue progress upload short =>
      rw [WordQueue.opcode?_of_toList queue, progress]
  | uploading opcode queue progress upload short =>
      rw [progress] at hcommand
      cases hcommand.symm.trans ((ofOpcode_eq_iff _).1.mpr opcode)
  | dropping policy command queue progress upload short => cases h.policy.symm.trans policy
  | stalled policy command queue progress upload =>
      rw [WordQueue.opcode?_of_toList queue, progress]

/-! ## One operation -/

/-- **A word of the drawing port** is queued and nothing else. -/
theorem writeDrawing (h : Stalled g) (word : UInt32) :
    g.writeDrawing word = { g with queue := g.queue.push word } := by
  unfold Graphics.writeDrawing
  rw [if_pos h.inProgress]
  exact (h.requeue _).run_eq

/-- A word for the drawing port is queued, or lost if the queue is full. -/
theorem perform_drawing (h : Stalled g) {word : UInt32} (hword : operation.drawing? = some word) :
    (g.perform operation).2 = { g with queue := g.queue.push word } := by
  cases operation with
  | write offset written =>
      obtain ⟨hport, rfl⟩ := Operation.drawing?_write_eq_some hword
      dsimp only [Graphics.perform]
      rw [Graphics.write, if_pos hport]
      exact h.writeDrawing written
  | dmaWrite clock written =>
      obtain rfl : written = word := Option.some.inj hword
      exact h.writeDrawing written
  | _ => cases hword

/-- A write to the control port that is not a reset is carried out beside the command. -/
theorem perform_control (h : Stalled g) {offset word : UInt32} (hport : offset &&& 4 ≠ 0)
    (hkeeps : abandons word = false) :
    (g.perform (.write offset word)).2 = g.control word ∧ SameCommand g (g.control word) := by
  rcases control_cases g word with ⟨habandons, -⟩ | ⟨-, hsame⟩
  · cases hkeeps.symm.trans habandons
  · refine ⟨?_, hsame⟩
    dsimp only [Graphics.perform]
    rw [Graphics.write, if_neg hport, writeControl]
    exact (h.congr hsame).run_eq

/-- Everything but a word of the drawing port and a reset leaves the command and the
queue alone. -/
theorem perform_other (h : Stalled g) (hother : operation.drawing? = none)
    (hkeeps : operation.abandons = false) : SameCommand g (g.perform operation).2 := by
  cases operation with
  | write offset word =>
      obtain ⟨hport, hkept⟩ := Operation.control_of_write hother hkeeps
      obtain ⟨hwrite, hsame⟩ := h.perform_control hport hkept
      rw [hwrite]
      exact hsame
  | read offset => exact read_sameCommand g offset
  | dmaWrite clock word => cases hother
  | dmaRead clock => exact read_sameCommand g 0
  | writePixel x y pixel => exact ⟨rfl, rfl, rfl, rfl⟩
  | readPixel x y => exact ⟨rfl, rfl, rfl, rfl⟩
  | writeRect x y width height pixels =>
      dsimp only [Graphics.perform]
      split
      · rename_i hwrite
        exact writeRect_sameCommand hwrite
      · exact ⟨rfl, rfl, rfl, rfl⟩
  | reset => cases hkeeps

/-- What a stalled unit does with an operation does not depend on its queue. -/
theorem perform_queue (h : Stalled g) (hother : operation.drawing? = none)
    (hkeeps : operation.abandons = false) (q : WordQueue) :
    (perform { g with queue := q } operation).2 = { (g.perform operation).2 with queue := q } := by
  cases operation with
  | write offset word =>
      obtain ⟨hport, hkept⟩ := Operation.control_of_write hother hkeeps
      rw [(h.perform_control hport hkept).1, ((h.requeue q).perform_control hport hkept).1]
      exact control_queue g hkept q
  | read offset => exact read_queue g offset q
  | dmaWrite clock word => cases hother
  | dmaRead clock => exact read_queue g 0 q
  | writePixel x y pixel => rfl
  | readPixel x y => rfl
  | writeRect x y width height pixels =>
      dsimp only [Graphics.perform, Graphics.writeRect]
      cases g.vram.writeRect x y width height pixels <;> rfl
  | reset => cases hkeeps

/-! ## A run without a reset -/

section Run

variable {operations : List Operation}

/-- **The command stays where it is**, and the queue keeps the words that find room. -/
theorem performAll (h : Stalled g)
    (hkeeps : ∀ operation ∈ operations, operation.abandons = false) :
    Stalled (g.performAll operations) ∧ (g.performAll operations).progress = g.progress ∧
      (g.performAll operations).queue.toList =
        (g.queue.toList ++ operations.filterMap Operation.drawing?).take WordQueue.capacity := by
  induction operations generalizing g with
  | nil =>
      have hle : g.queue.toList.length ≤ WordQueue.capacity := by
        rw [WordQueue.length_toList]
        exact g.queue.count_le
      refine ⟨h, rfl, ?_⟩
      rw [List.filterMap_nil, List.append_nil, List.take_of_length_le hle]
      rfl
  | cons operation later ih =>
      obtain ⟨hfirst, hlater⟩ := List.forall_mem_cons.mp hkeeps
      change Stalled ((g.perform operation).2.performAll later) ∧
        ((g.perform operation).2.performAll later).progress = g.progress ∧
        ((g.perform operation).2.performAll later).queue.toList = _
      cases hword : operation.drawing? with
      | some word =>
          rw [h.perform_drawing hword, List.filterMap_cons_some hword]
          obtain ⟨hstalled, hprogress, hqueue⟩ := ih (h.requeue (g.queue.push word)) hlater
          refine ⟨hstalled, hprogress, hqueue.trans ?_⟩
          -- What a full queue drops would not have been kept afterwards either.
          rw [WordQueue.toList_push_eq_take, take_append_of_take, List.append_assoc,
            List.singleton_append]
      | none =>
          have hsame := h.perform_other hword hfirst
          obtain ⟨hstalled, hprogress, hqueue⟩ := ih (h.congr hsame) hlater
          rw [List.filterMap_cons_none hword]
          exact ⟨hstalled, hprogress.trans hsame.progress, hsame.queue ▸ hqueue⟩

/-- **The words do nothing but fill the queue.**  Without them the unit would come to
the same state, with the queue of the beginning. -/
theorem performAll_without_words (h : Stalled g)
    (hkeeps : ∀ operation ∈ operations, operation.abandons = false) (q : WordQueue) :
    { g.performAll operations with queue := q } =
      Graphics.performAll { g with queue := q }
        (operations.filter fun operation => operation.drawing?.isNone) := by
  induction operations generalizing g with
  | nil => rfl
  | cons operation later ih =>
      obtain ⟨hfirst, hlater⟩ := List.forall_mem_cons.mp hkeeps
      change { (g.perform operation).2.performAll later with queue := q } = _
      cases hword : operation.drawing? with
      | some word =>
          rw [h.perform_drawing hword, ih (h.requeue _) hlater,
            List.filter_cons_of_neg (by rw [hword]; exact Bool.false_ne_true)]
      | none =>
          rw [ih (h.congr (h.perform_other hword hfirst)) hlater, List.filter_cons_of_pos
            (by rw [hword]; rfl), ← h.perform_queue hword hfirst q]
          rfl

end Run

end Stalled

/-! ## After a reset -/

variable {g : Graphics}

/-- **A reset forgets the command in progress**, whatever it is, and all queued words. -/
theorem Settled.awaits_of_abandons {policy : UnhandledCommand} (h : Settled policy g)
    {recovery : Operation} (habandons : recovery.abandons = true) :
    Awaits (g.perform recovery).2 [] := by
  cases recovery with
  | write offset word =>
      obtain ⟨hport, hword⟩ := (Bool.and_eq_true _ _).mp habandons
      obtain ⟨pending, hawaits⟩ := h.awaits
      obtain ⟨hwrite, hidle⟩ := hawaits.writeControl word
      rw [if_pos hword] at hidle
      dsimp only [Graphics.perform]
      rw [Graphics.write, if_neg (bne_iff_ne.mp hport), hwrite]
      exact hidle
  | reset => exact .idle rfl rfl rfl
  | _ => cases habandons

/-- What is pending after the first word of a command: nothing if the word is the whole
of it, unless it stalls. -/
def pendingAfterFirst (word : UInt32) : List UInt32 :=
  if Command.ofOpcode (opcodeOf word) ≠ .unhandled ∧ isComplete [word] = true then []
  else [word]

/-- A unit that stalls at commands begins a command with the next word when none is
in progress. -/
theorem Awaits.writeDrawing_first (h : Awaits g []) (hpolicy : g.unhandledCommand = .stall)
    (word : UInt32) : Awaits (g.writeDrawing word) (pendingAfterFirst word) ∧
      (g.writeDrawing word).atRest = g.atRest.arrive [] word := by
  unfold pendingAfterFirst
  by_cases hcommand : Command.ofOpcode (opcodeOf word) = .unhandled
  · obtain ⟨hawaits, hrest⟩ := awaits_first_stalled h hpolicy hcommand
    have harrive : g.atRest.arrive [] word = g.atRest := by
      simp only [arrive, List.nil_append, List.headD_cons, hcommand, carryOut, ite_self]
    rw [if_neg (fun hdone => hdone.1 hcommand), harrive]
    exact ⟨hawaits, hrest⟩
  · have harrived := arrived_writeDrawing h word fun hstalls => absurd hstalls hcommand
    refine ⟨?_, harrived.unit⟩
    by_cases hcomplete : isComplete [word] = true
    · rw [if_pos ⟨hcommand, hcomplete⟩]
      have hawaits := harrived.awaits
      rw [List.nil_append, if_pos hcomplete] at hawaits
      exact hawaits
    · rw [if_neg fun hdone => hcomplete hdone.2]
      have hawaits := harrived.awaits
      rw [List.nil_append, if_neg hcomplete] at hawaits
      exact hawaits

/-- **A stalled unit stays stalled until it is reset.**  Take a reachable unit that does
not drop commands, with a command in progress that it does not carry out, and any
operations but resets.

* The command stays in progress, as it was, at the head of the queue.
* The queue holds the words that it held and then those written to the drawing port,
  in their order, sixteen in all; further ones are dropped.
* Whatever word the drawing port gets, it is queued or dropped, and nothing else of
  the unit changes.
* Everything but the queue is where the operations lead that bring no word to the
  drawing port.
* A reset, by either control word or from outside, leaves no command in progress and
  no word queued.  The next word, whatever it is, is the first one of a command, and
  does what it does as such. -/
theorem stalled_until_reset (h : Reachable .stall g) (hbusy : g.progress.inProgress = true)
    (hcommand : Command.ofOpcode g.progress.opcode = .unhandled) (operations : List Operation)
    (hkeeps : ∀ operation ∈ operations, operation.abandons = false) :
    let after := g.performAll operations
    after.progress = g.progress ∧ after.queue.opcode? = some g.progress.opcode ∧
      after.queue.toList =
        (g.queue.toList ++ operations.filterMap Operation.drawing?).take WordQueue.capacity ∧
      (∀ word, after.writeDrawing word = { after with queue := after.queue.push word }) ∧
      { after with queue := g.queue } =
        g.performAll (operations.filter fun operation => operation.drawing?.isNone) ∧
      ∀ recovery : Operation, recovery.abandons = true →
        let idle := (after.perform recovery).2
        idle.progress.inProgress = false ∧ idle.queue.toList = [] ∧ idle.upload = none ∧
          ∀ word, Awaits (idle.writeDrawing word) (pendingAfterFirst word) ∧
            (idle.writeDrawing word).atRest = idle.atRest.arrive [] word := by
  intro after
  have hstalled : Stalled g := ⟨h.settled.policy, hbusy, hcommand⟩
  obtain ⟨hstill, hprogress, hqueue⟩ := hstalled.performAll hkeeps
  have hreachable : Reachable .stall after := h.performAll operations
  refine ⟨hprogress, ?_, hqueue, hstill.writeDrawing,
    hstalled.performAll_without_words hkeeps g.queue, ?_⟩
  · rw [← hprogress]
    exact hstill.opcode?_eq hreachable.settled
  · intro recovery habandons idle
    have hidle : Awaits idle [] := hreachable.settled.awaits_of_abandons habandons
    have hpolicy : idle.unhandledCommand = .stall := (hreachable.perform recovery).settled.policy
    refine ⟨?_, ?_, ?_, hidle.writeDrawing_first hpolicy⟩
    · exact Bool.eq_false_iff.mpr fun hinProgress => hidle.inProgress_iff.mp hinProgress rfl
    · cases hidle with
      | idle queue progress upload => exact queue
    · cases hidle with
      | idle queue progress upload => exact upload

/-- A line command, and a triangle behind it that is never drawn. -/
theorem stalled_until_reset_of_line :
    let g := (initial .stall).performAll [.write 0 0x40000000]
    let operations : List Operation := [.write 0 0x200000FF, .write 0 0, .write 4 0x03000001,
      .dmaWrite ⟨0⟩ 10, .read 4, .write 0 0x000A0000]
    let after := g.performAll operations
    let idle := (after.perform (.write 4 0x01000000)).2
    g.progress.inProgress = true ∧ Command.ofOpcode g.progress.opcode = .unhandled ∧
      after.queue.toList = [0x40000000, 0x200000FF, 0, 10, 0x000A0000] ∧
      ∀ word, Awaits (idle.writeDrawing word) (pendingAfterFirst word) := by
  intro g operations after idle
  have hreachable : Reachable .stall g := Reachable.initial.performAll _
  have hbusy : g.progress.inProgress = true := by decide +kernel
  have hcommand : Command.ofOpcode g.progress.opcode = .unhandled := by decide +kernel
  have hkeeps : ∀ operation ∈ operations, operation.abandons = false := by decide +kernel
  obtain ⟨-, -, hqueue, -, -, hrecovery⟩ :=
    stalled_until_reset hreachable hbusy hcommand operations hkeeps
  refine ⟨hbusy, hcommand, hqueue.trans (by decide +kernel), fun word => ?_⟩
  exact ((hrecovery (.write 4 0x01000000) (by decide)).2.2.2 word).1

end Graphics
end PlayStation
