import PlayStation.Proofs.Graphics.Framing

/-!
# Reachable drawing units

What can be done to the drawing unit from outside (`Operation`), and the units that
this leads to from power-on, under either policy for commands that cannot be drawn.
A reachable unit awaits the words of a command, or none (`Reachable.settled`): its
queue, its counters and its upload cursor fit together.
-/

namespace PlayStation

namespace Graphics

/-- What can be done to the drawing unit from outside. -/
inductive Operation where
  | write (offset word : UInt32)
  | read (offset : UInt32)
  | dmaWrite (clock : Clock) (word : UInt32)
  | dmaRead (clock : Clock)
  | writePixel (x y : Nat) (pixel : UInt16)
  | readPixel (x y : Nat)
  | writeRect (x y w h : Nat) (pixels : Array UInt16)
  | reset

/-- What an operation returns. -/
inductive Answer where
  | done
  | word (value : UInt32)
  | pixel (value : UInt16)
  | clock (after : Clock)
  | transferred (value : UInt32) (after : Clock)
  | refused (e : InvalidVramAccess)
  deriving DecidableEq, Repr

/-- Carries out an operation. -/
def perform (g : Graphics) : Operation → Answer × Graphics
  | .write offset word => (.done, g.write offset word)
  | .read offset => (.word (g.read offset).1, (g.read offset).2)
  | .dmaWrite clock word => (.clock (g.dmaWrite clock word).2, (g.dmaWrite clock word).1)
  | .dmaRead clock =>
      (.transferred (g.dmaRead clock).1 (g.dmaRead clock).2.2, (g.dmaRead clock).2.1)
  | .writePixel x y pixel => (.done, g.writePixel x y pixel)
  | .readPixel x y => (.pixel (g.vram.get x y), g)
  | .writeRect x y w h pixels =>
      match g.writeRect x y w h pixels with
      | .ok g => (.done, g)
      | .error e => (.refused e, g)
  | .reset => (.done, g.reset)

/-- The drawing units that power-on with a policy and operations from outside lead
to. -/
inductive Reachable (policy : UnhandledCommand) : Graphics → Prop
  | initial : Reachable policy (.initial policy)
  | perform {g : Graphics} (operation : Operation) (h : Reachable policy g) :
      Reachable policy (g.perform operation).2

variable {g : Graphics} {pending : List UInt32} {policy : UnhandledCommand}

/-- What a sequence of operations leaves. -/
def performAll (g : Graphics) (operations : List Operation) : Graphics :=
  operations.foldl (fun g operation => (g.perform operation).2) g

/-- Any operations lead from a reachable unit to a reachable one. -/
theorem Reachable.performAll (h : Reachable policy g) (operations : List Operation) :
    Reachable policy (g.performAll operations) := by
  induction operations generalizing g with
  | nil => exact h
  | cons operation later ih => exact ih (h.perform operation)

/-- A unit that has carried out what its queue allows: it awaits the words of a
command, or none. -/
structure Settled (policy : UnhandledCommand) (g : Graphics) : Prop where
  policy : g.unhandledCommand = policy
  awaits : ∃ pending, Awaits g pending

/-- Whether a unit is settled depends on the command in progress alone. -/
theorem Settled.congr {g h : Graphics} (hsame : SameCommand g h) (hg : Settled policy g) :
    Settled policy h := by
  obtain ⟨pending, hawaits⟩ := hg.awaits
  exact ⟨hsame.policy.trans hg.policy, pending, hawaits.congr hsame⟩

/-! ## Commands that stall -/

/-- A unit whose command stalls queues the words that follow, as long as there is
room. -/
theorem settled_of_stalled {first : UInt32} {rest : List UInt32}
    (policy : g.unhandledCommand = .stall)
    (command : Command.ofOpcode (opcodeOf first) = .unhandled)
    (queue : g.queue.toList = first :: rest)
    (progress : g.progress = { inProgress := true, opcode := opcodeOf first })
    (upload : g.upload = none) (word : UInt32) : Settled .stall (g.writeDrawing word) := by
  have hbusy : g.progress.inProgress = true := by rw [progress]
  obtain ⟨more, hmore⟩ := WordQueue.toList_push_of_cons queue word
  have hstalled : Awaits { g with queue := g.queue.push word } (first :: more) :=
    .stalled policy command hmore progress upload
  have hwrite : g.writeDrawing word = { g with queue := g.queue.push word } := by
    unfold writeDrawing
    rw [if_pos hbusy]
    exact hstalled.run_eq
  rw [hwrite]
  exact ⟨policy, _, hstalled⟩

/-- The first word of a command that stalls is queued, and does nothing else. -/
theorem awaits_first_stalled (h : Awaits g []) {word : UInt32}
    (policy : g.unhandledCommand = .stall)
    (command : Command.ofOpcode (opcodeOf word) = .unhandled) :
    Awaits (g.writeDrawing word) [word] ∧ (g.writeDrawing word).atRest = g.atRest := by
  have hidle : ¬ g.progress.inProgress = true := fun hbusy => h.inProgress_iff.mp hbusy rfl
  have himmediate : g.immediate? word = none := by
    have hqueued : ¬ IsImmediate (opcodeOf word) := fun hkind => by
      rcases ofOpcode_of_isImmediate _ hkind with h | h <;> cases command.symm.trans h
    rw [immediate?_eq, if_neg hqueued]
  obtain ⟨begun, hbegun, hloaded, hrest⟩ := loaded_first h word
  have hpolicy : begun.unhandledCommand = .stall := (policy_of_atRest hrest).trans policy
  have hstalled : Awaits begun [word] :=
    .stalled hpolicy command hloaded.queue hloaded.progress hloaded.upload
  have hstep : begun.step = begun := step_of_stalled hpolicy (hloaded.opcode ▸ command)
  have hwrite : g.writeDrawing word = begun := by
    unfold writeDrawing
    rw [if_neg hidle, himmediate]
    dsimp only
    rw [run_of_begin? hbegun (by rw [hstep, hstalled.run_eq]), hstep]
  rw [hwrite]
  exact ⟨hstalled, hrest⟩

/-- The first word of a command without a handler leaves a stalling unit settled. -/
theorem settled_first_stalled (h : Awaits g []) {word : UInt32}
    (policy : g.unhandledCommand = .stall)
    (command : Command.ofOpcode (opcodeOf word) = .unhandled) :
    Settled .stall (g.writeDrawing word) := by
  obtain ⟨hawaits, hrest⟩ := awaits_first_stalled h policy command
  exact ⟨(policy_of_atRest hrest).trans policy, _, hawaits⟩

/-! ## Every operation leaves the unit settled -/

/-- A word for the drawing port leaves a settled unit settled. -/
theorem Settled.writeDrawing (h : Settled policy g) (word : UInt32) :
    Settled policy (g.writeDrawing word) := by
  obtain ⟨hkept, pending, hawaits⟩ := h
  by_cases hdrop : Command.ofOpcode (opcodeOf ((pending ++ [word]).headD 0)) = .unhandled →
      g.unhandledCommand = .drop
  · have harrived := arrived_writeDrawing hawaits word hdrop
    exact ⟨harrived.policy.trans hkept, _, harrived.awaits⟩
  · obtain ⟨command, hnotDrop⟩ := Classical.not_imp.mp hdrop
    have hstall : g.unhandledCommand = .stall := by
      cases hkind : g.unhandledCommand with
      | drop => exact absurd hkind hnotDrop
      | stall => rfl
    obtain rfl : policy = .stall := hkept.symm.trans hstall
    cases hawaits with
    | idle queue progress upload =>
        exact settled_first_stalled (.idle queue progress upload) hstall command
    | queued queue progress upload short =>
        -- A command that waits for a second word is carried out.
        have hone : (Command.ofOpcode (opcodeOf _)).takes = 1 := congrArg Command.takes command
        dsimp only [List.cons_append, List.headD_cons] at hone
        omega
    | uploading opcode queue progress upload short =>
        cases command.symm.trans ((ofOpcode_eq_iff _).1.mpr opcode)
    | dropping policy _ queue progress upload short => exact absurd policy hnotDrop
    | stalled _ _ queue progress upload =>
        exact settled_of_stalled hstall command queue progress upload word

theorem Settled.write (h : Settled policy g) (offset word : UInt32) :
    Settled policy (g.write offset word) := by
  unfold Graphics.write
  split
  · exact h.writeDrawing word
  · obtain ⟨pending, hawaits⟩ := h.awaits
    obtain ⟨hwrite, hcontrol⟩ := hawaits.writeControl word
    rw [hwrite]
    exact ⟨(control_policy g word).trans h.policy, _, hcontrol⟩

/-- Reading leaves the command in progress alone. -/
theorem read_sameCommand (g : Graphics) (offset : UInt32) : SameCommand g (g.read offset).2 := by
  unfold read readDrawing
  split
  · split <;> exact ⟨rfl, rfl, rfl, rfl⟩
  · exact ⟨rfl, rfl, rfl, rfl⟩

/-- Writing pixels from outside leaves the command in progress. -/
theorem writeRect_sameCommand {g g' : Graphics} {x y w h : Nat} {pixels : Array UInt16}
    (hwrite : g.writeRect x y w h pixels = .ok g') : SameCommand g g' := by
  unfold writeRect at hwrite
  rcases hrect : g.vram.writeRect x y w h pixels with e | vram
  · rw [hrect] at hwrite
    cases hwrite
  · rw [hrect] at hwrite
    cases hwrite
    exact ⟨rfl, rfl, rfl, rfl⟩

/-- **One operation.** -/
theorem Settled.perform (h : Settled policy g) (operation : Operation) :
    Settled policy (g.perform operation).2 := by
  cases operation with
  | write offset word => exact h.write offset word
  | read offset => exact h.congr (read_sameCommand g offset)
  | dmaWrite clock word => exact h.write 0 word
  | dmaRead clock => exact h.congr (read_sameCommand g 0)
  | writePixel x y pixel =>
      have hsame : SameCommand g (g.writePixel x y pixel) := ⟨rfl, rfl, rfl, rfl⟩
      exact h.congr hsame
  | readPixel x y => exact h
  | writeRect x y width height pixels =>
      dsimp only [Graphics.perform]
      split
      · rename_i hwrite
        exact h.congr (writeRect_sameCommand hwrite)
      · exact h
  | reset => exact ⟨h.policy, [], .idle rfl rfl rfl⟩

/-- **A reachable unit awaits the words of a command, or none.** -/
theorem Reachable.settled (h : Reachable policy g) : Settled policy g := by
  induction h with
  | initial => exact ⟨rfl, [], .idle rfl rfl rfl⟩
  | perform operation h ih => exact ih.perform operation

end Graphics
end PlayStation
