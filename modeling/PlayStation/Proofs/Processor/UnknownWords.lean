import PlayStation.Clock
import PlayStation.Proofs.Processor.LoadDelay
import PlayStation.Proofs.Processor.Run

/-!
# Words that are no instructions

Whether a word is an instruction is told by three tables (`Instruction.Encodes`), and
`decode` agrees with them (`decode_eq_unknown_iff`).  What the processor does with a word
that is none is a policy of its own, and nothing else looks at that policy.  So two
processors that differ only in it stay alike, with all that they do to their buses and
clocks, until a tick executes such a word (`performAll_withPolicy`).

* `ignores_of_unknown`, `trap?_of_unknown` — what that tick does under either policy.
-/

namespace PlayStation

open Bits

namespace Instruction

/-! ## The tables -/

/-- The opcodes that stand for an instruction by themselves. -/
def primaryOpcodes : List Nat :=
  [0x01, 0x02, 0x03, 0x04, 0x05, 0x06, 0x07, 0x08, 0x09, 0x0A, 0x0B, 0x0C, 0x0D, 0x0E, 0x0F,
    0x11, 0x12, 0x13, 0x20, 0x21, 0x22, 0x23, 0x24, 0x25, 0x26, 0x28, 0x29, 0x2A, 0x2B, 0x2E,
    0x30, 0x31, 0x32, 0x33, 0x38, 0x39, 0x3A, 0x3B]

/-- The functions of opcode 0. -/
def specialFunctions : List Nat :=
  [0x00, 0x02, 0x03, 0x04, 0x06, 0x07, 0x08, 0x09, 0x0C, 0x0D, 0x10, 0x11, 0x12, 0x13, 0x18,
    0x19, 0x1A, 0x1B, 0x20, 0x21, 0x22, 0x23, 0x24, 0x25, 0x26, 0x27, 0x2A, 0x2B]

/-- The moves from and to control registers, among the operations of opcode 16. -/
def controlMoves : List Nat :=
  [0x00, 0x02, 0x04, 0x06]

/-- Whether a word is an instruction.  An operation on the control registers from 16 on
is one if its function is the return from an exception. -/
def Encodes (word : UInt32) : Prop :=
  let opcode := (word >>> 26).toNat
  let function := (slice word 0 6).toNat
  let operation := (slice word 21 5).toNat
  if opcode = 0x00 then function ∈ specialFunctions
  else if opcode = 0x10 then operation ∈ controlMoves ∨ 0x10 ≤ operation ∧ function = 0x10
  else opcode ∈ primaryOpcodes

instance : DecidablePred Encodes := fun word => by
  unfold Encodes
  infer_instance

/-- With opcode 0 a word is unknown if its function is not in the list. -/
theorem decodeSpecial_eq_unknown_iff (word : UInt32) :
    decodeSpecial word = unknown ↔ (slice word 0 6).toNat ∉ specialFunctions := by
  unfold decodeSpecial
  generalize (slice word 0 6).toNat = function
  dsimp only
  split <;> simp_all [specialFunctions]

/-- A word for the control registers is unknown if it neither moves nor returns. -/
theorem decodeControl_eq_unknown_iff (word : UInt32) :
    decodeControl word = unknown ↔
      ¬ ((slice word 21 5).toNat ∈ controlMoves ∨
        0x10 ≤ (slice word 21 5).toNat ∧ (slice word 0 6).toNat = 0x10) := by
  have hfunction : slice word 0 6 = 0x10 ↔ (slice word 0 6).toNat = 0x10 :=
    UInt32.toNat_inj.symm
  unfold decodeControl
  simp only [hfunction]
  generalize (slice word 21 5).toNat = operation
  split
  case h_5 => split <;> simp_all [controlMoves]
  all_goals simp [controlMoves]

/-- With opcode 1 every word is a branch. -/
theorem decodeZeroBranch_ne_unknown (word : UInt32) : decodeZeroBranch word ≠ unknown := by
  unfold decodeZeroBranch
  dsimp only
  split <;> nofun

/-- **The tables say which words are instructions.** -/
theorem decode_eq_unknown_iff (word : UInt32) : decode word = unknown ↔ ¬ Encodes word := by
  have hspecial := decodeSpecial_eq_unknown_iff word
  have hcontrol := decodeControl_eq_unknown_iff word
  have hzero := decodeZeroBranch_ne_unknown word
  unfold decode Encodes
  generalize (word >>> 26).toNat = opcode
  dsimp only
  split
  case h_1 => rw [if_pos rfl, hspecial]
  case h_2 => simp [hzero, primaryOpcodes]
  case h_17 => rw [if_neg (by decide), if_pos rfl, hcontrol]
  case h_41 => simp_all [primaryOpcodes]
  all_goals simp [primaryOpcodes]

end Instruction

namespace Processor

variable {β : Type} [Bus β]

/-! ## Another policy -/

/-- The processor with another policy for words that are no instructions. -/
def withPolicy (p : Processor) (policy : UnknownOpcode) : Processor :=
  { p with unknownOpcode := policy }

/-- The word that a tick executes: the fetched one, unless an interrupt comes first. -/
def executed? (p : Processor) (bus : β) : Option UInt32 :=
  match (p.fetch bus).1 with
  | .error _ => none
  | .ok fetched => if p.control.interruptPending then none else some fetched.word

/-- A tick executes a word that it has fetched, with no interrupt pending. -/
theorem fetch_of_executed? {p : Processor} {bus : β} {word : UInt32}
    (h : p.executed? bus = some word) :
    p.control.interruptPending = false ∧
      ∃ fetched, (p.fetch bus).1 = .ok fetched ∧ fetched.word = word := by
  unfold executed? at h
  split at h
  · cases h
  · rename_i fetched hfetch
    split at h
    · cases h
    · rename_i hinterrupt
      exact ⟨Bool.eq_false_iff.mpr hinterrupt, fetched, hfetch, Option.some.inj h⟩

variable (p : Processor) (policy : UnknownOpcode)

/-- A fetch does not look at the policy. -/
theorem fetch_withPolicy (bus : β) :
    (p.withPolicy policy).fetch bus =
      ((p.fetch bus).1, (p.fetch bus).2.1.withPolicy policy, (p.fetch bus).2.2) := by
  have hmisaligned : (p.withPolicy policy).misalignedFetch = p.misalignedFetch := rfl
  unfold fetch
  rw [hmisaligned]
  cases p.misalignedFetch with
  | some trap => rfl
  | none =>
      dsimp only [withPolicy, fetchCached]
      rcases p.cache.fetch _ _ bus with ⟨_ | _, _, _⟩ <;> rfl

/-- Making ready does not look at it. -/
theorem ready_withPolicy (bus : β) :
    (p.withPolicy policy).ready bus = (p.ready bus).withPolicy policy := by
  unfold ready
  rw [fetch_withPolicy]
  rfl

/-- So the word that a tick executes does not depend on it. -/
theorem executed?_withPolicy (bus : β) :
    (p.withPolicy policy).executed? bus = p.executed? bus := by
  unfold executed?
  rw [fetch_withPolicy]
  rfl

/-- No instruction looks at the policy. -/
theorem effect_withPolicy {instruction : Instruction} (h : instruction ≠ .unknown) (bus : β) :
    (p.withPolicy policy).effect instruction bus = p.effect instruction bus := by
  cases instruction with
  | load kind target base offset => rfl
  | store kind source base offset => rfl
  | unknown => exact absurd rfl h
  | _ => rfl

theorem settle_conclude_withPolicy (result : Except Trap Effect) :
    ((p.withPolicy policy).conclude result).settle =
      ((p.conclude result).settle).withPolicy policy := by
  cases result with
  | error trap => simp only [conclude, raise_eq, settle_eq]; rfl
  | ok e =>
      simp only [conclude, settle_apply]
      cases e <;> rfl

/-- What a tick comes to is the same under either policy, unless it executes a word that
is no instruction. -/
theorem outcome_withPolicy (bus : β)
    (h : ∀ word, p.executed? bus = some word → Instruction.Encodes word) :
    (p.withPolicy policy).outcome bus = p.outcome bus := by
  unfold outcome
  rw [ready_withPolicy, fetch_withPolicy]
  rcases hfetch : (p.fetch bus).1 with trap | fetched
  · rfl
  · have hcontrol : ((p.ready bus).withPolicy policy).control = p.control := control_ready p bus
    dsimp only
    rw [hcontrol, control_ready]
    by_cases hinterrupt : p.control.interruptPending = true
    · rw [if_pos hinterrupt, if_pos hinterrupt]
    · have hexecuted : p.executed? bus = some fetched.word := by
        unfold executed?
        rw [hfetch]
        exact if_neg hinterrupt
      rw [if_neg hinterrupt, if_neg hinterrupt]
      refine effect_withPolicy _ _ (fun hunknown => ?_) _
      exact (Instruction.decode_eq_unknown_iff _).mp hunknown (h _ hexecuted)

/-- **One tick** does the same under either policy, unless it executes a word that is no
instruction. -/
theorem tick_withPolicy (bus : β)
    (h : ∀ word, p.executed? bus = some word → Instruction.Encodes word) :
    (p.withPolicy policy).tick bus =
      ((p.tick bus).1, (p.tick bus).2.1.withPolicy policy, (p.tick bus).2.2) := by
  rw [tick_eq, tick_eq, outcome_withPolicy p policy bus h, ready_withPolicy, fetch_withPolicy,
    settle_conclude_withPolicy]

end Processor

/-! ## Runs on a bus -/

/-- A processor on a bus, with the clock that counts its cycles. -/
structure Rig (β : Type) where
  processor : Processor
  bus : β
  clock : Clock

/-- What happens to a rig: a tick, or a change of the interrupt lines. -/
inductive Signal where
  | lines (value : UInt32)
  | tick
  deriving DecidableEq, Repr

namespace Rig

variable {β : Type} [Bus β]

def perform (rig : Rig β) : Signal → Rig β
  | .lines value => { rig with processor := rig.processor.setInterruptLines value }
  | .tick =>
      let (cycles, processor, bus) := rig.processor.tick rig.bus
      ⟨processor, bus, rig.clock.consume cycles⟩

def performAll (rig : Rig β) (signals : List Signal) : Rig β :=
  signals.foldl perform rig

/-- The rig with another policy of its processor. -/
def withPolicy (rig : Rig β) (policy : UnknownOpcode) : Rig β :=
  { rig with processor := rig.processor.withPolicy policy }

/-- Whether the ticks of a run execute instructions only. -/
def ExecutesInstructions : Rig β → List Signal → Prop
  | _, [] => True
  | rig, signal :: later =>
      (signal = .tick → ∀ word, rig.processor.executed? rig.bus = some word →
        Instruction.Encodes word) ∧
      ExecutesInstructions (rig.perform signal) later

/-- A signal does not look at the policy unless a tick executes a word that encodes nothing. -/
theorem perform_withPolicy (rig : Rig β) (policy : UnknownOpcode) {signal : Signal}
    (h : signal = .tick → ∀ word, rig.processor.executed? rig.bus = some word →
      Instruction.Encodes word) :
    (rig.withPolicy policy).perform signal = (rig.perform signal).withPolicy policy := by
  cases signal with
  | lines value => rfl
  | tick =>
      unfold perform withPolicy
      dsimp only
      rw [rig.processor.tick_withPolicy policy rig.bus (h rfl)]

/-- **In step.**  Runs that execute instructions only are the same under either policy. -/
theorem performAll_withPolicy {rig : Rig β} {signals : List Signal}
    (h : rig.ExecutesInstructions signals) (policy : UnknownOpcode) :
    (rig.withPolicy policy).performAll signals = (rig.performAll signals).withPolicy policy := by
  induction signals generalizing rig with
  | nil => rfl
  | cons signal later ih =>
      obtain ⟨hfirst, hlater⟩ := h
      change ((rig.withPolicy policy).perform signal).performAll later =
        ((rig.perform signal).performAll later).withPolicy policy
      rw [perform_withPolicy rig policy hfirst]
      exact ih hlater

end Rig

namespace Processor

variable {β : Type} [Bus β]

/-! ## The first word that is no instruction -/

/-- The effect of a word that is no instruction. -/
def unknownEffect : UnknownOpcode → Except Trap Effect
  | .ignore => .ok .nothing
  | .reservedInstruction => .error (.plain .reservedInstruction)

/-- A word that is no instruction does what the policy says, and nothing on the bus. -/
theorem outcome_of_unknown {p : Processor} {bus : β} {word : UInt32}
    (hexecuted : p.executed? bus = some word) (hunknown : ¬ Instruction.Encodes word) :
    p.outcome bus = (unknownEffect p.unknownOpcode, (p.fetch bus).2.2) := by
  obtain ⟨hinterrupt, fetched, hfetch, rfl⟩ := fetch_of_executed? hexecuted
  have hpolicy : (p.ready bus).unknownOpcode = p.unknownOpcode := by rw [ready_eq]
  rw [outcome_of_fetch hfetch hinterrupt, (Instruction.decode_eq_unknown_iff _).mpr hunknown]
  simp only [effect, localEffect, hpolicy]
  cases p.unknownOpcode <;> rfl

/-- The word 0 writes to register 0, and so does nothing but drop a load that is due for
that register. -/
theorem execute_zero (p : Processor) (bus : β) :
    p.execute (.decode 0) bus =
      (.ok { p with loads := ⟨p.loads.next, superseded p.loads.current 0⟩ }, bus) := by
  have hdecode : Instruction.decode 0 = .shift .left 0 0 0 := by decide
  rw [hdecode, execute_eq]
  simp only [effect, localEffect, Except.map, apply, setReg_eq, written, if_true]

theorem agreeOutside_zero (p : Processor) :
    AgreeOutside 0 { p with loads := ⟨p.loads.next, superseded p.loads.current 0⟩ }.settle
      p.settle := by
  rw [settle_eq, settle_eq]
  refine ⟨rfl, fun i hi => ?_⟩
  change (commit p.regs (superseded p.loads.current 0)).get i =
    (commit p.regs p.loads.current).get i
  cases p.loads.current with
  | none => rfl
  | some load =>
      by_cases hzero : load.reg = 0
      · have hslot : slot load.reg ≠ i := by
          rw [hzero]
          exact hi.symm
        rw [get_commit_of_ne p.regs hslot, ← hzero, superseded_self]
        rfl
      · rw [superseded_of_ne hzero]

/-- What a tick does that executes `word`, which is no instruction, under the policy to
ignore it. -/
structure Ignores (p : Processor) (bus : β) (word : UInt32) : Prop where
  /-- Executing the word has no effect at all. -/
  effect : ∀ {γ : Type} [Bus γ] (bus' : γ),
    (p.ready bus).execute (.decode word) bus' = (.ok (p.ready bus), bus')
  /-- That is what executing the word 0 does, unless a load for register 0 is due.  It
  would drop that load, so the slot of register 0, which no instruction sees, would
  differ at the end of the tick, and nothing else. -/
  like_zero : ∃ nop : Processor,
    (∀ {γ : Type} [Bus γ] (bus' : γ), (p.ready bus).execute (.decode 0) bus' = (.ok nop, bus')) ∧
    AgreeOutside 0 nop.settle (p.ready bus).settle ∧
    ((∀ load, p.pendingLoad = some load → load.reg ≠ 0) → nop = p.ready bus)
  /-- So what was pending takes effect, and the program counter advances. -/
  tick : p.tick bus =
    (fetchCycles (p.fetch bus).1 + 1,
      { p with
        regs := commit p.regs p.pendingLoad
        currentPc := p.pc
        pc := p.pendingBranch.getD (p.pc + 4)
        branches := .empty
        loads := .empty
        cache := (p.fetch bus).2.1.cache
        instruction := word },
      (p.fetch bus).2.2)

/-- **A word that is no instruction is ignored** under the one policy. -/
theorem ignores_of_unknown {p : Processor} {bus : β} {word : UInt32}
    (hexecuted : p.executed? bus = some word) (hunknown : ¬ Instruction.Encodes word)
    (hpolicy : p.unknownOpcode = .ignore) : p.Ignores bus word := by
  have hdecode := (Instruction.decode_eq_unknown_iff word).mpr hunknown
  have hready : (p.ready bus).unknownOpcode = .ignore := by rw [ready_eq, hpolicy]
  have hout := outcome_of_unknown hexecuted hunknown
  rw [hpolicy, unknownEffect] at hout
  refine ⟨fun bus' => ?_, ?_, ?_⟩
  · simp only [hdecode, execute, executeLocal, hready]
  · refine ⟨_, fun bus' => execute_zero _ bus', agreeOutside_zero _, fun hload => ?_⟩
    have hkept : superseded p.loads.next 0 = p.loads.next := by
      cases hnext : p.loads.next with
      | none => rfl
      | some load => exact superseded_of_ne (hload load hnext)
    have hloads : (p.ready bus).loads = ⟨none, p.loads.next⟩ := by rw [ready_eq]
    rw [hloads, hkept, ← hloads]
  · obtain ⟨-, fetched, hfetch, rfl⟩ := fetch_of_executed? hexecuted
    rw [tick_eq, hout]
    dsimp only [conclude]
    rw [settle_apply, ready_eq, hfetch]
    rfl

/-- **It takes a trap** under the other. -/
theorem trap?_of_unknown {p : Processor} {bus : β} {word : UInt32}
    (hexecuted : p.executed? bus = some word) (hunknown : ¬ Instruction.Encodes word)
    (hpolicy : p.unknownOpcode = .reservedInstruction) :
    p.trap? bus = some (.plain .reservedInstruction) := by
  rw [trap?_eq, outcome_of_unknown hexecuted hunknown, hpolicy]
  rfl

end Processor
end PlayStation
