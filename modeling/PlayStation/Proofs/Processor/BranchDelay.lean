import PlayStation.Memory
import PlayStation.Proofs.Processor.Reachable

/-!
# Branches take effect one instruction later

What a tick does to the flow of control is told by the fetched word alone:
`decision` reads the branch that the word decides from its fields and the
registers before the tick, and `linkRegister?` the register that it links.  The
main result is `branch_delay`: in a reachable processor a pending branch was
decided right before the program counter, a tick without a trap leaves
pending what its word decides, and a decided branch is taken after exactly one
more instruction, the one in its delay slot, unless that one decides again.
-/

namespace PlayStation

open Bits

/-- The register that an instruction word links. -/
def linkRegister? (word : UInt32) : Option Register :=
  match (word >>> 26).toNat with
  | 0x00 =>
      match (slice word 0 6).toNat with
      | 0x09 => some (Instruction.registerAt word 11)
      | _ => none
  | 0x01 => if slice word 16 5 &&& 0x1E = 0x10 then some 31 else none
  | 0x03 => some 31
  | _ => none

namespace Processor

variable {β γ : Type} [Bus β] [Bus γ]

/-- The branch that the instruction word at the program counter decides, before
the tick that executes it.  Branches count from the delay slot in words; jumps
keep the four upper bits of the delay slot's address. -/
def decision (p : Processor) (word : UInt32) : Option UInt32 :=
  let rs := p.reg (Instruction.registerAt word 21)
  let rt := p.reg (Instruction.registerAt word 16)
  let delaySlot := p.pc + 4
  let relative := delaySlot + 4 * Instruction.signedImmediate word
  let inSegment := (word &&& 0x3FFFFFF) <<< 2
  let absolute := (delaySlot &&& 0xF0000000) ||| inSegment
  match (word >>> 26).toNat with
  | 0x00 =>
      match (slice word 0 6).toNat with
      | 0x08 => some rs
      | 0x09 => some rs
      | _ => none
  | 0x01 =>
      if slice word 16 5 &&& 1 = 0 then
        if rs.toInt32 < 0 then some relative else none
      else
        if rs.toInt32 ≥ 0 then some relative else none
  | 0x02 => some absolute
  | 0x03 => some absolute
  | 0x04 => if rs = rt then some relative else none
  | 0x05 => if rs ≠ rt then some relative else none
  | 0x06 => if rs.toInt32 ≤ 0 then some relative else none
  | 0x07 => if rs.toInt32 > 0 then some relative else none
  | _ => none

/-- A word offset is four times as many bytes. -/
theorem shiftLeft_two (offset : UInt32) : offset <<< 2 = 4 * offset := by
  apply UInt32.toNat.inj
  simp only [UInt32.toNat_shiftLeft, UInt32.toNat_mul, UInt32.reduceToNat, Nat.reduceMod,
    Nat.shiftLeft_eq]
  omega

/-- Of the instructions with opcode 0, the two jumps through a register transfer control. -/
theorem transferTarget?_decodeSpecial (q : Processor) (word : UInt32) :
    q.transferTarget? (Instruction.decodeSpecial word) =
      match (slice word 0 6).toNat with
      | 0x08 => some (q.reg (Instruction.registerAt word 21))
      | 0x09 => some (q.reg (Instruction.registerAt word 21))
      | _ => none := by
  unfold Instruction.decodeSpecial
  generalize (slice word 0 6).toNat = code
  dsimp only
  split <;> first | rfl | (split <;> first | rfl | contradiction)

/-- Of the instructions with opcode 1, bit 16 chooses the condition, and all of them branch. -/
theorem transferTarget?_decodeZeroBranch (q : Processor) (word : UInt32) :
    q.transferTarget? (Instruction.decodeZeroBranch word) =
      q.branchTarget? (if slice word 16 5 &&& 1 = 0
        then .belowZero (Instruction.registerAt word 21)
        else .atLeastZero (Instruction.registerAt word 21))
        (Instruction.signedImmediate word <<< 2) := by
  unfold Instruction.decodeZeroBranch
  dsimp only
  split <;> rfl

/-- No instruction for the control registers transfers control. -/
theorem transferTarget?_decodeControl (q : Processor) (word : UInt32) :
    q.transferTarget? (Instruction.decodeControl word) = none := by
  unfold Instruction.decodeControl
  dsimp only
  split
  · rfl
  · rfl
  · rfl
  · rfl
  · split <;> rfl

/-- A condition is about registers that making ready does not change. -/
theorem holds_ready (p : Processor) (bus : β) (condition : Condition) :
    (p.ready bus).holds condition = p.holds condition := by
  cases condition <;> simp only [holds, reg_ready]

/-- A branch counts from the delay slot. -/
theorem branchTarget?_ready (p : Processor) (bus : β) (condition : Condition) (word : UInt32) :
    (p.ready bus).branchTarget? condition (Instruction.signedImmediate word <<< 2) =
      if p.holds condition then some (p.pc + 4 + 4 * Instruction.signedImmediate word)
      else none := by
  rw [branchTarget?, holds_ready, pc_ready, shiftLeft_two]

/-- **The word tells the branch.**  What the decoded instruction decides is what
the fields of the word say. -/
theorem transferTarget?_decode (p : Processor) (bus : β) (word : UInt32) :
    (p.ready bus).transferTarget? (Instruction.decode word) = p.decision word := by
  unfold Instruction.decode decision
  generalize (word >>> 26).toNat = opcode
  dsimp only
  split
  case h_1 => rw [transferTarget?_decodeSpecial, reg_ready]; rfl
  case h_2 =>
    rw [transferTarget?_decodeZeroBranch, branchTarget?_ready]
    split <;> simp only [holds, decide_eq_true_eq]
  case h_3 => rw [transferTarget?, jumpTarget, pc_ready]; rfl
  case h_4 => rw [transferTarget?, jumpTarget, pc_ready]; rfl
  case h_5 => rw [transferTarget?, branchTarget?_ready]; simp only [holds, beq_iff_eq]
  case h_6 => rw [transferTarget?, branchTarget?_ready]; simp only [holds, bne_iff_ne]
  case h_7 => rw [transferTarget?, branchTarget?_ready]; simp only [holds, decide_eq_true_eq]
  case h_8 => rw [transferTarget?, branchTarget?_ready]; simp only [holds, decide_eq_true_eq]
  case h_17 => exact transferTarget?_decodeControl _ _
  -- No other opcode decides a branch.
  all_goals first | rfl | (split <;> first | rfl | contradiction)

/-- Of the instructions with opcode 0, one jump keeps the way back. -/
theorem link?_decodeSpecial (word : UInt32) :
    (Instruction.decodeSpecial word).link? =
      match (slice word 0 6).toNat with
      | 0x09 => some (Instruction.registerAt word 11)
      | _ => none := by
  unfold Instruction.decodeSpecial
  generalize (slice word 0 6).toNat = code
  dsimp only
  split <;> first | rfl | (split <;> first | rfl | contradiction)

/-- The word tells the link register. -/
theorem link?_decode (word : UInt32) : (Instruction.decode word).link? = linkRegister? word := by
  unfold Instruction.decode linkRegister?
  generalize (word >>> 26).toNat = opcode
  dsimp only
  split
  case h_1 => rw [link?_decodeSpecial]; rfl
  case h_2 =>
    unfold Instruction.decodeZeroBranch
    dsimp only
    split <;> rfl
  case h_17 =>
    unfold Instruction.decodeControl
    dsimp only
    split
    case h_5 => split <;> rfl
    all_goals rfl
  all_goals first | rfl | (split <;> first | rfl | contradiction)

/-- Encoded register numbers are below 32. -/
theorem registerAt_lt (word lo : UInt32) : Instruction.registerAt word lo < 32 := by
  have hmask : (((1 : UInt32) <<< (5 : UInt32)) - 1).toNat = 31 := by decide
  have hslice : (slice word lo 5).toNat ≤ 31 := by
    rw [slice, UInt32.toNat_and, hmask]
    exact Nat.and_le_right
  rw [UInt8.lt_iff_toNat_lt]
  simp only [Instruction.registerAt, UInt32.toNat_toUInt8, UInt8.reduceToNat]
  omega

/-- An encoded instruction writes one of the 32 registers, if it writes one. -/
theorem target?_lt_of_decode {word : UInt32} {r : Register}
    (h : (Instruction.decode word).target? = some r) : r < 32 := by
  have hspecial (h : (Instruction.decodeSpecial word).target? = some r) : r < 32 := by
    unfold Instruction.decodeSpecial at h
    dsimp only at h
    split at h <;> cases h <;> exact registerAt_lt word 11
  have hzero (h : (Instruction.decodeZeroBranch word).target? = some r) : r < 32 := by
    unfold Instruction.decodeZeroBranch at h
    dsimp only at h
    split at h
    · cases h
      decide
    · cases h
  have hcontrol (h : (Instruction.decodeControl word).target? = some r) : r < 32 := by
    unfold Instruction.decodeControl at h
    dsimp only at h
    split at h
    case h_5 => split at h <;> cases h
    all_goals cases h
    all_goals exact registerAt_lt word 16
  unfold Instruction.decode at h
  dsimp only at h
  split at h
  case h_1 => exact hspecial h
  case h_2 => exact hzero h
  case h_17 => exact hcontrol h
  all_goals cases h
  all_goals first | exact registerAt_lt word 16 | decide

/-- The way back is kept in a register that there is. -/
theorem linkRegister?_lt {word : UInt32} {r : Register} (h : linkRegister? word = some r) :
    r < 32 := by
  unfold linkRegister? at h
  split at h
  · split at h
    · cases h
      exact registerAt_lt word 11
    · cases h
  · split at h
    · cases h
      decide
    · cases h
  · cases h
    decide
  · cases h

/-- A link register holds what was linked, whatever load falls due for it or for
another register. -/
theorem registers_link {e : Effect} {r : Register} {value : UInt32}
    (hlink : e.link? = some (r, value)) (regs : Vector UInt32 32) {due : Option LoadDelay}
    (hr : r < 32) (hne : r ≠ 0) (hdue : ∀ load, due = some load → load.reg < 32) :
    (e.registers regs due).get (slot r) = value := by
  cases e with
  | transfer link target =>
      obtain rfl : link = some (r, value) := hlink
      exact get_commit_superseded regs hr hne value hdue
  | _ => cases hlink

/-- What a tick without a trap does to the flow of control: `p` is the
processor before it, `word` the fetched word and `q` the processor after it. -/
structure Flow (p : Processor) (word : UInt32) (q : Processor) : Prop where
  executed : q.currentPc = p.pc ∧ q.instruction = word
  /-- What the word decides is pending. -/
  pending : q.pendingBranch = p.decision word
  /-- A branch that was pending is taken, unless the word decided anew. -/
  next : q.pc =
    if (p.decision word).isSome then p.pc + 4 else p.pendingBranch.getD (p.pc + 4)
  /-- A link register holds the address behind the delay slot. -/
  link : ∀ r, linkRegister? word = some r → q.reg r = if r = 0 then 0 else p.pc + 8

/-- A tick without a trap executes the fetched word as `Flow` says. -/
theorem flow_tick {p : Processor} (hp : Settled p) {bus : β} (htrap : p.trap? bus = none) :
    ∃ fetched, (p.fetch bus).1 = .ok fetched ∧ Flow p fetched.word (p.tick bus).2.1 := by
  obtain ⟨fetched, e, hfetch, he, heffect⟩ := outcome_of_trap?_eq_none htrap
  obtain ⟨-, hlink, hbranch⟩ := effectOf_of_effect heffect
  rw [transferTarget?_decode] at hbranch
  rw [link?_decode, returnAddress, pc_ready] at hlink
  refine ⟨fetched, hfetch, ?_⟩
  rw [tick_eq, he]
  dsimp only [conclude]
  rw [settle_apply, ready_eq, hfetch, hbranch]
  refine ⟨?_, ?_, rfl, ?_⟩
  · simp only [applyUnits_currentPc, applyUnits_instruction, fetchedWord, and_self]
  · simp only [pendingBranch, Option.orElse_eq_orElse, Option.orElse_eq_or, Option.or_none]
  · intro r hr
    by_cases hzero : r = 0
    · rw [hzero, reg, if_pos rfl, if_pos rfl]
    · rw [reg_of_ne_zero _ hzero, if_neg hzero]
      rw [hr] at hlink
      have hvalue : p.pc + 4 + 4 = p.pc + 8 := by rw [UInt32.add_assoc]; rfl
      rw [← hvalue]
      exact registers_link hlink _ (linkRegister?_lt hr) hzero hp.load_reg

/-- **Branches are delayed by one instruction.**  In a reachable processor a
pending branch was decided right before the program counter.  A tick without a
trap does to the flow of control what its word says (`Flow`).  So after a tick
that decides a branch, one instruction runs in the delay slot, and unless it
traps or decides again, the next one is the target of the branch. -/
theorem branch_delay {p : Processor} (hp : Reachable p) :
    (∀ target, p.pendingBranch = some target → p.pc = p.currentPc + 4) ∧
    (∀ {β : Type} [Bus β] (bus : β), p.trap? bus = none →
      ∃ fetched, (p.fetch bus).1 = .ok fetched ∧ Flow p fetched.word (p.tick bus).2.1) ∧
    ∀ {β γ : Type} [Bus β] [Bus γ] (bus : β) (bus' : γ) (fetched fetched' : Fetch)
        (target : UInt32),
      let q := (p.tick bus).2.1
      p.trap? bus = none → (p.fetch bus).1 = .ok fetched → p.decision fetched.word = some target →
      q.trap? bus' = none → (q.fetch bus').1 = .ok fetched' → q.decision fetched'.word = none →
        (q.tick bus').2.1.currentPc = p.pc + 4 ∧ (q.tick bus').2.1.pc = target ∧
          (q.tick bus').2.1.pendingBranch = none := by
  refine ⟨fun target h => (hp.settled.delay_slot target h).1,
    fun bus htrap => flow_tick hp.settled htrap, ?_⟩
  intro β γ _ _ bus bus' fetched fetched' target q htrap hfetch hdecided htrap' hfetch' hnone
  obtain ⟨word, hword, hflow⟩ := flow_tick hp.settled htrap
  obtain rfl : fetched = word := Except.ok.inj (hfetch.symm.trans hword)
  obtain ⟨word', hword', hflow'⟩ := flow_tick (settled_tick p bus) htrap'
  obtain rfl : fetched' = word' := Except.ok.inj (hfetch'.symm.trans hword')
  have hpending : q.pendingBranch = some target := hflow.pending.trans hdecided
  have hslot : q.pc = p.pc + 4 := by
    rw [hflow.next, hdecided]
    rfl
  refine ⟨hflow'.executed.1.trans hslot, ?_, hflow'.pending.trans hnone⟩
  rw [hflow'.next, hnone, hpending]
  rfl

/-- The word `jal 0x100` at address 0, with a load into its link register pending:
the jump is pending, and the link wins over the load. -/
theorem branch_delay_of_call :
    let p := ((initial .ignore).setPc 0).setRegDelayed 31 5
    let ram : Memory := ⟨#[0x40, 0, 0, 0x0C]⟩
    Reachable p ∧ p.trap? ram = none ∧
      (p.tick ram).2.1.pendingBranch = some 0x100 ∧ (p.tick ram).2.1.pc = 4 ∧
      (p.tick ram).2.1.reg 31 = 8 := by
  intro p ram
  have hp : Reachable p := .setRegDelayed 31 5 (.setPc 0 (.initial .ignore))
  have hread : Bus.read ram .word (physicalAddress p.pc) = (.ok 0x0C000040, ram) := by
    rw [show physicalAddress p.pc = 0 by decide]
    dsimp only [ram]
    rfl
  have hword : p.fetch ram = (.ok ⟨0x0C000040, 4⟩, p, ram) :=
    fetch_of_uncached (by decide) (by decide) hread
  have hdecode : Instruction.decode 0x0C000040 = .jumpAndLink 0x100 := by decide
  have htrap : p.trap? ram = none := by
    rw [trap?_of_fetch (congrArg Prod.fst hword) (by decide), hdecode]
    rfl
  obtain ⟨fetched, hfetch, hflow⟩ := (branch_delay hp).2.1 ram htrap
  rw [hword] at hfetch
  obtain rfl : ⟨0x0C000040, 4⟩ = fetched := Except.ok.inj hfetch
  refine ⟨hp, htrap, hflow.pending.trans (by decide), hflow.next.trans (by decide), ?_⟩
  exact (hflow.link 31 (by decide)).trans (by decide)

end Processor
end PlayStation
