import PlayStation.Proofs.Processor.Outcome

/-!
# Reachable processors

A processor is reachable when ticks, on any bus, and the operations that change
a processor from outside lead to it from power-on.  `Settled` is what all of
these keep: nothing is due between ticks, a pending load names one of the 32
registers, and a pending branch was decided by the instruction right before
the program counter.
-/

namespace PlayStation

namespace Processor

/-- The processors that power-on, ticks and operations from outside lead to. -/
inductive Reachable : Processor → Prop
  | initial (policy : UnknownOpcode) : Reachable (.initial policy)
  | tick {p : Processor} {β : Type} [Bus β] (bus : β) (h : Reachable p) :
      Reachable (p.tick bus).2.1
  | reset {p : Processor} (h : Reachable p) : Reachable p.reset
  | setPc {p : Processor} (pc : UInt32) (h : Reachable p) : Reachable (p.setPc pc)
  | setReg {p : Processor} (index : Register) (value : UInt32) (h : Reachable p) :
      Reachable (p.setReg index value)
  | setRegDelayed {p : Processor} (index : Register) (value : UInt32) (h : Reachable p) :
      Reachable (p.setRegDelayed index value)
  | setControlReg {p : Processor} (index : Nat) (value : UInt32) (h : Reachable p) :
      Reachable (p.setControlReg index value)
  | setInterruptLines {p : Processor} (lines : UInt32) (h : Reachable p) :
      Reachable (p.setInterruptLines lines)
  | enterHandler {p : Processor} (cause : ExceptionCause) (h : Reachable p) :
      Reachable (p.enterHandler cause)

/-- What holds of a processor between ticks. -/
structure Settled (p : Processor) : Prop where
  branch_not_due : p.branches.current = none
  load_not_due : p.loads.current = none
  load_reg : ∀ load, p.loads.next = some load → load.reg < 32
  /-- A pending branch was decided by the current instruction, and the program
  counter stands at its delay slot. -/
  delay_slot : ∀ target, p.branches.next = some target →
    p.pc = p.currentPc + 4 ∧ (Instruction.decode p.instruction).transfers = true

/-- The number of a register slot is below 32. -/
theorem slot_lt (index : Register) : (slot index).val.toUInt8 < 32 := by
  have h := (slot index).isLt
  rw [UInt8.lt_iff_toNat_lt]
  simp
  omega

/-- A pending load names one of the 32 registers. -/
theorem reg_lt_of_load? {e : Effect} {load : LoadDelay} (h : e.load? = some load) :
    load.reg < 32 := by
  cases e with
  | schedule target value =>
      unfold Effect.load? at h
      dsimp only at h
      split at h
      · cases h
      · cases h
        exact slot_lt target
  | _ => cases h

/-- **Every tick settles the processor**, whatever it did before. -/
theorem settled_tick {β : Type} [Bus β] (p : Processor) (bus : β) : Settled (p.tick bus).2.1 := by
  rcases htrap : p.trap? bus with _ | trap
  · obtain ⟨fetched, e, hfetch, he, heffect⟩ := outcome_of_trap?_eq_none htrap
    have hbranch := (effectOf_of_effect heffect).branch
    rw [tick_eq, he]
    dsimp only [conclude]
    rw [settle_apply, ready_eq]
    refine ⟨rfl, rfl, ?_, ?_⟩
    · intro load hload
      simp only [Option.orElse_eq_orElse, Option.orElse_eq_or, Option.or_none] at hload
      exact reg_lt_of_load? hload
    · intro target htarget
      simp only [Option.orElse_eq_orElse, Option.orElse_eq_or, Option.or_none] at htarget
      have htransfers : (Instruction.decode fetched.word).transfers = true :=
        transfers_of_transferTarget? (hbranch.symm.trans htarget)
      simp only [applyUnits_currentPc, applyUnits_instruction, htarget, Option.isSome_some,
        if_true, hfetch, fetchedWord]
      exact ⟨trivial, htransfers⟩
  · rw [tick_of_trap?_eq_some htrap]
    refine ⟨rfl, rfl, ?_, ?_⟩
    · intro load hload
      cases hload
    · intro target htarget
      cases htarget

/-- A processor without a pending branch has nothing to keep about it. -/
theorem Settled.of_no_branch {p : Processor} (hbranch : p.branches = .empty)
    (hload : p.loads.current = none) (hreg : ∀ load, p.loads.next = some load → load.reg < 32) :
    Settled p where
  branch_not_due := by rw [hbranch]; rfl
  load_not_due := hload
  load_reg := hreg
  delay_slot := by
    intro target h
    rw [hbranch] at h
    cases h

/-- **Reachable processors are settled.** -/
theorem Reachable.settled {p : Processor} (h : Reachable p) : Settled p := by
  induction h with
  | initial policy => exact .of_no_branch rfl rfl nofun
  | tick bus h ih => exact settled_tick _ bus
  | reset h ih => exact .of_no_branch rfl rfl nofun
  | setPc pc h ih => exact .of_no_branch rfl ih.load_not_due ih.load_reg
  | setReg index value h ih =>
      rw [setReg_eq]
      refine ⟨ih.branch_not_due, ?_, ih.load_reg, ih.delay_slot⟩
      rw [ih.load_not_due]
      rfl
  | setRegDelayed index value h ih =>
      rw [setRegDelayed_eq]
      refine ⟨ih.branch_not_due, rfl, ?_, ih.delay_slot⟩
      intro load hload
      dsimp only at hload
      split at hload
      · exact ih.load_reg load hload
      · cases hload
        exact slot_lt index
  | setControlReg index value h ih =>
      exact ⟨ih.branch_not_due, ih.load_not_due, ih.load_reg, ih.delay_slot⟩
  | setInterruptLines lines h ih =>
      exact ⟨ih.branch_not_due, ih.load_not_due, ih.load_reg, ih.delay_slot⟩
  | enterHandler cause h ih => exact .of_no_branch rfl ih.load_not_due ih.load_reg

end Processor
end PlayStation
