import PlayStation.Processor.Tick

/-!
# Register writes and latches as record updates

The operations on the register file and on the two latches branch on what the
latches hold.  Here each of them is put into one record update whose fields
are given in closed form, so that later files never split these cases again.

* `setReg_eq`, `setRegDelayed_eq` — a direct and a delayed register write;
* `settle_eq` — what falls due at the end of a tick;
* `raise_eq` — how a trap leaves the registers, the latches and the program
  counter.
-/

namespace PlayStation.Processor

/-- The register file after a load reached its register. -/
def commit (regs : Vector UInt32 32) : Option LoadDelay → Vector UInt32 32
  | some load => regs.set (slot load.reg).val load.value (slot load.reg).isLt
  | none => regs

/-- The register file after a direct write. -/
def written (regs : Vector UInt32 32) (index : Register) (value : UInt32) : Vector UInt32 32 :=
  if index = 0 then regs else regs.set (slot index).val value

/-- The load that still falls due after a write to a register. -/
def superseded (due : Option LoadDelay) (index : Register) : Option LoadDelay :=
  due.filter fun load => load.reg ≠ index

@[simp] theorem commit_none (regs : Vector UInt32 32) : commit regs none = regs := rfl

@[simp] theorem superseded_none (index : Register) : superseded none index = none := rfl

/-- A write supersedes a load into the same register. -/
theorem superseded_self (load : LoadDelay) : superseded (some load) load.reg = none := by
  simp [superseded, Option.filter]

/-- It does not supersede any other. -/
theorem superseded_of_ne {load : LoadDelay} {index : Register} (h : load.reg ≠ index) :
    superseded (some load) index = some load := by
  simp [superseded, Option.filter, h]

/-- Different numbers below 32 select different slots. -/
theorem slot_ne {r s : Register} (hr : r < 32) (hs : s < 32) (h : r ≠ s) : slot r ≠ slot s := by
  intro heq
  have hval : r.toNat % 32 = s.toNat % 32 := congrArg Fin.val heq
  rw [UInt8.lt_iff_toNat_lt] at hr hs
  change r.toNat < 32 at hr
  change s.toNat < 32 at hs
  rw [Nat.mod_eq_of_lt hr, Nat.mod_eq_of_lt hs] at hval
  exact h (UInt8.toNat_inj.mp hval)

/-- A number below 32 is the number of its slot. -/
theorem slot_toUInt8 {r : Register} (hr : r < 32) : (slot r).val.toUInt8 = r := by
  rw [UInt8.lt_iff_toNat_lt] at hr
  change r.toNat < 32 at hr
  apply UInt8.toNat_inj.mp
  change (r.toNat % 32) % 256 = r.toNat
  omega

/-- A register other than 0 is its slot. -/
theorem reg_of_ne_zero (p : Processor) {r : Register} (hr : r ≠ 0) :
    p.reg r = p.regs.get (slot r) := by
  rw [reg, if_neg hr]
  rfl

/-- A load that falls due writes its register. -/
theorem get_commit_self (regs : Vector UInt32 32) (load : LoadDelay) :
    (commit regs (some load)).get (slot load.reg) = load.value :=
  Vector.getElem_set_self _

/-- It leaves the others. -/
theorem get_commit_of_ne (regs : Vector UInt32 32) {load : LoadDelay} {i : Fin 32}
    (h : slot load.reg ≠ i) : (commit regs (some load)).get i = regs.get i :=
  Vector.getElem_set_ne (slot load.reg).isLt i.isLt fun heq => h (Fin.ext heq)

/-- A write changes its register, if that is not register 0. -/
theorem get_written_self (regs : Vector UInt32 32) {r : Register} (hr : r ≠ 0) (value : UInt32) :
    (written regs r value).get (slot r) = value := by
  rw [written, if_neg hr]
  exact Vector.getElem_set_self _

/-- A written register holds what was written, whatever load falls due for it or for
another register. -/
theorem get_commit_superseded (regs : Vector UInt32 32) {r : Register} (hr : r < 32) (hne : r ≠ 0)
    (value : UInt32) {due : Option LoadDelay} (hdue : ∀ load, due = some load → load.reg < 32) :
    (commit (written regs r value) (superseded due r)).get (slot r) = value := by
  have hwritten : (written regs r value).get (slot r) = value := get_written_self regs hne value
  obtain _ | load := due
  · exact hwritten
  · by_cases hload : load.reg = r
    · subst hload
      rw [superseded_self]
      exact hwritten
    · rw [superseded_of_ne hload, get_commit_of_ne _ (slot_ne (hdue load rfl) hr hload)]
      exact hwritten

/-- A direct write drops the due load for its register and nothing else. -/
theorem setReg_eq (p : Processor) (index : Register) (value : UInt32) :
    p.setReg index value =
      { p with
        regs := written p.regs index value
        loads := ⟨p.loads.next, superseded p.loads.current index⟩ } := by
  obtain ⟨regs, pc, currentPc, hi, lo, control, branches, ⟨next, current⟩, cc, cache, policy,
    instruction⟩ := p
  cases current with
  | none =>
      simp only [setReg, written, superseded_none]
      split <;> rfl
  | some load =>
      by_cases h : load.reg = index
      · subst h
        simp only [setReg, written, superseded_self]
        split <;> rfl
      · simp only [setReg, written, superseded_of_ne h, if_neg h]
        split <;> rfl

/-- A delayed write carries out the due load of another register. -/
theorem setRegDelayed_eq (p : Processor) (index : Register) (value : UInt32) :
    p.setRegDelayed index value =
      { p with
        regs := commit p.regs (superseded p.loads.current index)
        loads := ⟨if index = 0 then p.loads.next
          else some ⟨(slot index).val.toUInt8, value⟩, none⟩ } := by
  obtain ⟨regs, pc, currentPc, hi, lo, control, branches, ⟨next, current⟩, cc, cache, policy,
    instruction⟩ := p
  cases current with
  | none =>
      simp only [setRegDelayed, superseded_none]
      split <;> rfl
  | some load =>
      by_cases h : load.reg = index
      · subst h
        simp only [setRegDelayed, superseded_self]
        split <;> rfl
      · simp only [setRegDelayed, superseded_of_ne h, if_neg h]
        split <;> rfl

/-- At the end of a tick the due branch and the due load take effect. -/
theorem settle_eq (p : Processor) :
    p.settle =
      { p with
        regs := commit p.regs p.loads.current
        pc := p.branches.current.getD p.pc
        branches := ⟨p.branches.next, none⟩
        loads := ⟨p.loads.next, none⟩ } := by
  obtain ⟨regs, pc, currentPc, hi, lo, control, ⟨next, current⟩, ⟨next', current'⟩, cc, cache,
    policy, instruction⟩ := p
  cases current <;> cases current' <;> rfl

/-- The control registers after a trap, before the handler is entered. -/
def recorded (control : Control) : Trap → Control
  | .plain _ => control
  | .badAddress _ address => control.put Control.badAddress address
  | .unusable unit => control.setMissingUnit unit

/-- Where the handler returns to. -/
def resumeAddress (p : Processor) : UInt32 :=
  if p.inDelaySlot then p.currentPc - 4 else p.currentPc

/-- A trap changes the control registers, the program counter and the branch
latch, and nothing else. -/
theorem raise_eq (p : Processor) (trap : Trap) :
    p.raise trap =
      { p with
        control := (recorded p.control trap).enterHandler trap.cause p.inDelaySlot p.resumeAddress
        pc := ((recorded p.control trap).enterHandler trap.cause p.inDelaySlot
          p.resumeAddress).handler
        branches := .empty } := by
  cases trap <;> rfl

end PlayStation.Processor
