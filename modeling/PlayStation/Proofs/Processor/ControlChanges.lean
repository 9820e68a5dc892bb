import PlayStation.Proofs.Processor.ControlRegisters
import PlayStation.Proofs.Processor.Run

/-!
# What changes the control registers

Each operation on the control registers changes one register, or none (`get_write`,
`get_setLines`, `get_leaveHandler`), save that entering a handler changes several
(`get_recorded_enterHandler`).  A tick makes one of these changes at most: it enters
the handler (`control_tick_of_trap`), or else the instruction that it carries out is a
move to a control register, a return from an exception, or leaves the control registers
alone (`control_tick_of_completed`).
-/

namespace PlayStation

open Bits

/-! ## The mode stack -/

/-- The status with its mode stack popped: the oldest pair stays where it is. -/
def Status.popped (status : UInt32) : UInt32 :=
  let lowerPairs : UInt32 := 0xF
  (status &&& ~~~lowerPairs) ||| (status >>> 2 &&& lowerPairs)

/-- Pushing moves the two newer pairs up and puts zeros below them. -/
theorem Status.bit_pushed (status : UInt32) {i : Nat} (hi : i < 32) :
    bit (pushed status) i =
      if i < 2 then false else if i < 6 then bit status (i - 2) else bit status i := by
  have hstack : ∀ i < 32, bit modeStack i = decide (i < 6) := by decide
  have hupper : ∀ i < 32, bit 0x3C i = decide (2 ≤ i ∧ i < 6) := by decide
  have htwo : (2 : UInt32).toNat = 2 := rfl
  rw [pushed, bit_or, bit_and, bit_and, bit_not _ hi, hstack i hi, hupper i hi,
    bit_shiftLeft status (by decide) hi, htwo]
  by_cases hlow : i < 2
  · have hstacked : i < 6 := by omega
    have hbelow : ¬ 2 ≤ i := by omega
    simp [hlow, hstacked, hbelow]
  · have habove : 2 ≤ i := by omega
    by_cases hstacked : i < 6 <;> simp [hlow, hstacked, habove]

/-- Popping moves the two older pairs down. -/
theorem Status.bit_popped (status : UInt32) {i : Nat} (hi : i < 32) :
    bit (popped status) i = if i < 4 then bit status (i + 2) else bit status i := by
  have hlower : ∀ i < 32, bit 0xF i = decide (i < 4) := by decide
  have htwo : (2 : UInt32).toNat = 2 := rfl
  rw [popped, bit_or, bit_and, bit_and, bit_not _ hi, hlower i hi,
    bit_shiftRight status (by decide), htwo, Nat.add_comm]
  by_cases hlow : i < 4 <;> simp [hlow]

namespace Control

variable (c : Control)

/-! ## One register at a time -/

/-- A write by a program changes the register that it names, as far as programs may. -/
theorem get_write (index : Nat) (value : UInt32) (i : Nat) :
    (c.write index value).get i =
      if i % 64 = index % 64 then
        if index % 64 = identification then c.get i
        else if index % 64 = cause then
          c.get i &&& ~~~Cause.software ||| value &&& Cause.software
        else value
      else c.get i := by
  unfold write
  dsimp only
  by_cases hid : index % 64 = identification
  · rw [if_pos hid, if_pos hid, ite_self]
  · rw [if_neg hid, if_neg hid]
    by_cases hcause : index % 64 = cause
    · have hmod : cause % 64 = cause := rfl
      rw [if_pos hcause, if_pos hcause, get_put, hmod]
      by_cases hi : i % 64 = cause
      · have hget : c.get i = c.get cause := by
          simp only [get, hi]
          rfl
        rw [if_pos hi, if_pos (hi.trans hcause.symm), hget]
      · have hne : ¬ i % 64 = index % 64 := fun h => hi (h.trans hcause)
        rw [if_neg hi, if_neg hne]
    · rw [if_neg hcause, if_neg hcause, get_put, Nat.mod_mod]

/-- Setting the lines writes one field of the cause register. -/
theorem get_setLines (lines : UInt32) (i : Nat) :
    (c.setLines lines).get i =
      if i % 64 = cause then setField (c.get cause) Cause.lines lines else c.get i :=
  get_put c cause i _

/-- Leaving a handler pops the mode stack and changes no other register. -/
theorem get_leaveHandler (i : Nat) :
    c.leaveHandler.get i = if i % 64 = status then Status.popped (c.get status) else c.get i := by
  have hpop (sr : UInt32) : setField sr Status.modeStack
      ((field sr Status.modeStack &&& (0x30 : UInt32)) ||| (field sr Status.modeStack >>> 2)) =
        Status.popped sr := by
    have hlow : UInt32.ofNat (lowestBit Status.modeStack) = 0 := by decide
    have hstack : ∀ i < 34, bit Status.modeStack i = decide (i < 6) := by decide
    have holdest : ∀ i < 32, bit 0x30 i = decide (4 ≤ i ∧ i < 6) := by decide
    have htwo : (2 : UInt32).toNat = 2 := rfl
    refine ext_bit fun i hi => ?_
    rw [bit_setField _ _ _ hi, Status.bit_popped sr hi, field, hlow, UInt32.shiftRight_zero,
      UInt32.shiftLeft_zero, bit_or, bit_and, bit_and, bit_shiftRight _ (by decide), bit_and,
      holdest i hi, htwo, hstack i (by omega), hstack (2 + i) (by omega), Nat.add_comm 2 i]
    by_cases hlow : i < 4
    · have hstacked : i < 6 := by omega
      have hyounger : ¬ 4 ≤ i := by omega
      have hupper : i + 2 < 6 := by omega
      simp [hlow, hstacked, hyounger, hupper]
    · have hupper : ¬ i + 2 < 6 := by omega
      have holder : 4 ≤ i := by omega
      by_cases hstacked : i < 6 <;> simp [hlow, hstacked, hupper, holder]
  rw [leaveHandler, get_put, hpop]
  rfl

end Control

namespace Processor

variable {β : Type} [Bus β]

/-! ## One tick -/

/-- The instruction that a tick carries out, unless it takes a trap. -/
def completed? (p : Processor) (bus : β) : Option Instruction :=
  match p.trap? bus with
  | some _ => none
  | none => some (.decode (fetchedWord (p.fetch bus).1))

/-- A tick that takes no trap carries its instruction out. -/
theorem completed?_of_trap? {p : Processor} {bus : β} (h : p.trap? bus = none) :
    p.completed? bus = some (.decode (fetchedWord (p.fetch bus).1)) := by
  rw [completed?, h]

/-- The control registers that an instruction leaves when it completes. -/
def controlAfter (p : Processor) : Instruction → Control
  | .moveToControl source index => p.control.write index (p.reg source)
  | .returnFromException => p.control.leaveHandler
  | _ => p.control

/-- A store does not change the control registers. -/
theorem applyUnits_writeEffect {p : Processor} {width : Width} {address value : UInt32}
    {bus bus' : β} {e : Effect} (h : p.writeEffect width address value bus = (.ok e, bus')) :
    (p.applyUnits e).control = p.control := by
  unfold writeEffect at h
  dsimp only at h
  split at h
  · cases h
    rfl
  · split at h
    · split at h <;> (cases h; rfl)
    · split at h
      · cases h
        rfl
      · cases h

/-- What a store does to the units is not about control registers. -/
theorem applyUnits_storeEffect {p : Processor} {kind : StoreKind} {value address : UInt32}
    {bus bus' : β} {e : Effect} (h : p.storeEffect kind value address bus = (.ok e, bus')) :
    (p.applyUnits e).control = p.control := by
  have hupdate {address : UInt32} {change : UInt32 → UInt32}
      (h : p.updateEffect address change bus = (.ok e, bus')) :
      (p.applyUnits e).control = p.control := by
    unfold updateEffect at h
    split at h
    · exact applyUnits_writeEffect h
    · cases h
  unfold storeEffect at h
  split at h
  · cases h
  · cases kind with
    | wordLeft => exact hupdate h
    | wordRight => exact hupdate h
    | _ => exact applyUnits_writeEffect h

/-- **What an instruction does to the control registers.** -/
theorem applyUnits_control {p : Processor} {instruction : Instruction} {bus bus' : β}
    {e : Effect} (h : p.effect instruction bus = (.ok e, bus')) :
    (p.applyUnits e).control = p.controlAfter instruction := by
  have hlocal := congrArg Prod.fst h
  cases instruction with
  | load kind target base offset =>
      obtain ⟨value, rfl⟩ := loadEffect_eq_ok h
      rfl
  | store kind source base offset => exact applyUnits_storeEffect h
  | addChecked target a b =>
      obtain ⟨value, rfl⟩ := checkedEffect_eq_ok hlocal
      rfl
  | subtractChecked target a b =>
      obtain ⟨value, rfl⟩ := checkedEffect_eq_ok hlocal
      rfl
  | addCheckedImmediate target a value =>
      obtain ⟨value, rfl⟩ := checkedEffect_eq_ok hlocal
      rfl
  | coprocessor unit =>
      simp only [effect, localEffect] at hlocal
      split at hlocal
      · cases hlocal
        rfl
      · cases hlocal
  | unknown =>
      simp only [effect, localEffect] at hlocal
      split at hlocal
      · cases hlocal
        rfl
      · cases hlocal
  | syscall => cases hlocal
  | breakpoint => cases hlocal
  | _ =>
      cases hlocal
      rfl

/-- A tick that takes a trap enters the handler. -/
theorem control_tick_of_trap {p : Processor} {bus : β} {trap : Trap}
    (h : p.trap? bus = some trap) : (p.tick bus).2.1.control = p.entered trap := by
  rw [tick_of_trap?_eq_some h]

/-- A tick without a trap does what its instruction does. -/
theorem control_tick_of_completed {p : Processor} {bus : β} {instruction : Instruction}
    (h : p.completed? bus = some instruction) :
    (p.tick bus).2.1.control = p.controlAfter instruction := by
  unfold completed? at h
  split at h
  · cases h
  · rename_i htrap
    obtain ⟨fetched, e, hfetch, he, heffect⟩ := outcome_of_trap?_eq_none htrap
    rw [hfetch] at h
    obtain rfl := Option.some.inj h
    have hready : (p.ready bus).controlAfter (.decode fetched.word) =
        p.controlAfter (.decode fetched.word) := by
      rw [ready_eq]
      rfl
    rw [tick_eq, he]
    dsimp only [conclude]
    rw [settle_apply]
    exact (applyUnits_control heffect).trans hready

end Processor
end PlayStation
