import PlayStation.Proofs.Bits
import PlayStation.Proofs.Processor.Registers

/-!
# The control registers on entry to a handler

Entering a handler writes the status, the cause and the resume address, and a
trap that knows a faulting address records that one too.  No other register
changes (`get_recorded_enterHandler`).  The status register shifts its mode
stack (`Status.pushed`); the cause register replaces the bits that the trap
owns (`Trap.causeMask`) by what the trap reports (`Trap.causeBits`).
-/

namespace PlayStation

open Bits

/-- The status with a zero pair pushed onto its mode stack. -/
def Status.pushed (status : UInt32) : UInt32 :=
  let upperPairs : UInt32 := 0x3C
  (status &&& ~~~Status.modeStack) ||| (status <<< 2 &&& upperPairs)

/-- The causes that record nothing besides themselves. -/
def ExceptionCause.isPlain : ExceptionCause → Bool
  | addressErrorLoad | addressErrorStore | coprocessorUnusable => false
  | _ => true

namespace Trap

/-- The bits of the cause register that a trap owns: the exception code, the
branch delay flag and, for a missing coprocessor, its number. -/
def causeMask : Trap → UInt32
  | unusable _ => Cause.coprocessor ||| (Cause.exceptionCode ||| Cause.branchDelay)
  | _ => Cause.exceptionCode ||| Cause.branchDelay

/-- The number of a missing coprocessor, where the cause register shows it. -/
def causeUnit : Trap → UInt32
  | unusable unit => unit <<< 28 &&& Cause.coprocessor
  | _ => 0

/-- What a trap records in its bits of the cause register. -/
def causeBits (trap : Trap) (inDelaySlot : Bool) : UInt32 :=
  trap.causeUnit ||| (trap.cause.code <<< 2 ||| if inDelaySlot then Cause.branchDelay else 0)

/-- The faulting address, if the trap records one. -/
def address? : Trap → Option UInt32
  | badAddress _ address => some address
  | _ => none

/-- The traps that the processor takes: those with a faulting address are the
address errors, and the missing coprocessor is one of four. -/
def Proper : Trap → Prop
  | plain why => why.isPlain = true
  | badAddress why address =>
      (why = .addressErrorLoad ∨ why = .addressErrorStore) ∧ address &&& 3 ≠ 0
  | unusable unit => unit < 4

/-- Numbers below 4, one by one. -/
theorem cases_of_lt_four {unit : UInt32} (h : unit < 4) :
    unit = 0 ∨ unit = 1 ∨ unit = 2 ∨ unit = 3 := by
  have hlt : unit.toNat < 4 := UInt32.lt_iff_toNat_lt.mp h
  simp only [← UInt32.toNat_inj, UInt32.reduceToNat]
  omega

/-- A cause and the branch delay flag lie in their own fields. -/
theorem causeBits_plain (why : ExceptionCause) (inDelaySlot : Bool) :
    (plain why).causeBits inDelaySlot &&& ~~~(plain why).causeMask = 0 ∧
      field ((plain why).causeBits inDelaySlot) Cause.exceptionCode = why.code ∧
      flag ((plain why).causeBits inDelaySlot) Cause.branchDelay = inDelaySlot := by
  refine ⟨?_, ?_, ?_⟩ <;> cases why <;> cases inDelaySlot <;> decide

/-- The number of a missing coprocessor lies in its own field. -/
theorem causeBits_unusable {unit : UInt32} (h : unit < 4) (inDelaySlot : Bool) :
    (unusable unit).causeBits inDelaySlot &&& ~~~(unusable unit).causeMask = 0 ∧
      field ((unusable unit).causeBits inDelaySlot) Cause.exceptionCode = 11 ∧
      flag ((unusable unit).causeBits inDelaySlot) Cause.branchDelay = inDelaySlot ∧
      field ((unusable unit).causeBits inDelaySlot) Cause.coprocessor = unit := by
  rcases cases_of_lt_four h with rfl | rfl | rfl | rfl <;>
    refine ⟨?_, ?_, ?_, ?_⟩ <;> cases inDelaySlot <;> decide

/-- **The cause register after a trap.**  The bits of the trap hold its code, the
branch delay flag and the number of a missing coprocessor; the others stay. -/
theorem Proper.cause {trap : Trap} (h : trap.Proper) (old : UInt32) (inDelaySlot : Bool) :
    let word := old &&& ~~~trap.causeMask ||| trap.causeBits inDelaySlot
    word &&& ~~~trap.causeMask = old &&& ~~~trap.causeMask ∧
      field word Cause.exceptionCode = trap.cause.code ∧
      flag word Cause.branchDelay = inDelaySlot ∧
      ∀ unit, trap = .unusable unit → field word Cause.coprocessor = unit := by
  intro word
  have hkept (hbits : trap.causeBits inDelaySlot &&& ~~~trap.causeMask = 0) :
      word &&& ~~~trap.causeMask = old &&& ~~~trap.causeMask :=
    and_of_replace UInt32.and_not_self hbits
  have hfield {mask value : UInt32} (hmask : trap.causeMask &&& mask = mask)
      (hbits : field (trap.causeBits inDelaySlot) mask = value) : field word mask = value := by
    rw [← hbits, field, field, and_of_replaced hmask]
  have hflag (hmask : trap.causeMask &&& Cause.branchDelay = Cause.branchDelay)
      (hbits : flag (trap.causeBits inDelaySlot) Cause.branchDelay = inDelaySlot) :
      flag word Cause.branchDelay = inDelaySlot := by
    rw [flag, and_of_replaced hmask]
    exact hbits
  have hcode : (Cause.exceptionCode ||| Cause.branchDelay) &&& Cause.exceptionCode =
      Cause.exceptionCode := by decide
  have hdelay : (Cause.exceptionCode ||| Cause.branchDelay) &&& Cause.branchDelay =
      Cause.branchDelay := by decide
  cases trap with
  | plain why =>
      obtain ⟨hmask, hwhy, hslot⟩ := causeBits_plain why inDelaySlot
      exact ⟨hkept hmask, hfield hcode hwhy, hflag hdelay hslot, by rintro _ ⟨⟩⟩
  | badAddress why address =>
      obtain ⟨hmask, hwhy, hslot⟩ := causeBits_plain why inDelaySlot
      exact ⟨hkept hmask, hfield hcode hwhy, hflag hdelay hslot, by rintro _ ⟨⟩⟩
  | unusable unit =>
      obtain ⟨hmask, hwhy, hslot, hunit⟩ := causeBits_unusable h inDelaySlot
      have hall {mask : UInt32} (hmask : (Cause.coprocessor ||| (Cause.exceptionCode |||
          Cause.branchDelay)) &&& mask = mask) : (unusable unit).causeMask &&& mask = mask := hmask
      refine ⟨hkept hmask, hfield (hall (by decide)) hwhy, hflag (hall (by decide)) hslot, ?_⟩
      rintro n ⟨⟩
      exact hfield (hall (by decide)) hunit

end Trap

namespace Control

/-- A register is read as it was put; numbers wrap at 64. -/
theorem get_put (c : Control) (i j : Nat) (value : UInt32) :
    (c.put i value).get j = if j % 64 = i % 64 then value else c.get j := by
  simp only [get, put, Vector.getElem_set, eq_comm]

/-- The mode stack starts at bit 0, so its field is moved nowhere. -/
theorem setField_modeStack (status : UInt32) :
    setField status Status.modeStack (field status Status.modeStack <<< 2) =
      Status.pushed status := by
  have hlow : UInt32.ofNat (lowestBit Status.modeStack) = 0 := by decide
  have hmask : (Status.modeStack <<< 2) &&& Status.modeStack = 0x3C := by decide
  unfold setField field Status.pushed
  rw [hlow, UInt32.shiftRight_zero, UInt32.shiftLeft_zero, UInt32.shiftLeft_and, UInt32.and_assoc,
    hmask]

/-- Exception codes fit into their field. -/
theorem code_fits (why : ExceptionCause) :
    (why.code <<< 2 &&& Cause.exceptionCode) &&& ~~~Cause.branchDelay = why.code <<< 2 := by
  cases why <;> decide

/-- The exception code and the branch delay flag replace their own bits. -/
theorem setFlag_setField_cause (word : UInt32) (why : ExceptionCause) (inDelaySlot : Bool) :
    setFlag (setField word Cause.exceptionCode why.code) Cause.branchDelay inDelaySlot =
      word &&& ~~~(Cause.exceptionCode ||| Cause.branchDelay) |||
        (why.code <<< 2 ||| if inDelaySlot then Cause.branchDelay else 0) := by
  have hlow : UInt32.ofNat (lowestBit Cause.exceptionCode) = 2 := by decide
  rw [setFlag_eq, setField, hlow, replace_replace, code_fits]

/-- **The cause register on entry to a handler.** -/
theorem cause_recorded (c : Control) (trap : Trap) (inDelaySlot : Bool) :
    setFlag (setField ((Processor.recorded c trap).get cause) Cause.exceptionCode trap.cause.code)
        Cause.branchDelay inDelaySlot =
      c.get cause &&& ~~~trap.causeMask ||| trap.causeBits inDelaySlot := by
  rw [setFlag_setField_cause]
  cases trap with
  | plain why => simp only [Processor.recorded, Trap.causeMask, Trap.causeBits, Trap.causeUnit,
      UInt32.zero_or]
  | badAddress why address =>
      have hget : (c.put badAddress address).get cause = c.get cause := by
        rw [get_put]
        rfl
      simp only [Processor.recorded, hget, Trap.causeMask, Trap.causeBits, Trap.causeUnit,
        UInt32.zero_or]
  | unusable unit =>
      have hlow : UInt32.ofNat (lowestBit Cause.coprocessor) = 28 := by decide
      have hget : (c.setMissingUnit unit).get cause =
          c.get cause &&& ~~~Cause.coprocessor ||| (unit <<< 28 &&& Cause.coprocessor) := by
        rw [setMissingUnit, get_put, if_pos rfl, setField, hlow]
      have hdisjoint : Cause.coprocessor &&& ~~~(Cause.exceptionCode ||| Cause.branchDelay) =
          Cause.coprocessor := by decide
      simp only [Processor.recorded, hget, Trap.causeMask, Trap.causeBits, Trap.causeUnit]
      rw [replace_replace, UInt32.and_assoc, hdisjoint]

/-- Only the faulting address and the cause are recorded before the handler is
entered. -/
theorem get_recorded (c : Control) (trap : Trap) (i : Nat) (hi : i % 64 ≠ cause) :
    (Processor.recorded c trap).get i =
      if i % 64 = badAddress then trap.address?.getD (c.get i) else c.get i := by
  cases trap with
  | plain why => exact (ite_self _).symm
  | badAddress why address => rw [Processor.recorded, get_put]; rfl
  | unusable unit =>
      rw [Processor.recorded, setMissingUnit, get_put]
      exact (if_neg hi).trans (ite_self _).symm

/-- **The control registers on entry to a handler.** -/
theorem get_recorded_enterHandler (c : Control) (trap : Trap) (inDelaySlot : Bool)
    (resume : UInt32) (i : Nat) :
    ((Processor.recorded c trap).enterHandler trap.cause inDelaySlot resume).get i =
      if i % 64 = programCounter then resume
      else if i % 64 = cause then
        c.get cause &&& ~~~trap.causeMask ||| trap.causeBits inDelaySlot
      else if i % 64 = status then Status.pushed (c.get status)
      else if i % 64 = badAddress then trap.address?.getD (c.get i)
      else c.get i := by
  have hcause (value : UInt32) : ((Processor.recorded c trap).put status value).get cause =
      (Processor.recorded c trap).get cause := by
    rw [get_put]
    rfl
  have hstatus : (Processor.recorded c trap).get status = c.get status :=
    get_recorded c trap status (by decide)
  unfold enterHandler
  dsimp only
  rw [get_put _ programCounter i, get_put _ cause i, get_put _ status i, hcause, cause_recorded,
    hstatus, setField_modeStack]
  by_cases hi : i % 64 = cause
  · simp only [hi, if_pos]
    rfl
  · rw [get_recorded c trap i hi]
    rfl

/-- A trap does not move the handler. -/
theorem handler_recorded_enterHandler (c : Control) (trap : Trap) (inDelaySlot : Bool)
    (resume : UInt32) :
    ((Processor.recorded c trap).enterHandler trap.cause inDelaySlot resume).handler =
      c.handler := by
  have hstatus : ((Processor.recorded c trap).enterHandler trap.cause inDelaySlot resume).get
      status = Status.pushed (c.get status) := get_recorded_enterHandler c trap inDelaySlot resume _
  have hflag (word : UInt32) : Status.pushed word &&& Status.bootVectors =
      word &&& Status.bootVectors := by
    refine and_of_replace (by decide) ?_
    rw [UInt32.and_assoc]
    exact UInt32.and_zero
  unfold handler flag
  rw [hstatus, hflag]

end Control
end PlayStation
