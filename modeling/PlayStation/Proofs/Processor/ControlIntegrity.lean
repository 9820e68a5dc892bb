import PlayStation.Proofs.Layout
import PlayStation.Proofs.Processor.ControlChanges

/-!
# What programs cannot change

The identification register never changes.  Of the cause register only the fields that
the processor defines are ever set, and its interrupt lines are those that were last set
from outside (`Control.Intact`).  No write by a program, no trap and no return from one
breaks this, in whatever order they come (`control_intact`).
-/

namespace PlayStation

open Bits

/-- The fields of the cause register. -/
def Cause.defined : UInt32 :=
  exceptionCode ||| interrupts ||| coprocessor ||| branchDelay

/-- The fields of the cause register in which traps record. -/
def Cause.recorded : UInt32 :=
  exceptionCode ||| coprocessor ||| branchDelay

namespace Trap

/-- What is apart from all fields that traps record in is apart from those of one trap. -/
theorem causeMask_and (trap : Trap) {mask : UInt32} (hmask : Cause.recorded &&& mask = 0) :
    trap.causeMask &&& mask = 0 := by
  have hwithin : trap.causeMask &&& Cause.recorded = trap.causeMask := by
    cases trap with
    | unusable unit =>
        have hall : (Cause.coprocessor ||| (Cause.exceptionCode ||| Cause.branchDelay)) &&&
            Cause.recorded =
              Cause.coprocessor ||| (Cause.exceptionCode ||| Cause.branchDelay) := by decide
        exact hall
    | _ =>
        have hboth : (Cause.exceptionCode ||| Cause.branchDelay) &&& Cause.recorded =
            Cause.exceptionCode ||| Cause.branchDelay := by decide
        exact hboth
  exact and_eq_zero_of_le hwithin (UInt32.and_comm mask _ ▸ hmask)

/-- A trap records nothing apart from those fields. -/
theorem causeBits_and (trap : Trap) (inDelaySlot : Bool) {mask : UInt32}
    (hmask : Cause.recorded &&& mask = 0) : trap.causeBits inDelaySlot &&& mask = 0 := by
  have hcode : (trap.cause.code <<< 2 ||| if inDelaySlot then Cause.branchDelay else 0) &&&
      Cause.recorded = trap.cause.code <<< 2 ||| if inDelaySlot then Cause.branchDelay else 0 := by
    cases trap.cause <;> cases inDelaySlot <;> decide
  have hunit : trap.causeUnit &&& Cause.recorded = trap.causeUnit := by
    cases trap with
    | unusable unit =>
        have hfield : Cause.coprocessor &&& Cause.recorded = Cause.coprocessor := by decide
        rw [causeUnit, UInt32.and_assoc, hfield]
    | _ => exact UInt32.zero_and
  have hwithin : trap.causeBits inDelaySlot &&& Cause.recorded = trap.causeBits inDelaySlot := by
    rw [causeBits, or_and, hunit, hcode]
  exact and_eq_zero_of_le hwithin (UInt32.and_comm mask _ ▸ hmask)

end Trap

namespace Control

/-- What holds of the control registers while the interrupt lines are `lines`. -/
structure Intact (lines : UInt32) (c : Control) : Prop where
  identification : c.get identification = 2
  defined : c.get cause &&& ~~~Cause.defined = 0
  lines : field (c.get cause) Cause.lines = lines &&& 0x3F

variable {lines : UInt32} {c : Control}

/-- The registers are intact at power-on. -/
theorem intact_initial : Intact 0 initial :=
  ⟨by decide, by decide, by decide⟩

/-- Registers that show the same in these two places are intact together. -/
theorem Intact.congr (h : Intact lines c) {d : Control}
    (hidentification : d.get Control.identification = c.get Control.identification)
    (hcause : d.get cause = c.get cause) : Intact lines d :=
  ⟨hidentification.trans h.identification, hcause ▸ h.defined, hcause ▸ h.lines⟩

/-- So are they when the cause register changes in defined fields apart from the lines. -/
theorem Intact.of_replace (h : Intact lines c) {d : Control} {mask bits : UInt32}
    (hidentification : d.get Control.identification = c.get Control.identification)
    (hcause : d.get cause = c.get cause &&& ~~~mask ||| bits)
    (hmask : ∀ m, m = ~~~Cause.defined ∨ m = Cause.lines → mask &&& m = 0)
    (hbits : ∀ m, m = ~~~Cause.defined ∨ m = Cause.lines → bits &&& m = 0) : Intact lines d := by
  have hkept (m : UInt32) (hm : m = ~~~Cause.defined ∨ m = Cause.lines) :
      d.get cause &&& m = c.get cause &&& m := by
    rw [hcause, and_of_replace (hmask m hm) (hbits m hm)]
  refine ⟨hidentification.trans h.identification, ?_, ?_⟩
  · rw [hkept _ (.inl rfl), h.defined]
  · rw [← h.lines, field, field, hkept _ (.inr rfl)]

/-- A write by a program reaches the software interrupts of the cause register and no more. -/
theorem Intact.write (h : Intact lines c) (index : Nat) (value : UInt32) :
    Intact lines (c.write index value) := by
  have hidentification : (c.write index value).get Control.identification =
      c.get Control.identification := by
    rw [get_write]
    split
    · rename_i hindex
      exact if_pos hindex.symm
    · rfl
  by_cases hcause : index % 64 = cause
  · have hapart (m : UInt32) (hm : m = ~~~Cause.defined ∨ m = Cause.lines) :
        Cause.software &&& m = 0 := by
      rcases hm with rfl | rfl <;> decide
    have hget : (c.write index value).get cause =
        c.get cause &&& ~~~Cause.software ||| value &&& Cause.software := by
      have hprotected : ¬ index % 64 = Control.identification := by
        rw [hcause]
        decide
      rw [get_write, if_neg hprotected, if_pos hcause]
      exact if_pos hcause.symm
    refine h.of_replace hidentification hget hapart fun m hm => ?_
    rw [UInt32.and_assoc, hapart m hm, UInt32.and_zero]
  · refine h.congr hidentification ?_
    rw [get_write]
    exact if_neg fun hindex => hcause hindex.symm

/-- The return from a trap changes the status register alone. -/
theorem Intact.leaveHandler (h : Intact lines c) : Intact lines c.leaveHandler := by
  refine h.congr ?_ ?_ <;>
  · rw [get_leaveHandler]
    rfl

/-- A trap records in fields of its own. -/
theorem Intact.enterHandler (h : Intact lines c) (trap : Trap) (inDelaySlot : Bool)
    (resume : UInt32) :
    Intact lines ((Processor.recorded c trap).enterHandler trap.cause inDelaySlot resume) := by
  have hapart (m : UInt32) (hm : m = ~~~Cause.defined ∨ m = Cause.lines) :
      Cause.recorded &&& m = 0 := by
    rcases hm with rfl | rfl <;> decide
  refine h.of_replace ?_ ?_ (fun m hm => trap.causeMask_and (hapart m hm))
    fun m hm => trap.causeBits_and inDelaySlot (hapart m hm)
  · rw [get_recorded_enterHandler]
    rfl
  · rw [get_recorded_enterHandler]
    rfl

/-- Setting the lines from outside is what replaces them. -/
theorem Intact.setLines (h : Intact lines c) (newer : UInt32) :
    Intact newer (c.setLines newer) := by
  have hlow : UInt32.ofNat (lowestBit Cause.lines) = 10 := by decide
  have hget : (c.setLines newer).get cause =
      c.get cause &&& ~~~Cause.lines ||| newer <<< 10 &&& Cause.lines := by
    rw [get_setLines, setField, hlow]
    rfl
  refine ⟨?_, ?_, ?_⟩
  · rw [get_setLines]
    exact h.identification
  · have hapart : Cause.lines &&& ~~~Cause.defined = 0 := by decide
    rw [hget, and_of_replace hapart, h.defined]
    rw [UInt32.and_assoc, hapart, UInt32.and_zero]
  · have hregister : Cause.fields ∈ registers := by simp [registers]
    have hnamed : ⟨"IP", Cause.lines⟩ ∈ Cause.fields := by simp [Cause.fields]
    have hsix : ∀ i < 32, bit 0x3F i = decide (i < 6) := by decide
    have hwidth : width Cause.lines = 6 := by decide
    refine ext_bit fun i hi => ?_
    rw [get_setLines, bit_and, hsix i hi, ← hwidth, Bool.and_comm]
    exact (field_setField_of_mem hregister hnamed (c.get cause) newer).1 i

end Control

namespace Processor

open Control (Intact)

variable {lines : UInt32} {p : Processor}

/-- A tick keeps the registers intact, on any bus. -/
theorem intact_tick {β : Type} [Bus β] (h : Intact lines p.control) (bus : β) :
    Intact lines (p.tick bus).2.1.control := by
  rcases htrap : p.trap? bus with _ | trap
  · rw [control_tick_of_completed (completed?_of_trap? htrap)]
    generalize Instruction.decode (fetchedWord (p.fetch bus).1) = instruction
    cases instruction with
    | moveToControl source index => exact h.write index _
    | returnFromException => exact h.leaveHandler
    | _ => exact h
  · rw [control_tick_of_trap htrap]
    exact h.enterHandler trap _ _

/-- The interrupt lines that an event sets. -/
def Event.lines? : Event → Option UInt32
  | .change (.setInterruptLines lines) => some lines
  | .change .reset => some 0
  | _ => none

/-- The interrupt lines that a run from power-on sets last. -/
def lastLines (events : List Event) : UInt32 :=
  (events.filterMap Event.lines?).getLastD 0

/-- Every event keeps the registers intact, with the lines that it sets. -/
theorem intact_perform (h : Intact lines p.control) (event : Event) :
    Intact (event.lines?.getD lines) (p.perform event).control := by
  cases event with
  | tick bus => exact intact_tick h bus
  | change change =>
      cases change with
      | setPc pc => exact h
      | setReg index value =>
          rw [perform, Processor.change, setReg_eq]
          exact h
      | setRegDelayed index value =>
          rw [perform, Processor.change, setRegDelayed_eq]
          exact h
      | setControlReg index value => exact h.write index value
      | setInterruptLines newer => exact h.setLines newer
      | enterHandler why => exact h.enterHandler (.plain why) _ _
      | reset => exact Control.intact_initial

/-- The registers stay intact along a run; the lines are those that it sets last. -/
theorem intact_performAll (h : Intact lines p.control) (events : List Event) :
    Intact ((events.filterMap Event.lines?).getLastD lines) (p.performAll events).control := by
  induction events generalizing p lines with
  | nil => exact h
  | cons event later ih =>
      have hlater := ih (intact_perform h event)
      rw [List.filterMap_cons]
      cases hlines : event.lines? with
      | none =>
          rw [hlines] at hlater
          exact hlater
      | some newer =>
          rw [hlines] at hlater
          rw [List.getLastD_cons]
          exact hlater

/-- **What programs cannot change.**  After any run, the identification is 2, the cause
register has no bit outside its fields, and its interrupt lines are the low six bits of
what was last set from outside. -/
theorem control_intact (policy : UnknownOpcode) (events : List Event) :
    let p := (initial policy).performAll events
    p.controlReg Control.identification = 2 ∧
      p.controlReg Control.cause &&& ~~~Cause.defined = 0 ∧
      field (p.controlReg Control.cause) Cause.lines = lastLines events &&& 0x3F := by
  have h : Intact (lastLines events) ((initial policy).performAll events).control :=
    intact_performAll Control.intact_initial events
  exact ⟨h.identification, h.defined, h.lines⟩

end Processor
end PlayStation
