import PlayStation.Address
import PlayStation.Processor.Control
import PlayStation.Processor.DelayLatch
import PlayStation.Processor.InstructionCache
import PlayStation.Settings.Policy

/-!
# The processor's state

Registers, the two delay latches, the control registers and the instruction
cache, with the operations that change them from outside a tick.

A loaded value reaches its register one instruction after the load, and a
branch takes effect one instruction after the branch.  A write to a register
supersedes the load that falls due for it (`setReg`, `setRegDelayed`).
-/

namespace PlayStation

/-- A load on its way to a register. -/
structure LoadDelay where
  reg : UInt8
  value : UInt32
  deriving DecidableEq, Repr

/-- The processor. -/
structure Processor where
  regs : Vector UInt32 32
  /-- The address of the next instruction to fetch. -/
  pc : UInt32
  /-- The address of the instruction last fetched. -/
  currentPc : UInt32
  hi : UInt32
  lo : UInt32
  control : Control
  branches : DelayLatch UInt32
  loads : DelayLatch LoadDelay
  cacheControl : UInt32
  cache : InstructionCache
  unknownOpcode : UnknownOpcode
  /-- The instruction last fetched, 0 when fetching it failed. -/
  instruction : UInt32

namespace Processor

/-- Where execution starts. -/
def resetVector : UInt32 := 0xBFC00000

/-- The processor after power-on. -/
def initial (unknownOpcode : UnknownOpcode) : Processor where
  regs := Vector.replicate 32 0
  pc := resetVector
  currentPc := resetVector
  hi := 0
  lo := 0
  control := Control.initial
  branches := .empty
  loads := .empty
  cacheControl := 0
  cache := .empty
  unknownOpcode
  instruction := 0

/-- Back to the power-on state; the policy stays. -/
def reset (p : Processor) : Processor :=
  initial p.unknownOpcode

/-- The register slot that a number selects; numbers wrap at 32. -/
def slot (index : UInt8) : Fin 32 :=
  Fin.ofNat 32 index.toNat

/-- Overwrites a slot of the register file. -/
def putReg (p : Processor) (index : UInt8) (value : UInt32) : Processor :=
  { p with regs := p.regs.set (slot index).val value }

/-- Reads a register.  Number 0 is always zero; only the number itself counts
here, so a multiple of 32 other than 0 reads the slot. -/
def reg (p : Processor) (index : UInt8) : UInt32 :=
  if index = 0 then 0 else p.regs[slot index]

/-- Writes a register at once.  A load that falls due for it is dropped, and
register 0 keeps its value. -/
def setReg (p : Processor) (index : UInt8) (value : UInt32) : Processor :=
  let p :=
    match p.loads.current with
    | some load => if load.reg = index then { p with loads := p.loads.cancelCurrent } else p
    | none => p
  if index = 0 then p else p.putReg index value

/-- Schedules a load.  A load that falls due is carried out first, unless it is
for the same register. -/
def setRegDelayed (p : Processor) (index : UInt8) (value : UInt32) : Processor :=
  let p :=
    match p.loads.current with
    | some load =>
      let p := { p with loads := p.loads.cancelCurrent }
      if load.reg = index then p else p.putReg load.reg load.value
    | none => p
  if index = 0 then p
  else { p with loads := p.loads.schedule ⟨(slot index).val.toUInt8, value⟩ }

/-- Schedules a branch; one that falls due is dropped. -/
def branchTo (p : Processor) (target : UInt32) : Processor :=
  { p with branches := p.branches.cancelCurrent.schedule target }

/-- Whether the running instruction stands in the delay slot of a branch. -/
def inDelaySlot (p : Processor) : Bool :=
  p.branches.current.isSome

/-- Enters the exception handler.  An instruction in a delay slot is resumed at
its branch. -/
def enterHandler (p : Processor) (cause : ExceptionCause) : Processor :=
  let inDelaySlot := p.inDelaySlot
  let resume := if inDelaySlot then p.currentPc - 4 else p.currentPc
  let control := p.control.enterHandler cause inDelaySlot resume
  { p with control, pc := control.handler, branches := .empty }

/-- Records what a trap reports and enters the handler. -/
def raise (p : Processor) : Trap → Processor
  | .plain cause => p.enterHandler cause
  | .badAddress cause address =>
    { p with control := p.control.put Control.badAddress address }.enterHandler cause
  | .unusable unit =>
    { p with control := p.control.setMissingUnit unit }.enterHandler .coprocessorUnusable

/-- Sets the external interrupt lines. -/
def setInterruptLines (p : Processor) (lines : UInt32) : Processor :=
  { p with control := p.control.setLines lines }

/-- Continues at another address; a pending branch is dropped. -/
def setPc (p : Processor) (pc : UInt32) : Processor :=
  { p with pc, branches := .empty }

/-- Reads a control register. -/
def controlReg (p : Processor) (index : Nat) : UInt32 :=
  p.control.get index

/-- Writes a control register as a program would. -/
def setControlReg (p : Processor) (index : Nat) (value : UInt32) : Processor :=
  { p with control := p.control.write index value }

/-- The load that falls due after the next instruction. -/
def pendingLoad (p : Processor) : Option LoadDelay :=
  p.loads.next

/-- The branch that falls due after the next instruction. -/
def pendingBranch (p : Processor) : Option UInt32 :=
  p.branches.next

end Processor
end PlayStation
