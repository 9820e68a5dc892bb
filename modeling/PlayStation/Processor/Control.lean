import PlayStation.Bits
import PlayStation.Processor.Exception

/-!
# The control registers

Coprocessor 0 is a file of 64 registers.  Programs read all of them and write
most: the identification register never changes, and of the cause register
only the two software interrupt bits are theirs.

The low six bits of the status register are a stack of three pairs, each with
an interrupt enable bit and a mode bit.  An exception pushes a zero pair
(`enterHandler`), the return instruction pops (`leaveHandler`).
-/

namespace PlayStation

open Bits

/-! Masks of the status register. -/
namespace Status

def interruptEnable : UInt32 := 0x1
def modeStack : UInt32 := 0x3F
def interruptMask : UInt32 := 0xFF00
def isolateCache : UInt32 := 0x10000
def bootVectors : UInt32 := 0x400000
def coprocessor2 : UInt32 := 0x40000000

/-- The named fields. -/
def fields : List Field := [
  ⟨"IEC", interruptEnable⟩, ⟨"KUC", 0x2⟩, ⟨"IEP", 0x4⟩, ⟨"KUP", 0x8⟩, ⟨"IEO", 0x10⟩,
  ⟨"KUO", 0x20⟩, ⟨"MODE_STACK", modeStack⟩, ⟨"SW_MASK", 0x300⟩, ⟨"INTR_MASK", 0xFC00⟩,
  ⟨"INTERRUPT_MASK", interruptMask⟩, ⟨"ISC", isolateCache⟩, ⟨"PZ", 0x40000⟩,
  ⟨"PE", 0x100000⟩, ⟨"TS", 0x200000⟩, ⟨"BEV", bootVectors⟩, ⟨"CU", 0xF0000000⟩,
  ⟨"CU2", coprocessor2⟩]

end Status

/-! Masks of the cause register. -/
namespace Cause

def exceptionCode : UInt32 := 0x7C
def software : UInt32 := 0x300
def lines : UInt32 := 0xFC00
def interrupts : UInt32 := 0xFF00
def coprocessor : UInt32 := 0x30000000
def branchDelay : UInt32 := 0x80000000

/-- The named fields. -/
def fields : List Field := [
  ⟨"EXC_CODE", exceptionCode⟩, ⟨"SW", software⟩, ⟨"IP", lines⟩, ⟨"INTERRUPTS", interrupts⟩,
  ⟨"CE", coprocessor⟩, ⟨"BT", 0x40000000⟩, ⟨"BD", branchDelay⟩]

end Cause

/-- The control register file. -/
structure Control where
  slots : Vector UInt32 64
  deriving DecidableEq

namespace Control

/-- Register numbers. -/
def badAddress : Nat := 8
def status : Nat := 12
def cause : Nat := 13
def programCounter : Nat := 14
def identification : Nat := 15

/-- Reads a register; numbers wrap at 64. -/
def get (c : Control) (index : Nat) : UInt32 :=
  c.slots[index % 64]

/-- Overwrites a register; numbers wrap at 64. -/
def put (c : Control) (index : Nat) (value : UInt32) : Control :=
  ⟨c.slots.set (index % 64) value⟩

/-- The registers after power-on: all zero but the identification. -/
def initial : Control :=
  put ⟨Vector.replicate 64 0⟩ identification 2

/-- A write by a program, which leaves the identification and all of the cause
register but its software interrupt bits alone. -/
def write (c : Control) (index : Nat) (value : UInt32) : Control :=
  let index := index % 64
  if index = identification then c
  else if index = cause then
    c.put cause ((c.get cause &&& ~~~Cause.software) ||| (value &&& Cause.software))
  else c.put index value

/-- Whether an enabled interrupt is waiting. -/
def interruptPending (c : Control) : Bool :=
  flag (c.get status) Status.interruptEnable &&
    flag (c.get cause &&& c.get status) Cause.interrupts

/-- Whether data stores go to the instruction cache and not to the bus. -/
def isolated (c : Control) : Bool :=
  flag (c.get status) Status.isolateCache

/-- Sets the six external interrupt lines. -/
def setLines (c : Control) (lines : UInt32) : Control :=
  c.put cause (setField (c.get cause) Cause.lines lines)

/-- Pushes a zero pair onto the mode stack, records the cause and where to
resume.  `resume` is the address of the branch when the instruction stood in a
branch's delay slot. -/
def enterHandler (c : Control) (why : ExceptionCause) (inDelaySlot : Bool) (resume : UInt32) :
    Control :=
  let sr := c.get status
  let c := c.put status (setField sr Status.modeStack (field sr Status.modeStack <<< 2))
  let record := setField (c.get cause) Cause.exceptionCode why.code
  let c := c.put cause (setFlag record Cause.branchDelay inDelaySlot)
  c.put programCounter resume

/-- Pops the mode stack; the oldest pair stays where it is. -/
def leaveHandler (c : Control) : Control :=
  let sr := c.get status
  let mode := field sr Status.modeStack
  c.put status (setField sr Status.modeStack ((mode &&& (0x30 : UInt32)) ||| (mode >>> 2)))

/-- Records which coprocessor was missing. -/
def setMissingUnit (c : Control) (unit : UInt32) : Control :=
  c.put cause (setField (c.get cause) Cause.coprocessor unit)

/-- The address of the exception handler. -/
def handler (c : Control) : UInt32 :=
  if flag (c.get status) Status.bootVectors then 0xBFC00180 else 0x80000080

end Control
end PlayStation
