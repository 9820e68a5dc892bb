import PlayStation.Processor.Arithmetic
import PlayStation.Processor.DataAccess
import PlayStation.Processor.Instruction
import PlayStation.Processor.Unaligned

/-!
# Executing one instruction

`execute` gives the processor after an instruction, or the trap that it
raises.  A trapping instruction has not touched the processor, so exceptions
are precise; what it did to the bus before it failed stays done.

The program counter has already passed the running instruction: it points at
the delay slot of a branch.
-/

namespace PlayStation.Processor

variable {β : Type} [Bus β]

/-- Whether a branch condition holds. -/
def holds (p : Processor) : Condition → Bool
  | .equal a b => p.reg a == p.reg b
  | .notEqual a b => p.reg a != p.reg b
  | .atMostZero a => (p.reg a).toInt32 ≤ 0
  | .aboveZero a => (p.reg a).toInt32 > 0
  | .belowZero a => (p.reg a).toInt32 < 0
  | .atLeastZero a => (p.reg a).toInt32 ≥ 0

/-- The result of a long operation. -/
def long (op : LongOperation) (a b : UInt32) : HiLo :=
  match op with
  | .multiply => Arithmetic.multiply a b
  | .multiplyUnsigned => Arithmetic.multiplyUnsigned a b
  | .divide => Arithmetic.divide a b
  | .divideUnsigned => Arithmetic.divideUnsigned a b

/-- Writes a result that may not exist. -/
def setChecked (p : Processor) (target : Register) : Option UInt32 → Except Trap Processor
  | some value => .ok (p.setReg target value)
  | none => .error (.plain .overflow)

/-- The address after the delay slot, where a call returns to. -/
def returnAddress (p : Processor) : UInt32 :=
  p.pc + 4

/-- The target of a jump within the current 256 MiB. -/
def jumpTarget (p : Processor) (target : UInt32) : UInt32 :=
  (p.pc &&& 0xF0000000) ||| target

/-- Branches if the condition holds. -/
def branchIf (p : Processor) (taken : Bool) (offset : UInt32) : Processor :=
  if taken then p.branchTo (p.pc + offset) else p

/-- The value that a merging load starts from: the load that falls due for the
register, or else the register. -/
def mergeBase (p : Processor) (target : Register) : UInt32 :=
  match p.loads.current with
  | some load => if load.reg = target then load.value else p.reg target
  | none => p.reg target

/-- The bits that must be clear in the address of a load. -/
def LoadKind.misalignment : LoadKind → UInt32
  | .word => 3
  | .half | .halfUnsigned => 1
  | _ => 0

/-- The bits that must be clear in the address of a store. -/
def StoreKind.misalignment : StoreKind → UInt32
  | .word => 3
  | .half => 1
  | _ => 0

/-- Reads what a load puts into its register. -/
def loadValue (p : Processor) (kind : LoadKind) (target : Register) (address : UInt32) (bus : β) :
    Except Trap UInt32 × β :=
  let then' (result : Except Trap UInt32 × β) (f : UInt32 → UInt32) := (result.1.map f, result.2)
  match kind with
  | .byte => then' (p.readData .byte address bus) fun v => (Bits.signExtend v 8).toUInt32
  | .byteUnsigned => p.readData .byte address bus
  | .half => then' (p.readData .half address bus) fun v => (Bits.signExtend v 16).toUInt32
  | .halfUnsigned => p.readData .half address bus
  | .word => p.readData .word address bus
  | .wordLeft =>
    then' (p.readData .word (address &&& ~~~3) bus)
      (Unaligned.loadLeft address (p.mergeBase target))
  | .wordRight =>
    then' (p.readData .word (address &&& ~~~3) bus)
      (Unaligned.loadRight address (p.mergeBase target))

/-- Executes a load. -/
def executeLoad (p : Processor) (kind : LoadKind) (target : Register) (address : UInt32)
    (bus : β) : Except Trap Processor × β :=
  if address &&& LoadKind.misalignment kind ≠ 0 then
    (.error (.badAddress .addressErrorLoad address), bus)
  else
    match p.loadValue kind target address bus with
    | (.ok value, bus) => (.ok (p.setRegDelayed target value), bus)
    | (.error trap, bus) => (.error trap, bus)

/-- Reads an aligned word, changes it and writes it back. -/
def updateWord (p : Processor) (address : UInt32) (change : UInt32 → UInt32) (bus : β) :
    Except Trap Processor × β :=
  match p.readData .word address bus with
  | (.ok word, bus) => p.writeData .word address (change word) bus
  | (.error trap, bus) => (.error trap, bus)

/-- Executes a store. -/
def executeStore (p : Processor) (kind : StoreKind) (value address : UInt32) (bus : β) :
    Except Trap Processor × β :=
  if address &&& StoreKind.misalignment kind ≠ 0 then
    (.error (.badAddress .addressErrorStore address), bus)
  else
    match kind with
    | .byte => p.writeData .byte address value bus
    | .half => p.writeData .half address value bus
    | .word => p.writeData .word address value bus
    | .wordLeft =>
      p.updateWord (address &&& ~~~3) (fun word => Unaligned.storeLeft address word value) bus
    | .wordRight =>
      p.updateWord (address &&& ~~~3) (fun word => Unaligned.storeRight address word value) bus

/-- Whether coprocessor `unit` may be used.  Only coprocessor 2 exists. -/
def coprocessorUsable (p : Processor) (unit : UInt32) : Bool :=
  unit == 2 && Bits.flag (p.control.get Control.status) Status.coprocessor2

/-- Executes an instruction that does not use the bus. -/
def executeLocal (p : Processor) : Instruction → Except Trap Processor
  | .shift kind target source amount => .ok (p.setReg target (kind.apply (p.reg source) amount))
  | .shiftBy kind target source amount =>
    .ok (p.setReg target (kind.apply (p.reg source) (p.reg amount &&& 0x1F)))
  | .operate op target a b => .ok (p.setReg target (op.apply (p.reg a) (p.reg b)))
  | .operateImmediate op target a value => .ok (p.setReg target (op.apply (p.reg a) value))
  | .addChecked target a b => p.setChecked target (Arithmetic.add? (p.reg a) (p.reg b))
  | .subtractChecked target a b => p.setChecked target (Arithmetic.sub? (p.reg a) (p.reg b))
  | .addCheckedImmediate target a value => p.setChecked target (Arithmetic.add? (p.reg a) value)
  | .loadUpper target value => .ok (p.setReg target value)
  | .long op a b =>
    let result := long op (p.reg a) (p.reg b)
    .ok { p with hi := result.hi, lo := result.lo }
  | .moveFromHi target => .ok (p.setReg target p.hi)
  | .moveFromLo target => .ok (p.setReg target p.lo)
  | .moveToHi source => .ok { p with hi := p.reg source }
  | .moveToLo source => .ok { p with lo := p.reg source }
  | .jump target => .ok (p.branchTo (p.jumpTarget target))
  | .jumpAndLink target =>
    .ok ((p.setReg 31 p.returnAddress).branchTo (p.jumpTarget target))
  | .jumpRegister source => .ok (p.branchTo (p.reg source))
  | .jumpAndLinkRegister link source =>
    .ok ((p.setReg link p.returnAddress).branchTo (p.reg source))
  | .branch condition offset => .ok (p.branchIf (p.holds condition) offset)
  | .branchAndLink condition offset =>
    .ok ((p.setReg 31 p.returnAddress).branchIf (p.holds condition) offset)
  | .syscall => .error (.plain .syscall)
  | .breakpoint => .error (.plain .breakpoint)
  | .moveFromControl target index => .ok (p.setRegDelayed target (p.control.get index))
  | .moveToControl source index => .ok (p.setControlReg index (p.reg source))
  | .returnFromException => .ok { p with control := p.control.leaveHandler }
  | .coprocessor unit =>
    if p.coprocessorUsable unit then .ok p else .error (.unusable unit)
  | .unknown =>
    match p.unknownOpcode with
    | .ignore => .ok p
    | .reservedInstruction => .error (.plain .reservedInstruction)
  | .load .. | .store .. => .ok p

/-- Executes an instruction. -/
def execute (p : Processor) (instruction : Instruction) (bus : β) : Except Trap Processor × β :=
  match instruction with
  | .load kind target base offset => p.executeLoad kind target (p.reg base + offset) bus
  | .store kind source base offset =>
    p.executeStore kind (p.reg source) (p.reg base + offset) bus
  | local' => (p.executeLocal local', bus)

end PlayStation.Processor
