import PlayStation.Clock
import PlayStation.Machine.Board
import PlayStation.Processor.Tick

/-!
# The machine

A processor and a clock on a board.
-/

namespace PlayStation

/-- The machine. -/
structure Machine where
  processor : Processor
  board : Board
  clock : Clock

namespace Machine

/-- The machine after power-on. -/
def initial (policies : Policies) : Machine where
  processor := .initial policies.unknownOpcode
  board := .initial policies.unhandledCommand
  clock := {}

/-- Resets processor, board and clock. -/
def reset (m : Machine) : Machine where
  processor := m.processor.reset
  board := m.board.reset
  clock := m.clock.reset

/-- Copies a program to a virtual address in main memory.  An address outside
main memory is reported as given, an image that does not fit by its physical
address. -/
def loadProgram (m : Machine) (image : Array UInt8) (address : UInt32) : Except Error Machine :=
  let physical := physicalAddress address
  if Board.ramSize ≤ physical.toNat then .error (.access ⟨address⟩)
  else
    match m.board.loadImage physical image with
    | .ok board => .ok { m with board }
    | .error e => .error (.programTooLarge e)

/-- Loads the firmware from the contents of a file, or reports that there is no
such file. -/
def loadFirmware (m : Machine) (path : String) (contents : Option (Array UInt8)) :
    Except Error Machine :=
  match contents with
  | none => .error (.firmwareNotFound path)
  | some image => (m.board.loadFirmware image).map fun board => { m with board }

/-- Continues at another address. -/
def setPc (m : Machine) (pc : UInt32) : Machine :=
  { m with processor := m.processor.setPc pc }

/-- One tick. -/
def step (m : Machine) : Machine :=
  let (cycles, processor, board) := m.processor.tick m.board
  { processor, board, clock := m.clock.consume cycles }

/-- The cycles that a tick takes, reported in a word. -/
def stepCycles (m : Machine) : UInt32 :=
  UInt32.ofNat (m.step.clock.cycles - m.clock.cycles)

/-- `ticks` ticks. -/
def run : (ticks : Nat) → Machine → Machine
  | 0, m => m
  | ticks + 1, m => run ticks m.step

/-- The cycles that `ticks` ticks take. -/
def runCycles (ticks : Nat) (m : Machine) : Nat :=
  (m.run ticks).clock.cycles - m.clock.cycles

end Machine
end PlayStation
