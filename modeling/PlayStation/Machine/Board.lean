import PlayStation.Error
import PlayStation.Graphics.Control

/-!
# The board

The memory map joins main memory, the scratchpad, the drawing unit and the
firmware.  Main memory appears four times over; the drawing unit takes whole
words only; firmware and unassigned ports ignore writes.

An access that no region answers reports its address.  One that a memory
answers but that runs past its end reports the offset in that memory.
-/

namespace PlayStation

/-- What answers at a physical address. -/
inductive Region where
  | ram
  | scratchpad
  | graphics
  | ports
  | firmware
  | unmapped
  deriving DecidableEq, Repr

/-- The region that a physical address lies in. -/
def Region.of (address : UInt32) : Region :=
  if address ≤ 0x007FFFFF then .ram
  else if 0x1F800000 ≤ address ∧ address ≤ 0x1F8003FF then .scratchpad
  else if 0x1F801810 ≤ address ∧ address ≤ 0x1F801817 then .graphics
  else if 0x1F801000 ≤ address ∧ address ≤ 0x1F802FFF then .ports
  else if 0x1FC00000 ≤ address ∧ address ≤ 0x1FC7FFFF then .firmware
  else .unmapped

/-- Everything on the bus. -/
structure Board where
  ram : Memory
  scratchpad : Memory
  firmware : Memory
  graphics : Graphics

namespace Board

def ramSize : Nat := 2097152
def scratchpadSize : Nat := 1024
def firmwareSize : Nat := 524288

/-- The board after power-on, without firmware. -/
def initial (unhandledCommand : UnhandledCommand) : Board where
  ram := .blank ramSize
  scratchpad := .blank scratchpadSize
  firmware := .blank firmwareSize
  graphics := .initial unhandledCommand

/-- Clears both memories and resets the drawing unit; the firmware stays. -/
def reset (b : Board) : Board :=
  { b with ram := b.ram.clear, scratchpad := b.scratchpad.clear, graphics := b.graphics.reset }

/-- The offset in main memory of an address in its region. -/
def ramOffset (address : UInt32) : UInt32 :=
  address &&& 0x1FFFFF

/-- The offset in the scratchpad of an address in its region. -/
def scratchpadOffset (address : UInt32) : UInt32 :=
  address - 0x1F800000

/-- The offset in the firmware of an address in its region. -/
def firmwareOffset (address : UInt32) : UInt32 :=
  address - 0x1FC00000

/-- The distance from the drawing unit's first port. -/
def graphicsOffset (address : UInt32) : UInt32 :=
  address - 0x1F801810

/-- Reads a port of the drawing unit.  A narrow read reads the whole word and
takes its bytes from the address on. -/
def readGraphics (b : Board) (address : UInt32) : UInt32 × Board :=
  let port := graphicsOffset address
  let (word, graphics) := b.graphics.read (port &&& ~~~3)
  (word >>> ((port &&& 3) * 8), { b with graphics })

/-- Reads at a physical address. -/
def read (b : Board) (width : Width) (address : UInt32) : Except AccessError UInt32 × Board :=
  match Region.of address with
  | .ram => (b.ram.read width (ramOffset address), b)
  | .scratchpad => (b.scratchpad.read width (scratchpadOffset address), b)
  | .firmware => (b.firmware.read width (firmwareOffset address), b)
  | .graphics =>
    let (value, b) := b.readGraphics address
    (.ok (width.truncate value), b)
  | .ports => (.ok 0, b)
  | .unmapped => (.error ⟨address⟩, b)

/-- Writes at a physical address. -/
def write (b : Board) (width : Width) (address value : UInt32) : Except AccessError Unit × Board :=
  match Region.of address with
  | .ram =>
    let (result, ram) := b.ram.write width (ramOffset address) value
    (result, { b with ram })
  | .scratchpad =>
    let (result, scratchpad) := b.scratchpad.write width (scratchpadOffset address) value
    (result, { b with scratchpad })
  | .graphics =>
    if width = .word then
      (.ok (), { b with graphics := b.graphics.write (graphicsOffset address) value })
    else (.ok (), b)
  | .firmware | .ports => (.ok (), b)
  | .unmapped => (.error ⟨address⟩, b)

instance : Bus Board where
  read := Board.read
  write := Board.write

/-- Copies an image into main memory. -/
def loadImage (b : Board) (address : UInt32) (image : Array UInt8) : Except ImageTooLarge Board :=
  (b.ram.loadImage address image).map fun ram => { b with ram }

/-- Replaces the firmware by an image of the right size. -/
def loadFirmware (b : Board) (image : Array UInt8) : Except Error Board :=
  if image.size = firmwareSize then .ok { b with firmware := ⟨image⟩ }
  else .error (.firmwareSize firmwareSize image.size)

end Board
end PlayStation
