import PlayStation.Clock
import PlayStation.Graphics.Drawing

/-!
# The control port and the read ports

Words written to the control port are commands of one word each.  Reads return
the status word, or pixels of the rectangle made readable, or the answer to the
last query.
-/

namespace PlayStation.Graphics

open Bits

/-- Forgets the command in progress and all queued words. -/
def resetCommands (g : Graphics) : Graphics :=
  { g with queue := g.queue.clear, progress := g.progress.complete, upload := none }

/-- The answer to a query, if the query has one. -/
def query? (g : Graphics) (kind : UInt32) : Option UInt32 :=
  match (kind &&& 7).toNat with
  | 2 => some g.window.toWord
  | 3 => some (UInt32.ofNat g.area.left ||| (UInt32.ofNat g.area.top <<< 10))
  | 4 => some (UInt32.ofNat g.area.right ||| (UInt32.ofNat g.area.bottom <<< 10))
  | 5 =>
    let x := (Int32.ofInt g.offset.x).toUInt32 &&& 0x7FF
    let y := (Int32.ofInt g.offset.y).toUInt32 &&& 0x7FF
    some (x ||| (y <<< 11))
  | 7 => some 2
  | _ => none

/-- Carries out a control word. -/
def control (g : Graphics) (word : UInt32) : Graphics :=
  match (word >>> 24).toNat with
  | 0x00 => g.reset
  | 0x01 => g.resetCommands
  | 0x02 => { g with status := setFlag g.status GraphicsStatus.interrupt false }
  | 0x03 =>
    { g with status := setFlag g.status GraphicsStatus.displayDisable (slice word 0 1 != 0) }
  | 0x04 => { g with status := setField g.status GraphicsStatus.dmaDirection word }
  | 0x05 =>
    { g with
      display := { g.display with x := (slice word 0 10).toNat, y := (slice word 10 9).toNat } }
  | 0x06 =>
    { g with
      display := { g.display with x1 := (slice word 0 12).toNat, x2 := (slice word 12 12).toNat } }
  | 0x07 =>
    { g with
      display := { g.display with y1 := (slice word 0 10).toNat, y2 := (slice word 10 10).toNat } }
  | 0x08 => { g with status := GraphicsStatus.withDisplayMode g.status word }
  | command =>
    if 0x10 ≤ command ∧ command ≤ 0x1F then
      { g with latch := (g.query? word).getD g.latch }
    else g

/-- A write to the control port.  Queued commands get another chance to run. -/
def writeControl (g : Graphics) (word : UInt32) : Graphics :=
  (g.control word).run

/-- The next pixel of a rectangle, or 0 behind its end, and the cursor behind it. -/
def nextPixel (vram : Vram) (t : Transfer) : UInt16 × Transfer :=
  if t.isDone then (0, t)
  else
    let (x, y) := t.position
    (vram.get x y, t.step)

/-- A read of the drawing port: the next two pixels of the readable rectangle,
or the last value again. -/
def readDrawing (g : Graphics) : UInt32 × Graphics :=
  match g.readback with
  | none => (g.latch, g)
  | some transfer =>
    let (low, transfer) := nextPixel g.vram transfer
    let (high, transfer) := nextPixel g.vram transfer
    let word := low.toUInt32 ||| (high.toUInt32 <<< 16)
    let readback := if transfer.isDone then none else some transfer
    (word, { g with readback, latch := word })

/-- A read at an offset from the first port: bit 2 chooses the status word. -/
def read (g : Graphics) (offset : UInt32) : UInt32 × Graphics :=
  if offset &&& 4 = 0 then g.readDrawing else (g.status, g)

/-- A write at an offset from the first port: bit 2 chooses the control port. -/
def write (g : Graphics) (offset word : UInt32) : Graphics :=
  if offset &&& 4 = 0 then g.writeDrawing word else g.writeControl word

/-- A read by direct memory access, which takes a cycle. -/
def dmaRead (g : Graphics) (clock : Clock) : UInt32 × Graphics × Clock :=
  let (word, g) := g.read 0
  (word, g, clock.consume 1)

/-- A write by direct memory access, which takes a cycle. -/
def dmaWrite (g : Graphics) (clock : Clock) (word : UInt32) : Graphics × Clock :=
  (g.write 0 word, clock.consume 1)

end PlayStation.Graphics
