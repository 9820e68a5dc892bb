import PlayStation.Graphics.Polygon

/-!
# The drawing port

Words written to the drawing port make up commands.  A few settings take effect
at once when no command is in progress (`immediate?`); every other word is
queued, and commands are carried out as soon as their words are there.

`run` carries out what the queue allows.  Each round but the last removes a word
from the queue, so it ends.
-/

namespace PlayStation.Graphics

open Bits

/-- The 10-bit coordinates in a drawing area word. -/
def areaCoordinates (word : UInt32) : Nat × Nat :=
  ((slice word 0 10).toNat, (slice word 10 10).toNat)

/-! ## Settings -/

/-- The draw mode, and whether rectangles are mirrored. -/
def setDrawMode (g : Graphics) (word : UInt32) : Graphics :=
  { g with
    status := GraphicsStatus.withDrawMode g.status word
    flip := ⟨slice word 12 1 != 0, slice word 13 1 != 0⟩ }

/-- The texture window. -/
def setWindow (g : Graphics) (word : UInt32) : Graphics :=
  { g with window := .ofWord word }

/-- The upper left corner of the drawing area. -/
def setTopLeft (g : Graphics) (word : UInt32) : Graphics :=
  let (left, top) := areaCoordinates word
  { g with area := { g.area with left, top } }

/-- The lower right corner of the drawing area. -/
def setBottomRight (g : Graphics) (word : UInt32) : Graphics :=
  let (right, bottom) := areaCoordinates word
  { g with area := { g.area with right, bottom } }

/-- How far drawing is moved, in two signed 11-bit numbers. -/
def setOffset (g : Graphics) (word : UInt32) : Graphics :=
  { g with offset := ⟨(signExtend word 11).toInt, (signExtend (word >>> 11) 11).toInt⟩ }

/-- Whether drawing sets the mask bit, and whether it leaves masked pixels alone. -/
def setMasks (g : Graphics) (word : UInt32) : Graphics :=
  { g with status := GraphicsStatus.withMaskSettings g.status word }

/-- Carries out a setting word that has been queued. -/
def applySetting (g : Graphics) (word : UInt32) : Graphics :=
  match (word >>> 24).toNat with
  | 0xE1 => g.setDrawMode word
  | 0xE2 => g.setWindow word
  | 0xE3 => g.setTopLeft word
  | 0xE4 => g.setBottomRight word
  | 0xE5 => g.setOffset word
  | _ => g.setMasks word

/-- Carries out a word that needs no queue, if it is one. -/
def immediate? (g : Graphics) (word : UInt32) : Option Graphics :=
  match (word >>> 24).toNat with
  | 0xE1 => some (g.setDrawMode word)
  | 0xE3 => some (g.setTopLeft word)
  | 0xE4 => some (g.setBottomRight word)
  | 0xE5 => some (g.setOffset word)
  | opcode =>
    if opcode = 0x00 ∨ (0x04 ≤ opcode ∧ opcode ≤ 0x1E) ∨ opcode = 0xE0 ∨
        (0xE7 ≤ opcode ∧ opcode ≤ 0xEF) then some g
    else none

/-! ## Commands -/

/-- Copies the half words of a word to the next places of a rectangle, as long
as there are any. -/
def uploadPixels (vram : Vram) (t : Transfer) : List UInt16 → Vram × Transfer
  | [] => (vram, t)
  | pixel :: rest =>
    if t.isDone then (vram, t)
    else
      let (x, y) := t.position
      uploadPixels (vram.set x y pixel) t.step rest

/-- The two pixels of a word. -/
def pixelsOf (word : UInt32) : List UInt16 :=
  [word.toUInt16, (word >>> 16).toUInt16]

/-- One step of an upload: reads the rectangle, or copies one word into it. -/
def stepUpload (g : Graphics) : Graphics :=
  if g.progress.remaining = 0 then
    match g.queue.dequeue? 3 with
    | some ([_, position, size], queue) =>
      let transfer := Transfer.ofWords position size
      { g with
        queue
        progress := { g.progress with remaining := transfer.wordCount }
        upload := some transfer }
    | _ => g
  else
    match g.queue.dequeue? 1, g.upload with
    | some ([word], queue), some transfer =>
      let (vram, transfer) := uploadPixels g.vram transfer (pixelsOf word)
      let remaining := g.progress.remaining - 1
      if remaining = 0 then
        { g with vram, queue, upload := none, progress := g.progress.complete }
      else
        { g with vram, queue, upload := some transfer, progress := { g.progress with remaining } }
    | some (_, queue), none => { g with queue, progress := g.progress.complete }
    | _, _ => g

/-- Makes a rectangle readable. -/
def startDownload (g : Graphics) : Graphics :=
  match g.queue.dequeue? 3 with
  | some ([_, position, size], queue) =>
    { g with
      queue
      readback := some (.ofWords position size)
      progress := g.progress.complete }
  | _ => g

/-- Drops up to `count` queued words of a command of the given length, and ends
the command with its last word. -/
def discard (g : Graphics) (length : CommandLength) : (count : Nat) → Graphics
  | 0 => g
  | count + 1 =>
    match g.queue.dequeue? 1 with
    | some ([word], queue) =>
      let consumed := g.progress.consumed + 1
      if length.endsAt consumed word then
        { g with queue, progress := g.progress.complete }
      else
        discard { g with queue, progress := { g.progress with consumed } } length count
    | _ => g

/-- Carries out as much of the command in progress as the queue allows. -/
def step (g : Graphics) : Graphics :=
  match Command.ofOpcode g.progress.opcode with
  | .clearQueue => { g with queue := g.queue.clear, progress := g.progress.complete }
  | .polygon form =>
    match g.queue.dequeue? form.words with
    | some (words, queue) => (drawPolygon { g with queue } form words).complete
    | none => g
  | .upload => g.stepUpload
  | .download => g.startDownload
  | .setting =>
    match g.queue.dequeue? 1 with
    | some ([word], queue) => (applySetting { g with queue } word).complete
    | _ => g
  | .noOperation =>
    match g.queue.dequeue? 1 with
    | some (_, queue) => { g with queue, progress := g.progress.complete }
    | none => g
  | .unhandled =>
    match g.unhandledCommand with
    | .drop => g.discard (.ofOpcode g.progress.opcode) g.queue.count
    | .stall => g

/-- Begins the command at the head of the queue unless one is in progress. -/
def begin? (g : Graphics) : Option Graphics :=
  if g.progress.inProgress then some g
  else g.queue.opcode?.map fun opcode => { g with progress := g.progress.start opcode }

/-- Carries out queued commands until a round removes no word. -/
def run (g : Graphics) : Graphics :=
  match g.begin? with
  | none => g
  | some g' =>
    let after := g'.step
    if after.queue.count < g.queue.count then after.run else after
  termination_by g.queue.count

/-- A write to the drawing port. -/
def writeDrawing (g : Graphics) (word : UInt32) : Graphics :=
  let immediate := if g.progress.inProgress then none else g.immediate? word
  match immediate with
  | some g => g
  | none => run { g with queue := g.queue.push word }

end PlayStation.Graphics
