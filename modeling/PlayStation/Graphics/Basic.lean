import PlayStation.Graphics.Canvas
import PlayStation.Graphics.Command
import PlayStation.Graphics.Transfer
import PlayStation.Graphics.WordQueue
import PlayStation.Settings.Policy

/-!
# The drawing unit's state
-/

namespace PlayStation

open Bits

/-- What the display shows of the pixel store, and where on the screen. -/
structure DisplayArea where
  x : Nat := 0
  y : Nat := 0
  x1 : Nat := 0
  x2 : Nat := 0
  y1 : Nat := 0
  y2 : Nat := 0
  deriving DecidableEq, Repr

/-- Whether rectangles are mirrored. -/
structure RectangleFlip where
  x : Bool := false
  y : Bool := false
  deriving DecidableEq, Repr

/-- The drawing unit. -/
structure Graphics where
  vram : Vram
  status : UInt32
  queue : WordQueue
  progress : Progress
  area : DrawingArea
  offset : DrawOffset
  window : TextureWindow
  display : DisplayArea
  flip : RectangleFlip
  /-- The rectangle that command words are being copied into. -/
  upload : Option Transfer
  /-- The rectangle that reads of the drawing port return. -/
  readback : Option Transfer
  /-- What reads return when no rectangle is being read. -/
  latch : UInt32
  unhandledCommand : UnhandledCommand

namespace Graphics

/-- The drawing unit after power-on. -/
def initial (unhandledCommand : UnhandledCommand) : Graphics where
  vram := .blank
  status := GraphicsStatus.initial
  queue := .empty
  progress := {}
  area := {}
  offset := {}
  window := {}
  display := {}
  flip := {}
  upload := none
  readback := none
  latch := 0
  unhandledCommand

/-- Back to the power-on settings.  The pixels, the value that reads return and
the policy stay. -/
def reset (g : Graphics) : Graphics :=
  { g with
    status := GraphicsStatus.initial
    queue := g.queue.clear
    progress := {}
    area := {}
    offset := {}
    window := {}
    display := {}
    flip := {}
    upload := none
    readback := none }

/-- Ends the command in progress. -/
def complete (g : Graphics) : Graphics :=
  { g with progress := g.progress.complete }

/-- Writes one pixel. -/
def writePixel (g : Graphics) (x y : Nat) (pixel : UInt16) : Graphics :=
  { g with vram := g.vram.set x y pixel }

/-- Writes a rectangle of pixels. -/
def writeRect (g : Graphics) (x y w h : Nat) (pixels : Array UInt16) :
    Except InvalidVramAccess Graphics :=
  (g.vram.writeRect x y w h pixels).map fun vram => { g with vram }

/-- What a polygon with the given paint is drawn with. -/
def canvas (g : Graphics) (paint : Paint) : Canvas where
  area := g.area
  offset := g.offset
  window := g.window
  checkMask := flag g.status GraphicsStatus.checkMask
  setMask := flag g.status GraphicsStatus.setMask
  paint

/-- The display mode. -/
def displayMode (g : Graphics) : DisplayMode :=
  GraphicsStatus.displayMode g.status

end Graphics
end PlayStation
