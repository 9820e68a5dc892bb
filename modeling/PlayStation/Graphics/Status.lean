import PlayStation.Bits

/-!
# The drawing unit's status word

The word that reads of the control port return.  Drawing settings, display
settings and readiness bits share it, each under masks of its own.
-/

namespace PlayStation

open Bits

/-- How a translucent pixel is to be mixed with the one behind it. -/
inductive BlendMode where
  | half
  | add
  | subtract
  | quarter
  deriving DecidableEq, Repr

/-- The mode that the low two bits choose. -/
def BlendMode.ofBits (bits : UInt32) : BlendMode :=
  match (bits &&& 3).toNat with
  | 0 => .half
  | 1 => .add
  | 2 => .subtract
  | _ => .quarter

/-- How texels are stored. -/
inductive TexelDepth where
  | bits4
  | bits8
  | bits15
  deriving DecidableEq, Repr

/-- The depth that the low two bits choose. -/
def TexelDepth.ofBits (bits : UInt32) : TexelDepth :=
  match (bits &&& 3).toNat with
  | 0 => .bits4
  | 1 => .bits8
  | _ => .bits15

inductive HorizontalResolution where
  | r256
  | r320
  | r512
  | r640
  | r368
  deriving DecidableEq, Repr

inductive VerticalResolution where
  | r240
  | r480
  deriving DecidableEq, Repr

inductive VideoMode where
  | ntsc
  | pal
  deriving DecidableEq, Repr

/-- What the display settings in the status word say. -/
structure DisplayMode where
  horizontal : HorizontalResolution
  vertical : VerticalResolution
  video : VideoMode
  depth24 : Bool
  interlaced : Bool
  disabled : Bool
  deriving DecidableEq, Repr

namespace GraphicsStatus

/-- The bits that the drawing mode setting copies from its word. -/
def drawMode : UInt32 := 0x7FF
/-- The part of the drawing mode that a texture page word sets as well. -/
def texturePage : UInt32 := 0x1FF
def blendMode : UInt32 := 0x60
def texelDepth : UInt32 := 0x180
def setMask : UInt32 := 0x800
def checkMask : UInt32 := 0x1000
def reverse : UInt32 := 0x4000
def textureDisable : UInt32 := 0x8000
def horizontal368 : UInt32 := 0x10000
def horizontal : UInt32 := 0x60000
def vertical480 : UInt32 := 0x80000
def pal : UInt32 := 0x100000
def depth24 : UInt32 := 0x200000
def interlace : UInt32 := 0x400000
def displayDisable : UInt32 := 0x800000
def interrupt : UInt32 := 0x1000000
def dmaDirection : UInt32 := 0x60000000

/-- The named fields. -/
def fields : List Field := [
  ⟨"TEXPAGE_X", 0xF⟩, ⟨"TEXPAGE_Y", 0x10⟩, ⟨"SEMI_TRANSPARENCY", blendMode⟩,
  ⟨"TEXTURE_DEPTH", texelDepth⟩, ⟨"DITHER", 0x200⟩, ⟨"DRAW_TO_DISPLAY", 0x400⟩,
  ⟨"SET_MASK", setMask⟩, ⟨"CHECK_MASK", checkMask⟩, ⟨"RESERVED", 0x2000⟩,
  ⟨"REVERSE", reverse⟩, ⟨"TEXTURE_DISABLE", textureDisable⟩, ⟨"HRES_2", horizontal368⟩,
  ⟨"HRES_1", horizontal⟩, ⟨"VRES", vertical480⟩, ⟨"VIDEO_MODE", pal⟩,
  ⟨"COLOR_DEPTH_24", depth24⟩, ⟨"INTERLACE", interlace⟩,
  ⟨"DISPLAY_DISABLE", displayDisable⟩, ⟨"IRQ", interrupt⟩, ⟨"DMA_REQUEST", 0x2000000⟩,
  ⟨"READY_CMD", 0x4000000⟩, ⟨"READY_VRAM", 0x8000000⟩, ⟨"READY_DMA", 0x10000000⟩,
  ⟨"DMA_DIRECTION", dmaDirection⟩, ⟨"ODD_LINE", 0x80000000⟩]

/-- The word after power-on: display off, everything ready, and the bit that is
always set. -/
def initial : UInt32 := 0x1C802000

/-- The depth of the texture page. -/
def depthOf (status : UInt32) : TexelDepth :=
  .ofBits (field status texelDepth)

/-- The blend mode of untextured polygons. -/
def blendOf (status : UInt32) : BlendMode :=
  .ofBits (field status blendMode)

/-- Puts the drawing mode of a setting word into the status. -/
def withDrawMode (status word : UInt32) : UInt32 :=
  setFlag ((status &&& ~~~drawMode) ||| (word &&& drawMode)) textureDisable
    (slice word 11 1 != 0)

/-- Puts a texture page word into the status. -/
def withTexturePage (status page : UInt32) : UInt32 :=
  setFlag ((status &&& ~~~texturePage) ||| (page &&& texturePage)) textureDisable
    (slice page 11 1 != 0)

/-- Puts the mask settings of a setting word into the status. -/
def withMaskSettings (status word : UInt32) : UInt32 :=
  setFlag (setFlag status setMask (slice word 0 1 != 0)) checkMask (slice word 1 1 != 0)

/-- Puts the display mode of a setting word into the status. -/
def withDisplayMode (status word : UInt32) : UInt32 :=
  let status := setField status horizontal word
  let status := setFlag status vertical480 (slice word 2 1 != 0)
  let status := setFlag status pal (slice word 3 1 != 0)
  let status := setFlag status depth24 (slice word 4 1 != 0)
  let status := setFlag status interlace (slice word 5 1 != 0)
  let status := setFlag status horizontal368 (slice word 6 1 != 0)
  setFlag status reverse (slice word 7 1 != 0)

/-- The display mode that the status shows. -/
def displayMode (status : UInt32) : DisplayMode where
  horizontal :=
    if flag status horizontal368 then .r368
    else
      match (field status horizontal).toNat with
      | 0 => .r256
      | 1 => .r320
      | 2 => .r512
      | _ => .r640
  vertical := if flag status vertical480 then .r480 else .r240
  video := if flag status pal then .pal else .ntsc
  depth24 := flag status depth24
  interlaced := flag status interlace
  disabled := flag status displayDisable

end GraphicsStatus
end PlayStation
