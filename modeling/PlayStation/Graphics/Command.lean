import PlayStation.Bits

/-!
# Drawing commands

The top byte of a command's first word is its opcode.  It decides what the
command does (`Command.ofOpcode`) and, for the commands that are not drawn, how
many words belong to it (`CommandLength.ofOpcode`).
-/

namespace PlayStation

/-- Which of a polygon's features an opcode asks for. -/
structure PolygonForm where
  shaded : Bool
  quad : Bool
  textured : Bool
  translucent : Bool
  raw : Bool
  deriving DecidableEq, Repr

namespace PolygonForm

/-- The number of corners. -/
def corners (f : PolygonForm) : Nat :=
  if f.quad then 4 else 3

/-- The number of words: the first colour, a position per corner, a texture
word per corner of a textured polygon, and a colour per further corner of a
shaded one. -/
def words (f : PolygonForm) : Nat :=
  1 + f.corners + (if f.textured then f.corners else 0) +
    (if f.shaded then f.corners - 1 else 0)

/-- The form that the five low bits of a polygon opcode spell. -/
def ofBits (opcode : UInt8) : PolygonForm where
  shaded := opcode &&& 0x10 != 0
  quad := opcode &&& 0x08 != 0
  textured := opcode &&& 0x04 != 0
  translucent := opcode &&& 0x02 != 0
  raw := opcode &&& 0x01 != 0

/-- Whether the form is drawn: a polygon is not both shaded and textured, and
only a textured one may be raw. -/
def drawable (f : PolygonForm) : Bool :=
  !(f.shaded && f.textured) && (f.textured || !f.raw)

end PolygonForm

/-- What a command does. -/
inductive Command where
  /-- Forgets all queued words. -/
  | clearQueue
  | polygon (form : PolygonForm)
  /-- Copies the words that follow into a rectangle of pixels. -/
  | upload
  /-- Makes a rectangle of pixels readable. -/
  | download
  /-- Changes a drawing setting. -/
  | setting
  | noOperation
  /-- A command that is not carried out. -/
  | unhandled
  deriving DecidableEq, Repr

/-- Whether an opcode stands for no operation. -/
def Command.isNoOperation (opcode : UInt8) : Bool :=
  opcode == 0x00 || (0x04 ≤ opcode && opcode ≤ 0x1E) || opcode == 0xE0 ||
    (0xE7 ≤ opcode && opcode ≤ 0xEF)

/-- The command that an opcode starts. -/
def Command.ofOpcode (opcode : UInt8) : Command :=
  if opcode = 0x01 then .clearQueue
  else if 0x20 ≤ opcode ∧ opcode ≤ 0x3F then
    let form := PolygonForm.ofBits opcode
    if form.drawable then .polygon form else .unhandled
  else if opcode = 0xA0 then .upload
  else if opcode = 0xC0 then .download
  else if 0xE1 ≤ opcode ∧ opcode ≤ 0xE6 then .setting
  else if isNoOperation opcode then .noOperation
  else .unhandled

/-- How many words belong to a command. -/
inductive CommandLength where
  /-- Exactly this many, the first one included. -/
  | fixed (words : Nat)
  /-- This many and then all words up to and including an end mark. -/
  | polyline (first : Nat)
  deriving DecidableEq, Repr

namespace CommandLength

/-- The length of the command that an opcode starts. -/
def ofOpcode (opcode : UInt8) : CommandLength :=
  if opcode = 0x02 then .fixed 3
  else if 0x20 ≤ opcode ∧ opcode ≤ 0x3F then .fixed (PolygonForm.ofBits opcode).words
  else if 0x40 ≤ opcode ∧ opcode ≤ 0x5F then
    let length := if opcode &&& 0x10 ≠ 0 then 4 else 3
    if opcode &&& 0x08 ≠ 0 then .polyline length else .fixed length
  else if 0x60 ≤ opcode ∧ opcode ≤ 0x7F then
    .fixed (2 + (if opcode &&& 0x04 ≠ 0 then 1 else 0) + (if opcode &&& 0x18 = 0 then 1 else 0))
  else if 0x80 ≤ opcode ∧ opcode ≤ 0x9F then .fixed 4
  else .fixed 1

/-- Whether a word ends a polyline. -/
def isEndMark (word : UInt32) : Bool :=
  word &&& 0xF000F000 == 0x50005000

/-- Whether `word` is the last word of a command when it is the `consumed`-th. -/
def endsAt (length : CommandLength) (consumed : Nat) (word : UInt32) : Bool :=
  match length with
  | fixed words => words ≤ consumed
  | polyline first => first < consumed && isEndMark word

end CommandLength

/-- How far the command at the head of the queue has come.  The opcode stays
after the command is complete. -/
structure Progress where
  inProgress : Bool := false
  opcode : UInt8 := 0
  /-- Pixel words that an upload still waits for, 0 before its size is known. -/
  remaining : Nat := 0
  /-- Words of a dropped command that have left the queue. -/
  consumed : Nat := 0
  deriving DecidableEq, Repr

namespace Progress

/-- Begins a command. -/
def start (_ : Progress) (opcode : UInt8) : Progress where
  inProgress := true
  opcode

/-- Ends the command. -/
def complete (p : Progress) : Progress where
  opcode := p.opcode

end Progress
end PlayStation
