import PlayStation.Graphics.Vram
import PlayStation.Memory
import PlayStation.Text.Hex

/-!
# What can go wrong

The errors of the machine and of the programs around it, and their wording.
-/

namespace PlayStation

/-- The errors of the machine and of its programs. -/
inductive Error where
  | access (e : AccessError)
  | programTooLarge (e : ImageTooLarge)
  | firmwareNotFound (path : String)
  | firmwareSize (expected got : Nat)
  | vram (e : InvalidVramAccess)
  /-- Settings that cannot be read. -/
  | settings
  /-- A file that cannot be read or written. -/
  | file
  deriving DecidableEq, Repr

namespace Error

/-- The text shown to people.  What a settings or file error says depends on
its circumstances and is left out. -/
def message : Error → String
  | access e => s!"Invalid memory access at 0x{Text.hexWord e.address}"
  | programTooLarge e =>
    s!"Program of {e.size} bytes does not fit at 0x{Text.hexWord e.address}"
  | firmwareNotFound path => s!"BIOS file not found: {path}"
  | firmwareSize expected got => s!"Invalid BIOS size: {got} bytes (expected {expected})"
  | vram e => s!"GPU error: Invalid VRAM access at ({e.x}, {e.y})"
  | settings => "Configuration error"
  | file => "I/O error"

end Error
end PlayStation
