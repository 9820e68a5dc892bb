import PlayStation.Processor.Basic
import PlayStation.Text.Hex

/-!
# The register report
-/

namespace PlayStation.Processor

open Text

/-- A register with its number, padded to two places. -/
def reportReg (p : Processor) (i : Nat) : String :=
  let number := if i < 10 then s!" {i}" else s!"{i}"
  s!"r{number}: 0x{hexWord (p.reg i.toUInt8)}  "

/-- Eight lines of four registers. -/
def reportRegs (p : Processor) : String :=
  "\n".intercalate ((List.range 8).map fun row =>
    String.join ((List.range 4).map fun column => p.reportReg (4 * row + column)))

/-- All registers as text. -/
def report (p : Processor) : String :=
  let controlLine (name : String) (value : UInt32) := s!"{name}0x{hexWord value}\n"
  "CPU Registers:\n" ++
  s!"PC: 0x{hexWord p.pc}  Current PC: 0x{hexWord p.currentPc}\n" ++
  s!"HI: 0x{hexWord p.hi}  LO: 0x{hexWord p.lo}\n\n" ++
  p.reportRegs ++ "\n\n" ++
  "COP0 Registers:\n" ++
  controlLine "SR:    " (p.control.get Control.status) ++
  controlLine "CAUSE: " (p.control.get Control.cause) ++
  controlLine "EPC:   " (p.control.get Control.programCounter) ++
  controlLine "BADA:  " (p.control.get Control.badAddress) ++
  controlLine "PRID:  " (p.control.get Control.identification) ++
  controlLine "CACHE: " p.cacheControl

end PlayStation.Processor
