import PlayStation.CommandLine.Environment
import PlayStation.CommandLine.LogFilter
import PlayStation.CommandLine.Number
import PlayStation.Error
import PlayStation.Machine.Batch
import PlayStation.Settings.Basic
import PlayStation.Text.Quoted

/-!
# The program that runs a machine

It loads settings, firmware and a program, runs the machine, shows how far the run
is, and writes the pixel store to a file at the end.  Which messages it shows, the settings
tell, unless a variable of the environment does.
-/

namespace PlayStation.CommandLine.Runner

/-- The name under which the program writes messages. -/
def name : String := "psxcore"

/-- What the arguments ask for. -/
structure Request where
  firmware : Option String := none
  program : Option String := none
  loadAddress : UInt32 := 0x80010000
  entry : Option UInt32 := none
  ticks : Nat := 100000
  settings : Option String := none
  dump : Option String := none
  deriving DecidableEq, Repr

def interface : Interface Request where
  about := "Run the PlayStation CPU/GPU core for a number of ticks"
  usage := "psxcore [OPTIONS]"
  arguments := [
    .file (some "bios") (some 'b') "BIOS" "Path to a 512KB BIOS image (e.g., SCPH1001.BIN)"
      fun path request => { request with firmware := some path },
    .file (some "program") (some 'p') "PROGRAM" "Raw program image to copy into RAM"
      fun path request => { request with program := some path },
    .address "load-address" none "LOAD_ADDRESS"
      "Virtual address the program is loaded at [default: 0x80010000]"
      fun loadAddress request => { request with loadAddress },
    .address "entry" (some 'e') "ENTRY"
      "Initial PC (defaults to the load address when a program is given)"
      fun entry request => { request with entry := some entry },
    .ticks "Number of CPU ticks to run [default: 100000]"
      fun ticks request => { request with ticks },
    .file (some "config") (some 'c') "CONFIG" "TOML configuration file"
      fun path request => { request with settings := some path },
    .file (some "dump-vram") none "DUMP_VRAM"
      "Write VRAM to this file after the run (raw little-endian 16-bit pixels)"
      fun path request => { request with dump := some path }]

/-- An error as the last line of the program shows it, with all it carries. -/
def details : Error → String
  | .access e => s!"InvalidMemoryAccess \x7b address: {e.address.toNat} \x7d"
  | .programTooLarge e =>
    s!"ProgramTooLarge \x7b address: {e.address.toNat}, size: {e.size} \x7d"
  | .firmwareNotFound path => s!"BiosNotFound({Text.quote path})"
  | .firmwareSize expected got =>
    s!"InvalidBiosSize \x7b expected: {expected}, got: {got} \x7d"
  | .vram e => s!"Gpu(InvalidVramAccess \x7b x: {e.x}, y: {e.y} \x7d)"
  | .settings => "Config"
  | .file => "Io"

/-- A message as a terminal shows it, with all lines but the first one indented.  A message
that leaves an escape sequence open swallows the end of its line. -/
def layOut (message : String) : String :=
  let lines := "\n    ".intercalate (message.splitOn "\n")
  Text.Terminal.plain s!"{lines}\n"

/-- What a filter shows of a message, if it lets it through. -/
def filtered (filter : LogFilter) (level : Verbosity) (message : String) : Option String :=
  if filter.shows name level message then some (layOut message) else none

section
variable {m : Type → Type} [Monad m] [Host m]

-- `shown?` gives the text that stands for a message, or none for one that is held back.
variable (shown? : Verbosity → String → Option String)

/-- Writes what is shown of a message. -/
def say (level : Verbosity) (message : String) : m Unit :=
  match shown? level message with
  | some text => Host.log name level text
  | none => pure ()

/-- The contents of a file that must be readable. -/
def contentsOf (path : String) : ExceptT Error m ByteArray := do
  match ← Host.load path with
  | some contents => return contents
  | none => throw .file

/-- The settings in a file. -/
def settingsFrom (path : String) : ExceptT Error m Settings := do
  match String.fromUTF8? (← contentsOf path) with
  | none => throw .file
  | some text =>
    match Settings.parse? text with
    | some settings => return settings
    | none => throw .settings

/-- Loads the firmware that is asked for. -/
def loadFirmware (machine : Machine) : Option String →
    ExceptT Error m Machine
  | none => return machine
  | some path => do
    say shown? .info s!"Loading BIOS from: {path}"
    match machine.loadFirmware path ((← Host.load path).map ByteArray.data) with
    | .ok machine => return machine
    | .error e =>
      say shown? .error s!"Failed to load BIOS: {e.message}"
      throw e

/-- Loads the program that is asked for, and sets where the machine begins. -/
def loadProgram (request : Request) (machine : Machine) : ExceptT Error m Machine := do
  match request.program with
  | none => return (request.entry.map machine.setPc).getD machine
  | some path =>
    match machine.loadProgram (← contentsOf path).data request.loadAddress with
    | .ok machine => return machine.setPc (request.entry.getD request.loadAddress)
    | .error e => throw e

/-- Writes the pixel store to the file that is asked for. -/
def writeDump (machine : Machine) : Option String → ExceptT Error m Unit
  | none => return
  | some path => do
    if ← Host.save path machine.board.graphics.vram.toBytes then
      say shown? .info s!"VRAM written to {path}"
    else throw .file

/-- The variable that tells which messages are shown. -/
def filterVariable : String := "RUST_LOG"

/-- Does what the arguments ask for. -/
def perform (added : Variables) (request : Request) : ExceptT Error m Unit := do
  let settings ← match request.settings with
    | some path => settingsFrom path
    | none => pure {}
  let level := (← added.valueOf filterVariable).getD settings.level
  let (filter, faults) := LogFilter.read level
  for fault in faults do
    printErrorLine s!"warning: {fault}, ignoring it"
  let shown? := filtered filter
  say shown? .info s!"{name} v0.1.0"
  let machine ← loadFirmware shown? (.initial settings.toPolicies) request.firmware
  let machine ← loadProgram request machine
  let pc := Text.hexWord machine.processor.pc
  say shown? .info s!"Starting at PC=0x{pc}, {request.ticks} ticks"
  let (checkpoints, machine) := machine.runWithCheckpoints request.ticks
  for c in checkpoints do
    let pc := Text.hexWord c.pc
    say shown? .info s!"Progress: {c.done}/{request.ticks} ticks | PC: 0x{pc} | Cycles: {c.cycles}"
  say shown? .info s!"Total cycles: {machine.clock.cycles}"
  let pc := Text.hexWord machine.processor.pc
  say shown? .info s!"Final PC: 0x{pc}"
  let status := Text.hexWord machine.board.graphics.status
  say shown? .info s!"GPUSTAT: 0x{status}"
  writeDump shown? machine request.dump

/-- Runs the program and returns its exit code. -/
def run (arguments : List String) : m UInt32 := do
  let added ← Variables.load
  match readArguments interface.arguments {} arguments with
  | .error stop => stop.report interface
  | .ok request =>
    match ← (perform added request).run with
    | .ok () => return 0
    | .error e =>
      printErrorLine s!"Error: {details e}"
      return 1

end
end PlayStation.CommandLine.Runner
