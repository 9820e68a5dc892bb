import PlayStation.CommandLine.Host
import PlayStation.CommandLine.Number
import PlayStation.Graphics.Picture

/-!
# The program for development tasks

Its command `vram-ppm` reads a dump of the pixel store and writes the picture.  The other
commands start the tools that format, build and check a project; of these only the arguments
are read here.
-/

namespace PlayStation.CommandLine.Converter

/-- What the program can be told to do. -/
inductive Command where
  | check
  | format
  | lint
  | test
  | bench
  | render
  | convert
  /-- Show the help of a command. -/
  | help
  deriving DecidableEq, Repr

/-- What the arguments of a command ask for. -/
structure Request where
  input : String := ""
  output : String := "vram.ppm"
  ticks : Nat := 100000
  deriving DecidableEq, Repr

namespace Command

/-- The commands, as the help lists them. -/
def all : List Command := [check, format, lint, test, bench, render, convert, help]

def name : Command → String
  | check => "ci"
  | format => "fmt"
  | lint => "clippy"
  | test => "test"
  | bench => "bench"
  | render => "render"
  | convert => "vram-ppm"
  | help => "help"

/-- The command of a name. -/
def ofName? (name : String) : Option Command :=
  all.find? (·.name = name)

def about : Command → String
  | check => "Run all CI checks (fmt, clippy, build, test)"
  | format => "Format code"
  | lint => "Run clippy"
  | test => "Run tests"
  | bench => "Run benchmarks"
  | render => "Run a raw program image and convert the resulting VRAM to PPM"
  | convert => "Convert a raw VRAM dump to a PPM image"
  | help => "Print this message or the help of the given subcommand(s)"

/-- The argument that names the file to read. -/
def input (valueName description : String) : Argument Request :=
  .file none none valueName description fun path request => { request with input := path }

/-- The argument that names the picture to write. -/
def output : Argument Request :=
  .file (some "output") (some 'o') "OUTPUT" "Output image [default: vram.ppm]"
    fun path request => { request with output := path }

def arguments : Command → List (Argument Request)
  | check => [.switch "verbose" "" id]
  | format => [.switch "check" "" id]
  | lint => [.switch "fix" "" id]
  | test => [
      .switch "doc" "" id,
      .switch "cpu" "Run only CPU module tests" id,
      .switch "gpu" "Run only GPU module tests" id,
      .switch "memory" "Run only Memory module tests" id,
      .switch "system" "Run only System module tests" id]
  | bench | help => []
  | render => [
      input "PROGRAM" "Program image loaded at 0x80010000",
      .ticks "Number of CPU ticks [default: 100000]" fun ticks request => { request with ticks },
      output]
  | convert => [input "INPUT" "Dump written by `psxcore --dump-vram`", output]

/-- How the command is called. -/
def usage (c : Command) : String :=
  let (positional, options) := c.arguments.partition (·.word.isNone)
  let parts := (if options.isEmpty then [] else ["[OPTIONS]"]) ++ positional.map Argument.label
  " ".intercalate ("xtask" :: c.name :: parts)

def interface (c : Command) : Interface Request where
  about := c.about
  usage := c.usage
  arguments := c.arguments

/-- The help of a command. -/
def manual (c : Command) : String :=
  if c = help then
    let rows := table [("[COMMAND]...", "Print help for the subcommand(s)")]
    s!"{c.about}\n\nUsage: {c.usage} [COMMAND]...\n\nArguments:\n{rows}"
  else c.interface.help

end Command

/-- How the program as a whole is called. -/
def usage : String := "xtask <COMMAND>"

/-- The help of the program as a whole. -/
def overview : String :=
  let commands := table (Command.all.map fun c => (c.name, c.about))
  s!"Development automation for psxcore\n\nUsage: {usage}\n\n" ++
    s!"Commands:\n{commands}\nOptions:\n{table [helpRow]}"

section
variable {m : Type → Type} [Monad m] [Host m]

/-- Tells why the program fails. -/
def fail (message : String) : m UInt32 := do
  printErrorLine s!"Error: {message}"
  return 1

/-- Reads a dump and writes the picture. -/
def convert (request : Request) : m UInt32 := do
  match ← Host.load request.input with
  | none => fail s!"reading {request.input}"
  | some dump =>
    match Picture.ofDump? dump with
    | none =>
      fail <| s!"{request.input} is {dump.size} bytes, " ++
        s!"expected {Picture.dumpSize} (1024×512 16-bit pixels)"
    | some picture =>
      if ← Host.save request.output picture then
        Host.print s!"✓ Wrote {request.output}\n"
        return 0
      else fail s!"writing {request.output}"

/-- Shows the help of the commands that are named, one inside the other. -/
def help : List String → m UInt32
  | [] => do
    Host.print overview
    return 0
  | name :: rest =>
    match Command.ofName? name, rest with
    | none, _ => (UsageError.unknownCommand name).report usage
    | some c, [] => do
      Host.print c.manual
      return 0
    | some c, inner :: _ => (UsageError.unknownCommand inner).report s!"xtask {c.name}"

/-- Performs a command. -/
def perform (c : Command) (request : Request) : m UInt32 :=
  match c with
  | .convert => convert request
  | .render => do
    Host.print "=== Render ===\n"
    if ← Host.present request.input then fail s!"{c.name} is not available"
    else fail s!"Program not found: {request.input}"
  | _ => fail s!"{c.name} is not available"

/-- Reads the arguments of a command and performs it. -/
def dispatch (name : String) (arguments : List String) : m UInt32 :=
  match Command.ofName? name with
  | none => (UsageError.unknownCommand name).report usage
  | some .help => help arguments
  | some c =>
    match readArguments c.arguments {} arguments with
    | .error stop => stop.report c.interface
    | .ok request => perform c request

/-- Shows the help where a command is missing. -/
def demandCommand : m UInt32 := do
  Host.printError overview
  return 2

/-- Runs the program and returns its exit code. -/
def run : (arguments : List String) → m UInt32
  | [] => demandCommand
  | first :: rest =>
    match Word.ofString first with
    | .separator =>
      match rest with
      | [] => demandCommand
      | text :: _ =>
        if (Command.ofName? text).isSome then (UsageError.unexpected text).report usage
        else (UsageError.unknownCommand text).report usage
    | .long "help" none | .short 'h' _ => do
      Host.print overview
      return 0
    | .long "help" (some value) => (UsageError.unexpectedValue value "--help").report usage
    | .long word _ => (UsageError.unexpected s!"--{word}").report usage
    | .short letter _ => (UsageError.unexpected s!"-{letter}").report usage
    | .plain text => dispatch text rest

end
end PlayStation.CommandLine.Converter
