import PlayStation.CommandLine.Help

/-!
# The world around a program

Programs read and write whole files, print text, and write messages.  They are
written over any monad that offers these.
-/

namespace PlayStation.CommandLine

/-- How much is shown, and from where on a message is. -/
inductive Verbosity where
  | off
  | error
  | warn
  | info
  | debug
  | trace
  deriving DecidableEq, Repr

namespace Verbosity

def name : Verbosity → String
  | off => "OFF"
  | error => "ERROR"
  | warn => "WARN"
  | info => "INFO"
  | debug => "DEBUG"
  | trace => "TRACE"

def rank : Verbosity → Nat
  | off => 0
  | error => 1
  | warn => 2
  | info => 3
  | debug => 4
  | trace => 5

/-- The verbosity of a name in either case. -/
def ofName? (text : String) : Option Verbosity :=
  [off, error, warn, info, debug, trace].find? (·.name = text.map Char.toUpper)

end Verbosity

/-- What a program can do to the world around it. -/
class Host (m : Type → Type) where
  /-- The contents of a file, if it can be read. -/
  load : (path : String) → m (Option ByteArray)
  /-- Whether there is a file or a directory. -/
  present : (path : String) → m Bool
  /-- The contents of the nearest file of a name, in the working directory or above it. -/
  loadNearest : (name : String) → m (Option ByteArray)
  /-- The value of a variable of the environment. -/
  environment : (name : String) → m (Option String)
  /-- Writes a file, and tells whether that was possible. -/
  save : (path : String) → (contents : ByteArray) → m Bool
  /-- Prints to the standard output. -/
  print : String → m Unit
  /-- Prints to the standard error. -/
  printError : String → m Unit
  /-- Prints a message, which should end its line, to the standard error, behind a note of
  the program and of how important it is. -/
  log : (program : String) → (level : Verbosity) → (message : String) → m Unit

/-- A program that may fail has the world of one that may not. -/
instance {m : Type → Type} [Monad m] [Host m] {ε : Type} : Host (ExceptT ε m) where
  load path := ExceptT.lift (Host.load path)
  present path := ExceptT.lift (Host.present path)
  loadNearest name := ExceptT.lift (Host.loadNearest name)
  environment name := ExceptT.lift (Host.environment name)
  save path contents := ExceptT.lift (Host.save path contents)
  print text := ExceptT.lift (Host.print text)
  printError text := ExceptT.lift (Host.printError text)
  log program level message := ExceptT.lift (Host.log program level message)

/-- Prints a line to the standard error. -/
def printErrorLine {m : Type → Type} [Host m] (line : String) : m Unit :=
  Host.printError s!"{line}\n"

/-- Tells why arguments are refused, and returns the exit code. -/
def UsageError.report {m : Type → Type} [Monad m] [Host m] (usage : String) (e : UsageError) :
    m UInt32 := do
  Host.printError <| Text.Terminal.plain <|
    s!"error: {e.message}\n\nUsage: {usage}\n\nFor more information, try '--help'.\n"
  return 2

/-- Ends a program before it runs, and returns the exit code. -/
def Stop.report {m : Type → Type} [Monad m] [Host m] {σ : Type} (i : Interface σ) :
    Stop → m UInt32
  | .help => do
    Host.print i.help
    return 0
  | .misuse e => e.report i.usage

end PlayStation.CommandLine
