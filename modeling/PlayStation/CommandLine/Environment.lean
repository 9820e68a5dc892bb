import PlayStation.CommandLine.EnvironmentFile
import PlayStation.CommandLine.Host

/-!
# Variables of the environment

A program sees the variables of its environment, and those of an environment file that
the environment does not have.  Of several definitions in the file the first one counts.
-/

namespace PlayStation.CommandLine

/-- The variables that an environment file adds, with their values. -/
abbrev Variables := List (String × String)

namespace Variables

variable {m : Type → Type} [Monad m] [Host m]

/-- The value of a variable. -/
def valueOf (added : Variables) (name : String) : m (Option String) := do
  match ← Host.environment name with
  | some value => return some value
  | none => return added.lookup name

/-- The text that the pieces of a value make up.  A variable that is not defined has no
text. -/
def expand (added : Variables) (value : List EnvironmentFile.Piece) : m String :=
  value.foldlM (fun text piece => do
    match piece with
    | .char c => return text.push c
    | .reference name => return text ++ ((← added.valueOf name).getD "")) ""

/-- Adds a definition, unless the variable is defined. -/
def define (added : Variables) (d : EnvironmentFile.Definition) : m Variables := do
  match ← added.valueOf d.name with
  | some _ => return added
  | none => return (d.name, ← added.expand d.value) :: added

/-- The variables of the nearest environment file, and a warning if it cannot be read to
its end. -/
def load : m Variables := do
  match ← Host.loadNearest ".env" with
  | none => return []
  | some contents =>
    let (definitions, fault) := EnvironmentFile.read contents
    let added ← definitions.foldlM define []
    if let some fault := fault then
      printErrorLine s!"Warning: Failed to load .env file: {fault.message}"
    return added

end Variables
end PlayStation.CommandLine
