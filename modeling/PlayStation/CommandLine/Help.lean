import PlayStation.CommandLine.Arguments

/-!
# The help of a program

The help shows what a program is for, how it is called, and its arguments in two
columns.
-/

namespace PlayStation.CommandLine

/-- A program as its help describes it. -/
structure Interface (σ : Type) where
  about : String
  usage : String
  arguments : List (Argument σ)

/-- `n` blanks. -/
def blanks (n : Nat) : String :=
  String.ofList (List.replicate n ' ')

/-- The left column of an argument. -/
def Argument.call {σ : Type} (a : Argument σ) : String :=
  match a.word, a.letter with
  | some _, some letter => s!"-{letter}, {a.label}"
  | some _, none => s!"    {a.label}"
  | none, _ => a.label

/-- Rows in two columns. -/
def table (rows : List (String × String)) : String :=
  let left := rows.foldl (fun n row => max n row.1.length) 0
  String.join (rows.map fun (call, description) =>
    s!"  {call}{blanks (left - call.length)}  {description}\n")

/-- How the help lists the option that shows it. -/
def helpRow : String × String := ("-h, --help", "Print help")

/-- The help of a program. -/
def Interface.help {σ : Type} (i : Interface σ) : String :=
  let (positional, options) := i.arguments.partition (·.word.isNone)
  let rows := fun (arguments : List (Argument σ)) =>
    arguments.map fun a => (a.call, a.description)
  let given := if positional.isEmpty then "" else s!"Arguments:\n{table (rows positional)}\n"
  let listed := table (rows options ++ [helpRow])
  s!"{i.about}\n\nUsage: {i.usage}\n\n{given}Options:\n{listed}"

end PlayStation.CommandLine
