import PlayStation.Text.Terminal

/-!
# Reading arguments

The arguments of a program are options, each a word after two dashes or a letter
after one, with a value; and at most one positional argument.  A value is joined to
its option by an equals sign, or directly to the letter, or it is the next argument,
which must not look like an option then.

A switch is an option without a value.  An option whose value is a separate argument
waits: it is settled, with whatever is wrong with it, only when the next option begins or the
arguments end.  An argument that has no place is therefore reported before a fault of the
option before it.
-/

namespace PlayStation.CommandLine

/-- What is wrong with a value. -/
inductive ValueFault where
  /-- It is empty, and must not be. -/
  | empty
  | invalid (reason : String)
  deriving DecidableEq, Repr

/-- An argument that a program takes, and how its value is stored in `σ`. -/
structure Argument (σ : Type) where
  /-- The word that announces it; a positional argument has none. -/
  word : Option String := none
  letter : Option Char := none
  /-- What the value is called; a switch has none. -/
  valueName : Option String
  description : String
  store : String → σ → Except ValueFault σ

namespace Argument

variable {σ : Type}

/-- How messages and the help call the argument. -/
def label (a : Argument σ) : String :=
  let value := (a.valueName.map fun name => s!"<{name}>").toList
  " ".intercalate ((a.word.map fun word => s!"--{word}").toList ++ value)

/-- An argument whose value is the name of a file. -/
def file (word : Option String) (letter : Option Char) (valueName description : String)
    (store : String → σ → σ) : Argument σ where
  word
  letter
  valueName := some valueName
  description
  store text values := if text.isEmpty then .error .empty else .ok (store text values)

/-- An option without a value. -/
def switch (word description : String) (store : σ → σ) : Argument σ where
  word := some word
  valueName := none
  description
  store _ values := .ok (store values)

end Argument

/-- Why the arguments of a program are refused. -/
inductive UsageError where
  | unexpected (argument : String)
  /-- An option without a value. -/
  | missingValue (label : String)
  | repeated (label : String)
  | invalidValue (value label reason : String)
  /-- A switch has a value. -/
  | unexpectedValue (value option : String)
  /-- A positional argument is missing. -/
  | missingArgument (label : String)
  | unknownCommand (name : String)
  deriving DecidableEq, Repr

/-- The message, for a terminal. -/
def UsageError.message (e : UsageError) : String :=
  let given := Text.Terminal.yellow
  let named := Text.Terminal.bold
  match e with
  | unexpected argument => s!"unexpected argument '{given argument}' found"
  | missingValue label => s!"a value is required for '{named label}' but none was supplied"
  | repeated label => s!"the argument '{given label}' cannot be used multiple times"
  | invalidValue value label reason =>
    s!"invalid value '{given value}' for '{named label}': {reason}"
  | unexpectedValue value option =>
    s!"unexpected value '{given value}' for '{named option}' found; no more were expected"
  | missingArgument label =>
    s!"the following required arguments were not provided:\n  {named label}"
  | unknownCommand name => s!"unrecognized subcommand '{given name}'"

/-- Why the reading of arguments ends before the program runs. -/
inductive Stop where
  | help
  | misuse (e : UsageError)
  deriving DecidableEq, Repr

/-! ## One argument -/

/-- An argument by its form. -/
inductive Word where
  /-- Two dashes: no option follows. -/
  | separator
  | long (word : String) (value : Option String)
  | short (letter : Char) (value : Option String)
  | plain (text : String)
  deriving DecidableEq, Repr

/-- The text after a first equals sign. -/
def afterEquals? : List Char → Option String
  | [] => none
  | c :: s => if c = '=' then some (String.ofList s) else afterEquals? s

/-- The form of an argument.  A lone dash is plain. -/
def Word.ofString (argument : String) : Word :=
  match argument.toList with
  | ['-', '-'] => .separator
  | '-' :: '-' :: s => .long (String.ofList (s.takeWhile (· ≠ '='))) (afterEquals? s)
  | '-' :: letter :: s =>
    .short letter (match s with
      | [] => none
      | '=' :: s => some (String.ofList s)
      | s => some (String.ofList s))
  | _ => .plain argument

/-! ## All arguments -/

/-- Arguments that have been read in part. -/
structure Reading (σ : Type) where
  values : σ
  /-- The labels of the arguments whose values are stored. -/
  used : List String := []
  /-- The argument that waits for its value or, with one, to be settled. -/
  waiting : Option (Argument σ × Option String) := none

namespace Reading

variable {σ : Type}

/-- Stores a value. -/
def store (r : Reading σ) (a : Argument σ) (value : String) : Except Stop (Reading σ) :=
  if a.label ∈ r.used then .error (.misuse (.repeated a.label))
  else
    match a.store value r.values with
    | .ok values => .ok { values, used := a.label :: r.used }
    | .error .empty => .error (.misuse (.missingValue a.label))
    | .error (.invalid reason) => .error (.misuse (.invalidValue value a.label reason))

/-- Settles the argument that waits. -/
def settle (r : Reading σ) : Except Stop (Reading σ) :=
  match r.waiting with
  | none => .ok r
  | some (a, none) => .error (.misuse (.missingValue a.label))
  | some (a, some value) => r.store a value

/-- Begins an option, with its value if that is joined to it. -/
def begin (r : Reading σ) (a : Argument σ) (value : Option String) :
    Except Stop (Reading σ) :=
  match value, a.valueName with
  | some value, none => .error (.misuse (.unexpectedValue value a.label))
  | some value, some _ => do (← r.settle).store a value
  | none, none => do (← r.settle).store a ""
  | none, some _ => do return { ← r.settle with waiting := some (a, none) }

/-- Takes a positional argument. -/
def place (arguments : List (Argument σ)) (r : Reading σ) (text : String) :
    Except Stop (Reading σ) := do
  let taken := r.used ++ (r.waiting.map (·.1.label)).toList
  match arguments.find? fun a => a.word.isNone && !taken.contains a.label with
  | some a => .ok { ← r.settle with waiting := some (a, some text) }
  | none => .error (.misuse (.unexpected text))

/-- Takes the next argument, no separator having come. -/
def take (arguments : List (Argument σ)) (r : Reading σ) (text : String) :
    Except Stop (Reading σ) :=
  match Word.ofString text with
  | .separator => .ok r
  | .long word value =>
    match arguments.find? (·.word = some word), value with
    | some a, _ => r.begin a value
    | none, none =>
      if word = "help" then r.settle.bind fun _ => .error .help
      else .error (.misuse (.unexpected s!"--{word}"))
    | none, some value =>
      if word = "help" then .error (.misuse (.unexpectedValue value "--help"))
      else .error (.misuse (.unexpected s!"--{word}"))
  | .short letter value =>
    match arguments.find? (·.letter = some letter) with
    | some a => r.begin a value
    | none =>
      if letter = 'h' then r.settle.bind fun _ => .error .help
      else .error (.misuse (.unexpected s!"-{letter}"))
  | .plain text =>
    match r.waiting with
    | some (a, none) => .ok { r with waiting := some (a, some text) }
    | _ => place arguments r text

/-- Takes all arguments. -/
def takeAll (arguments : List (Argument σ)) : Reading σ → List String → Except Stop (Reading σ)
  | r, [] => .ok r
  | r, text :: rest =>
    if Word.ofString text = .separator then rest.foldlM (place arguments) r
    else (take arguments r text).bind fun r => takeAll arguments r rest

end Reading

/-- Reads the arguments of a program.  A positional argument must be given. -/
def readArguments {σ : Type} (arguments : List (Argument σ)) (defaults : σ)
    (texts : List String) : Except Stop σ := do
  let r ← (← Reading.takeAll arguments ⟨defaults, [], none⟩ texts).settle
  match arguments.find? fun a => a.word.isNone && !r.used.contains a.label with
  | some a => .error (.misuse (.missingArgument a.label))
  | none => .ok r.values

end PlayStation.CommandLine
