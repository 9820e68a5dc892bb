import PlayStation.CommandLine.Host
import PlayStation.Text.Pattern.Reading

/-!
# Which messages are shown

A filter is a list of directives separated by commas.  A directive is a verbosity,
the beginning of a program's name, or both with an equals sign between them.  The
longest name that a program's name begins with decides.  After a slash, a pattern may
follow that must occur in every message.
-/

namespace PlayStation.CommandLine

/-- What a program, or every program, shows. -/
structure Directive where
  program : Option String
  verbosity : Verbosity
  deriving DecidableEq, Repr

structure LogFilter where
  directives : List Directive
  /-- What must occur in a message. -/
  pattern : Option Text.Pattern := none
  deriving DecidableEq, Repr

namespace LogFilter

/-- Reads a directive; a part that makes it none is returned instead. -/
def readDirective (text : String) : Except String Directive :=
  match text.splitOn "=" with
  | [program] =>
    match Verbosity.ofName? program with
    | some verbosity => .ok ⟨none, verbosity⟩
    | none => .ok ⟨some program, .trace⟩
  | [program, level] =>
    let level := Text.trim level
    if level.isEmpty then .ok ⟨some program, .trace⟩
    else
      match Verbosity.ofName? level with
      | some verbosity => .ok ⟨some program, verbosity⟩
      | none => .error level
  | _ => .error text

/-- Adds a directive in place of an earlier one for the same program. -/
def insert (d : Directive) : List Directive → List Directive
  | [] => [d]
  | e :: rest => if e.program = d.program then d :: rest else e :: insert d rest

/-- Reads the directives of a filter.  What cannot be read is left out and returned
beside them. -/
def readDirectives (text : String) : List Directive × List String :=
  (text.splitOn ",").foldl (fun (directives, faults) part =>
    let part := Text.trim part
    if part.isEmpty then (directives, faults)
    else
      match readDirective part with
      | .ok d => (insert d directives, faults)
      | .error fault => (directives, faults ++ [s!"invalid logging spec '{fault}'"]))
    ([], [])

/-- Reads a filter, and tells what in it cannot be read. -/
def read (text : String) : LogFilter × List String :=
  match text.splitOn "/" with
  | [directives] =>
    let (directives, faults) := readDirectives directives
    ({ directives }, faults)
  | [directives, pattern] =>
    let (directives, faults) := readDirectives directives
    match Text.Pattern.read pattern with
    | .ok pattern => ({ directives, pattern := some pattern }, faults)
    | .error fault => ({ directives }, faults ++ [s!"invalid regex filter - {fault.message}"])
  | _ => ({ directives := [] }, [s!"invalid logging spec '{text}' (too many '/'s)"])

/-- The directive for a program: the last of those with the longest name. -/
def directiveFor (f : LogFilter) (program : String) : Option Directive :=
  let length := fun (d : Directive) => (d.program.map String.utf8ByteSize).getD 0
  let fitting := f.directives.filter fun d =>
    d.program.all fun name => name.toList.isPrefixOf program.toList
  fitting.foldl (fun best d =>
    match best with
    | some b => if length b ≤ length d then some d else some b
    | none => some d) none

/-- What a program shows.  Without directives these are its errors. -/
def verbosityOf (f : LogFilter) (program : String) : Verbosity :=
  if f.directives.isEmpty then .error
  else
    match f.directiveFor program with
    | some d => d.verbosity
    | none => .off

/-- Whether a message of a program is shown. -/
def shows (f : LogFilter) (program : String) (level : Verbosity) (message : String) : Bool :=
  level.rank ≤ (f.verbosityOf program).rank && f.pattern.all (·.occursIn message)

end LogFilter
end PlayStation.CommandLine
