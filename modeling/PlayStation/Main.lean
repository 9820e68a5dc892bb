import PlayStation.CommandLine.Converter
import PlayStation.CommandLine.Runner

/-!
# The programs

The converter answers to its commands, and the runner to all other arguments.
-/

namespace PlayStation.CommandLine

/-- How many directories above the working directory are looked into. -/
def maxDepth : Nat := 64

/-- The file system and the terminal.  A file that cannot be read is as good as
missing. -/
instance : Host IO where
  load path := do
    try return some (← IO.FS.readBinFile path)
    catch _ => return none
  present path := do
    try
      let _ ← IO.FS.Handle.mk path .read
      return true
    catch _ => return false
  loadNearest name := do
    for depth in List.range maxDepth do
      try return some (← IO.FS.readBinFile (String.join (List.replicate depth "../") ++ name))
      catch _ => continue
    return none
  environment name := IO.getEnv name
  save path contents := do
    try
      IO.FS.writeBinFile path contents
      return true
    catch _ => return false
  print text := IO.print text
  printError text := IO.eprint text
  log program level message := IO.eprint s!"[{level.name} {program}] {message}"

end PlayStation.CommandLine

/-- The programs of the library, told apart by the first argument. -/
def main (arguments : List String) : IO UInt32 :=
  if arguments.head?.any fun name =>
      (PlayStation.CommandLine.Converter.Command.ofName? name).isSome then
    PlayStation.CommandLine.Converter.run arguments
  else
    PlayStation.CommandLine.Runner.run arguments
