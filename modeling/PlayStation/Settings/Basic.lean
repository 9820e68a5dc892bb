import PlayStation.Settings.Policy
import PlayStation.Toml.Record

/-!
# Settings

The settings are kept in a document of three sections with one setting each.  Any package
can write the document and read it; the programs use the library's own.
-/

namespace PlayStation

/-- The policies of the machine, and which messages to show. -/
structure Settings extends Policies where
  level : String := "info"
  deriving DecidableEq, Repr

namespace Settings

/-- What to do with a word that is no instruction. -/
def unknownOpcodeSetting : Toml.Setting Settings where
  name := "unknown_opcode"
  isChoice := true
  text s := s.unknownOpcode.name
  put? text s := (UnknownOpcode.ofName? text).map fun policy => { s with unknownOpcode := policy }

/-- What to do with a command that cannot be drawn. -/
def unhandledCommandSetting : Toml.Setting Settings where
  name := "unhandled_command"
  isChoice := true
  text s := s.unhandledCommand.name
  put? text s :=
    (UnhandledCommand.ofName? text).map fun policy => { s with unhandledCommand := policy }

/-- Which messages to show. -/
def levelSetting : Toml.Setting Settings where
  name := "level"
  isChoice := false
  text s := s.level
  put? text s := some { s with level := text }

/-- How the settings are kept in a document. -/
def declaration : Toml.Declaration Settings where
  sections := [⟨"cpu", [unknownOpcodeSetting]⟩, ⟨"gpu", [unhandledCommandSetting]⟩,
    ⟨"log", [levelSetting]⟩]
  default := {}

/-- The document that a package writes for the settings. -/
def write? (package : Toml.Package) (s : Settings) : Option String :=
  package.write? declaration s

/-- The settings that a package reads from the text of a document. -/
def read? (package : Toml.Package) (text : String) : Option Settings :=
  package.read? declaration text

/-! ## The library's own package -/

/-- Reads settings from the text of a document. -/
def parse? (text : String) : Option Settings :=
  read? Toml.package text

/-- The document that shows all settings. -/
def print (s : Settings) : String :=
  Toml.write (declaration.sheet s)

end Settings
end PlayStation
