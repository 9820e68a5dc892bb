import PlayStation.Toml.Declaration
import PlayStation.Toml.Document
import PlayStation.Toml.Quoting

/-!
# Records in documents

What a document leaves out is as the declaration has it, and what is not declared is
ignored, but its numbers must have values.  A document that is read must be well formed as
a whole.
-/

namespace PlayStation.Toml

/-- Whether all entries but those of these names can be ignored. -/
def othersReadable (names : List String) (entries : Entries) : Bool :=
  Value.entriesReadable (entries.filter fun e => !names.contains e.1)

/-- The values of the settings of a section: under their names in a table, or in their
order in an array, whose further items nothing looks at.  A date is a section without
settings.  The outer `none` means that the section is none of these. -/
def settingValues? (names : List String) : Value → Option (List (Option Value))
  | .table _ entries =>
    if othersReadable names entries then some (names.map (entries.lookup ·)) else none
  | .array items => some (names.mapIdx fun i _ => items[i]?)
  | .tables newest earlier => some (names.mapIdx fun i _ => (newest :: earlier).reverse[i]?)
  | .scalar .dateTime => some (names.map fun _ => none)
  | _ => none

/-- A choice is a string, or an empty table or array under its name in a table of
its own. -/
def choice? : Value → Option String
  | .string name => some name
  | .table _ [(name, .table _ [])] => some name
  | .table _ [(name, .array [])] => some name
  | _ => none

/-- A text. -/
def text? : Value → Option String
  | .string text => some text
  | _ => none

variable {σ : Type}

/-- Puts a setting in place. -/
def Setting.read? (setting : Setting σ) (record : σ) : Option Value → Option σ
  | none => some record
  | some value => do
    setting.put? (← if setting.isChoice then choice? value else text? value) record

/-- Puts the settings of a section in place. -/
def Section.read? (part : Section σ) (record : σ) : Option Value → Option σ
  | none => some record
  | some value => do
    let values ← settingValues? (part.settings.map (·.name)) value
    (part.settings.zip values).foldlM (fun record (setting, value) =>
      setting.read? record value) record

/-- The record that a document gives. -/
def Declaration.read? (d : Declaration σ) : Value → Option σ
  | .table _ entries => do
    guard (othersReadable (d.sections.map (·.header)) entries)
    d.sections.foldlM (fun record part =>
      part.read? record (entries.lookup part.header)) d.default
  | _ => none

/-- The line of an entry. -/
def entryLine (name text : String) : List Char :=
  name.toList ++ [' ', '=', ' '] ++ quote text.toList ++ ['\n']

/-- The lines of a section. -/
def sectionLines (header : String) (texts : List (String × String)) : List Char :=
  '[' :: header.toList ++ [']', '\n'] ++ texts.flatMap fun (name, text) => entryLine name text

/-- The document of these texts, with an empty line between sections. -/
def write (sheet : Sheet) : String :=
  String.ofList (['\n'].intercalate (sheet.map fun (header, texts) => sectionLines header texts))

/-- The package of this library. -/
def package : Package where
  write? d record := some (write (d.sheet record))
  read? d text := do d.read? (← parse? text)

end PlayStation.Toml
