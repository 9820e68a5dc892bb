import PlayStation.Proofs.Toml.Conformance
import PlayStation.Settings.Basic

/-!
# Settings read back

Whatever package keeps the documents, settings that are written are read back as they were,
with any text as the level (`write?_read_back`).  All that is asked of the package is that
its documents follow TOML 1.0 in both directions.  What is shown here is that the settings
have names that can be told apart, and that the names of each policy tell its cases apart.
-/

namespace PlayStation

namespace Settings

open Toml

/-- The headers and names need no quotes, and each setting is a field of its own. -/
theorem declaration_proper : declaration.Proper where
  headers := by
    simp only [declaration, ProperNames]
    decide
  names := by
    simp only [declaration, ProperNames, List.forall_mem_cons]
    decide
  apart := by
    have policies (text text' : String) (s : Settings) :
        (unknownOpcodeSetting.put? text s).bind (unhandledCommandSetting.put? text') =
          (unhandledCommandSetting.put? text' s).bind (unknownOpcodeSetting.put? text) := by
      simp only [unknownOpcodeSetting, unhandledCommandSetting]
      cases UnknownOpcode.ofName? text <;> cases UnhandledCommand.ofName? text' <;> rfl
    have unknownLevel (text text' : String) (s : Settings) :
        (unknownOpcodeSetting.put? text s).bind (levelSetting.put? text') =
          (levelSetting.put? text' s).bind (unknownOpcodeSetting.put? text) := by
      simp only [unknownOpcodeSetting, levelSetting]
      cases UnknownOpcode.ofName? text <;> rfl
    have unhandledLevel (text text' : String) (s : Settings) :
        (unhandledCommandSetting.put? text s).bind (levelSetting.put? text') =
          (levelSetting.put? text' s).bind (unhandledCommandSetting.put? text) := by
      simp only [unhandledCommandSetting, levelSetting]
      cases UnhandledCommand.ofName? text <;> rfl
    simp [declaration, policies, unknownLevel, unhandledLevel]

/-- The texts of settings give these settings.  Each policy has a name of its own, and the
level is its own text. -/
theorem fill?_sheet (s : Settings) : declaration.fill? (declaration.sheet s) = some s := by
  obtain ⟨⟨unknown, unhandled⟩, level⟩ := s
  cases unknown <;> cases unhandled <;> rfl

/-- **Settings are read back.**  Whatever the policies and the text of the level are, they can
be written, and from the document that a package writes it reads them as they were. -/
theorem write?_read_back (package : Package) (writes : package.Writes) (reads : package.Reads)
    (s : Settings) :
    ∃ document, write? package s = some document ∧ read? package document = some s := by
  obtain ⟨document, written, describes⟩ := writes declaration declaration_proper s
  refine ⟨document, written, ?_⟩
  rw [read?, reads declaration declaration_proper document _ describes, fill?_sheet]

/-- A level of two lines with quotes of both kinds, of which three and more stand in a row. -/
def quotesInRows : Settings :=
  ⟨⟨.reservedInstruction, .stall⟩, "a\n'''b\"\"\"\"\"\""⟩

/-- The library's own package keeps such a level. -/
theorem write?_read_back_quotesInRows : package.Writes ∧ package.Reads ∧
    write? package quotesInRows = some ("[cpu]\nunknown_opcode = \"reserved-instruction\"\n\n" ++
      "[gpu]\nunhandled_command = \"stall\"\n\n" ++
      "[log]\nlevel = \"\"\"\na\n'''b\"\"\\\"\"\"\\\"\"\"\"\n") ∧
    ∃ document, write? package quotesInRows = some document ∧
      read? package document = some quotesInRows :=
  ⟨writes_package, reads_package, rfl,
    write?_read_back package writes_package reads_package quotesInRows⟩

end Settings
end PlayStation
