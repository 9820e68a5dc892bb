/-!
# Declarations

A program keeps a record of settings in a document: sections with headers, and in each of
them settings with names.  The program declares them, with how the text of each is had from
the record and put into it, and what the record is that a document without settings gives.
Writing documents and reading them is left to a package.
-/

namespace PlayStation.Toml

/-- A setting of a record. -/
structure Setting (σ : Type) where
  name : String
  /-- Whether its text is one of a few names, and not any text. -/
  isChoice : Bool
  text : σ → String
  /-- Puts a text in the place of the one that the record has.  It fails if the setting
  cannot have this text. -/
  put? : String → σ → Option σ

/-- The settings under one header. -/
structure Section (σ : Type) where
  header : String
  settings : List (Setting σ)

/-- What a program declares of a record that it keeps in a document. -/
structure Declaration (σ : Type) where
  sections : List (Section σ)
  /-- What has not been set is as it is here. -/
  default : σ

/-- The headers of a document, each with the names and texts below it. -/
abbrev Sheet := List (String × List (String × String))

variable {σ : Type}

/-- The texts of a section. -/
def Section.texts (part : Section σ) (record : σ) : String × List (String × String) :=
  (part.header, part.settings.map fun setting => (setting.name, setting.text record))

/-- All texts of a record. -/
def Declaration.sheet (d : Declaration σ) (record : σ) : Sheet :=
  d.sections.map (·.texts record)

/-- Puts those of the texts in place that are declared. -/
def Section.fill? (part : Section σ) (texts : List (String × String)) (record : σ) : Option σ :=
  part.settings.foldlM (fun record setting =>
    match texts.lookup setting.name with
    | some text => setting.put? text record
    | none => some record) record

/-- The record that these texts give.  Those that are not declared count for nothing. -/
def Declaration.fill? (d : Declaration σ) (sheet : Sheet) : Option σ :=
  d.sections.foldlM (fun record part =>
    match sheet.lookup part.header with
    | some texts => part.fill? texts record
    | none => some record) d.default

/-- A package that writes records as documents and reads them from documents. -/
structure Package where
  write? : {σ : Type} → Declaration σ → σ → Option String
  read? : {σ : Type} → Declaration σ → String → Option σ

end PlayStation.Toml
