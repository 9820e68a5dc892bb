import PlayStation.Text.Hex
import PlayStation.Toml.Declaration
import PlayStation.Toml.Quoted

/-!
# What documents describe

The part of TOML 1.0 in which documents of texts are written: headers and entries with bare
names, and strings in all four forms.  `Describes` ties the text of such a document to its
sheet.  It says nothing of how documents are written or read.

What can be relied on in a package is stated with it: the document that it writes describes
the record (`Package.Writes`), and from a document that describes a sheet it reads the record
that the sheet gives (`Package.Reads`).
-/

namespace PlayStation.Toml

/-! ## Strings -/

/-- What follows the backslash of an escape, and the character that it stands for. -/
inductive Escape : List Char → Char → Prop
  | backspace : Escape ['b'] '\x08'
  | tab : Escape ['t'] '\t'
  | lineFeed : Escape ['n'] '\n'
  | formFeed : Escape ['f'] '\x0c'
  | carriageReturn : Escape ['r'] '\r'
  | quote : Escape ['"'] '"'
  | backslash : Escape ['\\'] '\\'
  | short {digits : List Char} {c : Char} (four : digits.length = 4)
      (number : Text.hexNumber? digits = some c.toNat) : Escape ('u' :: digits) c
  | long {digits : List Char} {c : Char} (eight : digits.length = 8)
      (number : Text.hexNumber? digits = some c.toNat) : Escape ('U' :: digits) c

/-- A piece of a string that stands for one character: the character itself, or an
escape. -/
inductive Form.Token (f : Form) : List Char → Char → Prop
  | plain {c : Char} (shown : isPrintable c = true ∨ c = '\n' ∧ f.multiline = true)
      (literal : c = '\\' → f.escapes = false) : f.Token [c] c
  | escape {c : Char} {piece : List Char} (escapes : f.escapes = true)
      (standsFor : Escape piece c) : f.Token ('\\' :: piece) c

/-- What may stand between the quotes for a text: a token for each character, and nowhere
before a token the quotes that would end the string. -/
inductive Form.Spells (f : Form) : List Char → List Char → Prop
  | nil : f.Spells [] []
  | cons {piece body text : List Char} {c : Char} (token : f.Token piece c)
      (isOpen : ¬ f.delimiter <+: piece ++ body) (later : f.Spells body text) :
      f.Spells (piece ++ body) (c :: text)

/-- A string with its quotes, and the text that it stands for.  Where several lines are
allowed, a line break right after the opening quotes does not count. -/
inductive IsString : List Char → List Char → Prop
  | sameLine {f : Form} {body text : List Char} (spells : f.Spells body text)
      (noBreak : f.multiline = true → body.head? ≠ some '\n') :
      IsString (f.delimiter ++ (body ++ f.delimiter)) text
  | nextLine {f : Form} {body text : List Char} (spells : f.Spells body text)
      (lines : f.multiline = true) : IsString (f.delimiter ++ '\n' :: (body ++ f.delimiter)) text

/-! ## Lines -/

/-- Whether a name needs no quotes. -/
def isBareName (name : List Char) : Bool :=
  !name.isEmpty && name.all isBare

/-- Whether there is nothing but blanks. -/
def isSpace (s : List Char) : Bool :=
  s.all isBlank

/-- The lines below a header, and the names and texts in them.  No name stands there
twice. -/
inductive EntryLines : List Char → List (String × String) → Prop
  | nil : EntryLines [] []
  | emptyLine {lines : List Char} {texts : List (String × String)}
      (later : EntryLines lines texts) : EntryLines ('\n' :: lines) texts
  | entry {name before after string text lines : List Char} {texts : List (String × String)}
      (bare : isBareName name = true) (spaceBefore : isSpace before = true)
      (spaceAfter : isSpace after = true) (standsFor : IsString string text)
      (new : String.ofList name ∉ texts.map Prod.fst) (later : EntryLines lines texts) :
      EntryLines (name ++ (before ++ '=' :: (after ++ (string ++ '\n' :: lines))))
        ((String.ofList name, String.ofList text) :: texts)

/-- The text of a document, and the sheet that it describes.  No header stands there
twice. -/
inductive Describes : List Char → Sheet → Prop
  | nil : Describes [] []
  | emptyLine {document : List Char} {sheet : Sheet} (later : Describes document sheet) :
      Describes ('\n' :: document) sheet
  | part {header lines document : List Char} {texts : List (String × String)} {sheet : Sheet}
      (bare : isBareName header = true) (entries : EntryLines lines texts)
      (new : String.ofList header ∉ sheet.map Prod.fst) (later : Describes document sheet) :
      Describes ('[' :: (header ++ ']' :: '\n' :: (lines ++ document)))
        ((String.ofList header, texts) :: sheet)

/-! ## Packages -/

variable {σ : Type}

/-- Names that need no quotes and of which none is there twice. -/
def ProperNames (names : List String) : Prop :=
  (∀ name ∈ names, isBareName name.toList = true) ∧ names.Nodup

/-- A declaration whose settings are fields of their own: they have names of their own, and
it does not matter which one is put in place first. -/
structure Declaration.Proper (d : Declaration σ) : Prop where
  headers : ProperNames (d.sections.map (·.header))
  names : ∀ part ∈ d.sections, ProperNames (part.settings.map (·.name))
  apart : (d.sections.flatMap (·.settings)).Pairwise fun one other =>
    ∀ (text text' : String) (record : σ),
      (one.put? text record).bind (other.put? text') =
        (other.put? text' record).bind (one.put? text)

/-- Every record can be written, and the document describes it. -/
def Package.Writes (p : Package) : Prop :=
  ∀ {σ : Type} (d : Declaration σ), d.Proper → ∀ record : σ,
    ∃ document, p.write? d record = some document ∧ Describes document.toList (d.sheet record)

/-- What is read from a document is what the texts that it describes give. -/
def Package.Reads (p : Package) : Prop :=
  ∀ {σ : Type} (d : Declaration σ), d.Proper → ∀ (document : String) (sheet : Sheet),
    Describes document.toList sheet → p.read? d document = d.fill? sheet

end PlayStation.Toml
