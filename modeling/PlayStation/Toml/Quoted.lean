import PlayStation.Text.Hex
import PlayStation.Toml.Character

/-!
# Strings

A basic string stands in double quotes and knows escapes, a literal string
stands in single quotes and knows none.  Each has a second form in three quotes
that may run over several lines.  There a line break right after the opening
quotes does not count, and up to two quotes may stand directly before the closing
ones.  Any other line break stands for itself.
-/

namespace PlayStation.Toml

/-- The character whose code point the first `count` digits write. -/
def codePoint? (count : Nat) (s : List Char) : Option Char :=
  if count ≤ s.length then
    (Text.hexNumber? (s.take count)).bind Text.charOfNat?
  else none

/-- The character that an escape stands for, and the length of the escape after
its backslash. -/
def escape? : List Char → Option (Char × Nat)
  | 'b' :: _ => some ('\x08', 1)
  | 'e' :: _ => some ('\x1b', 1)
  | 't' :: _ => some ('\t', 1)
  | 'n' :: _ => some ('\n', 1)
  | 'f' :: _ => some ('\x0c', 1)
  | 'r' :: _ => some ('\r', 1)
  | '"' :: _ => some ('"', 1)
  | '\\' :: _ => some ('\\', 1)
  | 'x' :: s => (codePoint? 2 s).map (·, 3)
  | 'u' :: s => (codePoint? 4 s).map (·, 5)
  | 'U' :: s => (codePoint? 8 s).map (·, 9)
  | _ => none

/-- Whether a line break comes first. -/
def startsLine : List Char → Bool
  | '\n' :: _ | '\r' :: '\n' :: _ => true
  | _ => false

/-- Leaves out a line break that comes first. -/
def skipLineBreak : List Char → List Char
  | '\n' :: s | '\r' :: '\n' :: s => s
  | s => s

/-- Skips blanks and line breaks. -/
def skipLines : List Char → List Char
  | '\n' :: s => skipLines s
  | '\r' :: '\n' :: s => skipLines s
  | c :: s => if isBlank c then skipLines s else c :: s
  | [] => []

/-- A backslash at the end of a line hides what lies between it and the next text.
Given what follows the backslash, this is the length of the hidden part. -/
def hidden? (s : List Char) : Option Nat :=
  if startsLine (skipBlanks s) then some (s.length - (skipLines s).length) else none

/-- The four forms of a string. -/
structure Form where
  /-- Basic or literal. -/
  escapes : Bool
  /-- Whether the text may have line breaks. -/
  multiline : Bool
  deriving DecidableEq, Repr

namespace Form

def quote (f : Form) : Char :=
  if f.escapes then '"' else '\''

/-- How many quotes stand on each side. -/
def width (f : Form) : Nat :=
  if f.multiline then 3 else 1

/-- The quotes on one side. -/
def delimiter (f : Form) : List Char :=
  List.replicate f.width f.quote

/-- The closing quotes, if they come first: the quotes before them that still
belong to the text, and what follows. -/
def closing? (f : Form) (s : List Char) : Option (List Char × List Char) :=
  let count := ((s.take (2 * f.width - 1)).takeWhile (· = f.quote)).length
  if f.width ≤ count then
    some (List.replicate (count - f.width) f.quote, s.drop count)
  else none

/-- Puts a character before a text that has been read. -/
def prepend (c : Char) (read : Option (List Char × List Char)) :
    Option (List Char × List Char) :=
  read.map fun (text, rest) => (c :: text, rest)

/-- Reads the text after the opening quotes, and returns what follows the closing
ones too. -/
def text? (f : Form) (s : List Char) : Option (List Char × List Char) :=
  match f.closing? s with
  | some closed => some closed
  | none =>
    match s with
    | [] => none
    | c :: s =>
      if c = '\\' ∧ f.escapes then
        match escape? s with
        | some (c, length) => prepend c (f.text? (s.drop length))
        | none =>
          match if f.multiline then hidden? s else none with
          | some length => f.text? (s.drop length)
          | none => none
      else if c = '\n' ∧ f.multiline then prepend c (f.text? s)
      else if c = '\r' ∧ f.multiline then
        if s.head? = some '\n' then prepend c (f.text? s) else none
      else if isPrintable c then prepend c (f.text? s)
      else none
termination_by s.length
decreasing_by all_goals simp only [List.length_cons, List.length_drop]; omega

end Form

/-- Reads a string on one line from its opening quote on. -/
def singleLine? : List Char → Option (List Char × List Char)
  | '"' :: s => Form.text? ⟨true, false⟩ s
  | '\'' :: s => Form.text? ⟨false, false⟩ s
  | _ => none

/-- Reads a string of any form from its opening quotes on. -/
def quoted? : List Char → Option (List Char × List Char)
  | '"' :: '"' :: '"' :: s => Form.text? ⟨true, true⟩ (skipLineBreak s)
  | '\'' :: '\'' :: '\'' :: s => Form.text? ⟨false, true⟩ (skipLineBreak s)
  | s => singleLine? s

end PlayStation.Toml
