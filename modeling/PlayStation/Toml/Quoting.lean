import PlayStation.Text.Hex
import PlayStation.Text.Search
import PlayStation.Toml.Quoted

/-!
# Writing strings

A text is written in the first form that shows it without escapes: basic, literal,
then the same two over several lines.  A text that needs escapes is written as a
basic string, over several lines if it has several.
-/

namespace PlayStation.Toml

/-- Whether a character cannot stand in any string as it is. -/
def needsEscape (c : Char) : Bool :=
  !(isPrintable c || c = '\n')

/-- Whether no run of quotes would end a string of this form. -/
def Form.fitsQuotes (f : Form) (text : List Char) : Bool :=
  !Text.occursIn f.delimiter text

/-- Whether a text stands in this form without escapes. -/
def Form.shows (f : Form) (text : List Char) : Bool :=
  !text.any needsEscape && f.fitsQuotes text &&
    !(f.escapes && text.contains '\\') && (f.multiline || !text.contains '\n')

/-- The form in which a text is written. -/
def Form.ofText (text : List Char) : Form :=
  let forms : List Form := [⟨true, false⟩, ⟨false, false⟩, ⟨true, true⟩, ⟨false, true⟩]
  (forms.find? (·.shows text)).getD ⟨true, text.contains '\n'⟩

/-- A character of a basic string that is neither a quote nor a line break. -/
def escaped (c : Char) : List Char :=
  if c = '\x08' then ['\\', 'b']
  else if c = '\t' then ['\\', 't']
  else if c = '\n' then ['\\', 'n']
  else if c = '\x0c' then ['\\', 'f']
  else if c = '\r' then ['\\', 'r']
  else if c = '\\' then ['\\', '\\']
  else if needsEscape c then
    ['\\', 'u', '0', '0', Text.hexDigit (c.toNat / 16), Text.hexDigit (c.toNat % 16)]
  else [c]

/-- The text of a basic string between its quotes, of which `run` unescaped ones
come directly before.  As many quotes stand in a row without an escape as do not
close the string. -/
def Form.escapeText (f : Form) (run : Nat) : List Char → List Char
  | [] => []
  | '"' :: text =>
    if run + 1 < f.width then '"' :: f.escapeText (run + 1) text
    else '\\' :: '"' :: f.escapeText 0 text
  | '\n' :: text =>
    if f.multiline then '\n' :: f.escapeText 0 text
    else '\\' :: 'n' :: f.escapeText 0 text
  | c :: text => escaped c ++ f.escapeText 0 text

/-- A text written as a string. -/
def quote (text : List Char) : List Char :=
  let f := Form.ofText text
  f.delimiter ++ (if f.multiline && text.contains '\n' then ['\n'] else []) ++
    (if f.escapes then f.escapeText 0 text else text) ++ f.delimiter

end PlayStation.Toml
