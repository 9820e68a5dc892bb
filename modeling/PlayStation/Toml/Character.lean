/-!
# Characters and the space between the words of a document

Blanks are spaces and tabs.  A line ends in a line feed, which a carriage return
may precede, and a comment runs to the end of its line.
-/

namespace PlayStation.Toml

def isBlank (c : Char) : Bool :=
  c = ' ' || c = '\t'

/-- Whether a character may stand in a comment or a string as it is.  Of the
control characters only the tab may. -/
def isPrintable (c : Char) : Bool :=
  c = '\t' || ('\x20' ≤ c && c ≠ '\x7f')

/-- Whether a character may stand in a name without quotes. -/
def isBare (c : Char) : Bool :=
  c.isAlphanum || c = '-' || c = '_'

def skipBlanks (s : List Char) : List Char :=
  s.dropWhile isBlank

/-- Skips blanks, line breaks and comments; `inComment` tells whether a comment
has begun. -/
def skipSpace (inComment : Bool) : List Char → Option (List Char)
  | [] => some []
  | '\n' :: s => skipSpace false s
  | '\r' :: '\n' :: s => skipSpace false s
  | c :: s =>
    if inComment then if isPrintable c then skipSpace true s else none
    else if c = '#' then skipSpace true s
    else if isBlank c then skipSpace false s
    else some (c :: s)

/-- Takes the end of a line, which blanks and a comment may precede, and returns
the lines after it. -/
def lineEnd (s : List Char) : Option (List Char) :=
  let s := skipBlanks s
  let s := if s.head? = some '#' then s.tail.dropWhile isPrintable else s
  match s with
  | [] => some []
  | '\n' :: s => some s
  | '\r' :: '\n' :: s => some s
  | _ => none

end PlayStation.Toml
