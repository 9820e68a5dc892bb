/-!
# Text for a terminal

A text may hold escape sequences, which a terminal obeys and does not show.  `plain` is
the text without them, and without the control characters that are not white space.

A sequence begins with the escape character.  After a bracket come parameters and a last
letter; after a closing bracket a command, which the bell ends; some letters begin a string,
and the letter `P` a string for a device, before which parameters may come; every other
sequence ends with its first letter.  Another sequence ends a string, and so does the byte
`9c`, also as a part of a character.  White space in a sequence that is not a command or a
string shows, and so does what follows it, up to the next control character: there the
sequence goes on.
-/

namespace PlayStation.Text.Terminal

/-- Where in an escape sequence a text is. -/
inductive Phase where
  /-- In none. -/
  | ground
  | escape
  /-- Before the last letter of a sequence without parameters. -/
  | intermediate
  | parameters
  | command
  /-- Behind the letter that begins a string for a device. -/
  | device
  | deviceParameters
  | deviceIntermediate
  | string
  deriving DecidableEq, Repr

/-- White space that moves the cursor. -/
def isLayout (c : Char) : Bool :=
  c = '\t' || c = '\n' || c = '\x0c' || c = '\r'

/-- Whether a character has the byte that ends a string. -/
def endsString (c : Char) : Bool :=
  (String.utf8EncodeChar c).contains 0x9c

namespace Phase

/-- Whether a character shows. -/
def shows (c : Char) : Phase → Bool
  | ground => isLayout c || ('\x20' ≤ c && c ≠ '\x7f')
  | escape | intermediate | parameters => isLayout c
  | command | device | deviceParameters | deviceIntermediate | string => false

/-- The phase after a character that does not show. -/
def next (c : Char) (p : Phase) : Phase :=
  if c = '\x1b' then escape
  else if c = '\x18' || c = '\x1a' then ground
  else
    match p with
    | ground => ground
    | escape =>
      if '\x20' ≤ c && c ≤ '/' then intermediate
      else if c = '[' then parameters
      else if c = ']' then command
      else if c = 'P' then device
      else if c = 'X' || c = '^' || c = '_' then string
      else if '0' ≤ c && c ≤ '~' then ground
      else escape
    | intermediate => if '0' ≤ c && c ≤ '~' then ground else intermediate
    | parameters => if '@' ≤ c && c ≤ '~' then ground else parameters
    | command => if c = '\x07' then ground else command
    | device =>
      if '\x20' ≤ c && c ≤ '/' then deviceIntermediate
      else if '@' ≤ c && c ≤ '~' then string
      else if '0' ≤ c && c ≤ '?' then deviceParameters
      else device
    | deviceParameters =>
      if '\x20' ≤ c && c ≤ '/' then deviceIntermediate
      else if '<' ≤ c && c ≤ '~' then string
      else deviceParameters
    | deviceIntermediate => if '0' ≤ c && c ≤ '~' then string else deviceIntermediate
    | string => if endsString c then ground else string

end Phase

/-- The characters of a text that show; `showing` tells whether the last one did. -/
def shownFrom : (showing : Bool) → Phase → List Char → List Char
  | _, _, [] => []
  | showing, p, c :: text =>
    if (if showing then .ground else p).shows c then
      c :: shownFrom true (if c ≤ '\x7f' then p else .ground) text
    else shownFrom false (p.next c) text

/-- The part of a text that shows. -/
def plain (text : String) : String :=
  String.ofList (shownFrom false .ground text.toList)

/-- A text in yellow. -/
def yellow (text : String) : String :=
  s!"\x1b[33m{text}\x1b[0m"

/-- A text in bold type. -/
def bold (text : String) : String :=
  s!"\x1b[1m{text}\x1b[0m"

end PlayStation.Text.Terminal
