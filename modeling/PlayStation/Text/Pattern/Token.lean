import PlayStation.Text.Hex
import PlayStation.Text.Letter
import PlayStation.Text.WhiteSpace
import PlayStation.Text.Pattern.Basic

/-!
# The tokens of a pattern

Most characters of a written pattern stand for themselves.  A backslash gives a letter
another meaning, and takes that of any other character away.  Parentheses group, and may
change the flags under which their contents are read; braces, `?`, `*` and `+` repeat what
comes before them.

Sets that depend on all scripts, that is the classes of digits, spaces and words, and
letters of either case, are not supported: they are only understood where the flag `u` is
off, which stands for ASCII.
-/

namespace PlayStation.Text

/-- How a pattern is read. -/
structure Flags where
  ignoreCase : Bool := false
  /-- Whether anchors hold at every line. -/
  lines : Bool := false
  /-- Whether the dot includes the line feed. -/
  dotAll : Bool := false
  unicode : Bool := true
  /-- Whether a carriage return ends a line, too. -/
  crlf : Bool := false
  /-- Whether white space and comments do not count. -/
  spaced : Bool := false
  /-- Whether repetitions are lazy unless they say otherwise. -/
  lazy : Bool := false
  deriving DecidableEq, Repr

/-- Sets a flag by its letter. -/
def Flags.set? (letter : Char) (value : Bool) (f : Flags) : Option Flags :=
  match letter with
  | 'i' => some { f with ignoreCase := value }
  | 'm' => some { f with lines := value }
  | 's' => some { f with dotAll := value }
  | 'u' => some { f with unicode := value }
  | 'R' => some { f with crlf := value }
  | 'x' => some { f with spaced := value }
  | 'U' => some { f with lazy := value }
  | _ => none

/-- Changes the flags that a text lists: those behind a dash are turned off. -/
def Flags.change? (f : Flags) (items : List Char) : Option Flags :=
  let off := (items.dropWhile (· ≠ '-')).drop 1
  if items.eraseDups ≠ items || items.getLast? = some '-' then none
  else do
    let f ← (items.takeWhile (· ≠ '-')).foldlM (fun f c => f.set? c true) f
    off.foldlM (fun f c => f.set? c false) f

/-- Skips white space and comments; `comment` tells whether a comment has begun. -/
def skipSpaced (comment : Bool) : List Char → List Char
  | [] => []
  | c :: s =>
    if comment then skipSpaced (c ≠ '\n') s
    else if isSpace c then skipSpaced false s
    else if c = '#' then skipSpaced true s
    else c :: s

/-- Skips what does not count. -/
def Flags.skip (f : Flags) (s : List Char) : List Char :=
  if f.spaced then skipSpaced false s else s

/-- Skipping spaces and comments makes a text no longer. -/
theorem length_skipSpaced_le (comment : Bool) (s : List Char) :
    (skipSpaced comment s).length ≤ s.length := by
  induction s generalizing comment with
  | nil => simp [skipSpaced]
  | cons c s ih =>
    simp only [skipSpaced, List.length_cons]
    repeat' split
    all_goals first | exact Nat.le_succ_of_le (ih _) | simp

/-- Nor does skipping what the flags let a pattern skip. -/
theorem Flags.length_skip_le (f : Flags) (s : List Char) : (f.skip s).length ≤ s.length := by
  unfold Flags.skip
  split
  · exact length_skipSpaced_le false s
  · exact Nat.le_refl _

/-- The longest run of characters of a kind, and the rest. -/
def Flags.span (f : Flags) (kind : Char → Bool) (s : List Char) : List Char × List Char :=
  match s with
  | [] => ([], [])
  | c :: s =>
    if kind c then
      let (run, rest) := f.span kind (f.skip s)
      (c :: run, rest)
    else ([], c :: s)
termination_by s.length
decreasing_by simpa using Nat.lt_succ_of_le (f.length_skip_le s)

/-! ## Escapes -/

/-- What an escape stands for. -/
inductive Escape where
  /-- A character, which may be written as a byte. -/
  | char (c : Char) (byte : Bool)
  | set (s : CharSet)
  | anchor (a : Anchor)
  deriving Repr

/-- The edge of a word that has a name. -/
def WordEdge.ofName? (name : List Char) : Option WordEdge :=
  match String.ofList name with
  | "start" => some start
  | "end" => some stop
  | "start-half" => some startHalf
  | "end-half" => some stopHalf
  | _ => none

/-- The character that hexadecimal digits give; at most `count` of them, or as many as stand
in braces. -/
def Flags.hexEscape? (f : Flags) (count : Nat) (s : List Char) : Option (Escape × List Char) :=
  match f.skip s with
  | '\x7b' :: s =>
    match f.span (fun c => (hexValue? c).isSome) (f.skip s) with
    | ([], _) => none
    | (digits, '\x7d' :: s) => do
      let c ← charOfNat? (← hexNumber? digits)
      return (.char c false, f.skip s)
    | _ => none
  | s => do
    let (digits, s) ← readDigits count s
    let c ← charOfNat? (← hexNumber? digits)
    return (.char c (count = 2), s)
where
  readDigits : Nat → List Char → Option (List Char × List Char)
    | 0, s => some ([], s)
    | _ + 1, [] => none
    | n + 1, c :: s => (readDigits n (f.skip s)).map fun (digits, s) => (c :: digits, s)

/-- The edge of a word after `\b`, which a name in braces makes a special one. -/
def Flags.wordEdge? (f : Flags) (s : List Char) : Option (WordEdge × List Char) :=
  let isInName : Char → Bool := fun c => c.isAlpha || c = '-'
  match s with
  | '\x7b' :: name =>
    match f.skip name with
    | [] => none
    | c :: name =>
      if isInName c then
        match f.span isInName (c :: name) with
        | (name, '\x7d' :: rest) => (WordEdge.ofName? name).map (·, rest)
        | _ => none
      else some (.boundary, s)
  | s => some (.boundary, s)

/-- Reads an escape after its backslash. -/
def Flags.escape? (f : Flags) : List Char → Option (Escape × List Char)
  | [] => none
  | c :: s =>
    let edge : WordEdge → Escape := fun edge => .anchor (.word edge !f.unicode)
    let ascii : CharSet → Option (Escape × List Char) := fun set =>
      if f.unicode then none else some (.set set, s)
    match c with
    | 'x' => f.hexEscape? 2 s
    | 'u' => f.hexEscape? 4 s
    | 'U' => f.hexEscape? 8 s
    | 'd' => ascii .digits
    | 's' => ascii .spaces
    | 'w' => ascii .words
    | 'a' => some (.char '\x07' false, s)
    | 'f' => some (.char '\x0c' false, s)
    | 't' => some (.char '\t' false, s)
    | 'n' => some (.char '\n' false, s)
    | 'r' => some (.char '\r' false, s)
    | 'v' => some (.char '\x0b' false, s)
    | 'A' => some (.anchor .textStart, s)
    | 'z' => some (.anchor .textEnd, s)
    | 'b' => (f.wordEdge? s).map fun (e, s) => (edge e, s)
    | 'B' => some (edge .interior, s)
    | '<' => some (edge .start, s)
    | '>' => some (edge .stop, s)
    | c => if c.isAlphanum || '\x7f' < c then none else some (.char c false, s)

/-- The set that a character stands for. -/
def Flags.literal? (f : Flags) (c : Char) (byte : Bool) : Option CharSet :=
  if f.unicode then if f.ignoreCase then none else some (.singleton c)
  else if byte && '\x7f' < c then none
  else if f.ignoreCase then some (.bothCases (.singleton c))
  else some (.singleton c)

/-- The set that a dot stands for. -/
def Flags.dot? (f : Flags) : Option CharSet :=
  if !f.unicode then none
  else if f.dotAll then some .all
  else if f.crlf then some (.complement (.union (.singleton '\n') (.singleton '\r')))
  else some (.complement (.singleton '\n'))

end PlayStation.Text
