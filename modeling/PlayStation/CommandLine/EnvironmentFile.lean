import PlayStation.Text.Letter
import PlayStation.Text.WhiteSpace

/-!
# Environment files

An environment file defines variables, one on a line: a name, which the word `export` may
precede, an equals sign and a value.  Quotes may run over several lines.  A value without
quotes ends at a blank, after which only a comment may follow.  Backslashes escape single
characters, except in single quotes, and `$` inserts another variable there.

`read` returns the definitions up to the first fault.
-/

namespace PlayStation.CommandLine.EnvironmentFile

/-- Why a file cannot be read further. -/
inductive Fault where
  /-- A line is not in UTF-8. -/
  | encoding
  /-- A line or a value cannot be read at a place in it. -/
  | unreadable (text : String) (place : Nat)
  deriving DecidableEq, Repr

def Fault.message : Fault → String
  | encoding => "stream did not contain valid UTF-8"
  | unreadable text place => s!"Error parsing line: '{text}', error at line index: {place}"

/-- A part of a value: a character, or a reference to a variable. -/
inductive Piece where
  | char (c : Char)
  | reference (name : String)
  deriving DecidableEq, Repr

structure Definition where
  name : String
  value : List Piece
  deriving DecidableEq, Repr

/-- The number of bytes of a text. -/
def byteCount (text : List Char) : Nat :=
  (String.ofList text).utf8ByteSize

/-! ## Lines -/

/-- The lines of a file, each with its line feed, where they are text. -/
def physicalLines (bytes : List UInt8) : List (Option (List Char)) :=
  let (lines, last) := bytes.foldl
    (fun (lines, line) byte =>
      let line := line.push byte
      if byte = 10 then (line :: lines, .empty) else (lines, line))
    (([] : List ByteArray), ByteArray.empty)
  let lines := if last.isEmpty then lines else last :: lines
  lines.reverse.map fun line => (String.fromUTF8? line).map String.toList

/-- How a line stands at a place in it. -/
inductive Standing where
  /-- It may end. -/
  | plain
  /-- After a single blank, so that a comment may begin. -/
  | blank
  | escape
  | single
  | singleEscape
  | double
  | doubleEscape
  deriving DecidableEq, Repr

/-- The standing after a character outside quotes. -/
def Standing.ofChar (c : Char) : Standing :=
  if c = '\\' then escape
  else if c = '"' then double
  else if c = '\'' then single
  else plain

/-- The standing after one more character. -/
def Standing.next (c : Char) : Standing → Standing
  | plain => if Text.isSpace c && c ≠ '\n' && c ≠ '\r' then blank else ofChar c
  | blank => ofChar c
  | escape => plain
  | single => if c = '\\' then singleEscape else if c = '\'' then plain else single
  | singleEscape => single
  | double => if c = '\\' then doubleEscape else if c = '"' then plain else double
  | doubleEscape => double

/-- Goes through a line.  The result is its standing at the end, or the number of
characters before a comment. -/
def standingAfter : Standing → List Char → Except Nat Standing
  | standing, [] => .ok standing
  | standing, c :: line =>
    if standing = .blank && c = '#' then .error 0
    else (standingAfter (standing.next c) line).mapError (· + 1)

/-- A line without its line break. -/
def withoutBreak (line : List Char) : List Char :=
  match line.reverse with
  | '\n' :: '\r' :: s => s.reverse
  | '\n' :: s => s.reverse
  | _ => line

/-- Joins lines while quotes are open.  `begun` is the beginning of the line that is being
joined. -/
def joinLines (begun : List Char) (standing : Standing) :
    List (Option (List Char)) → List (Except Fault (List Char))
  | [] =>
    if standing = .plain then []
    else [.error (.unreadable (String.ofList begun) (byteCount begun))]
  | none :: _ => [.error .encoding]
  | some line :: rest =>
    let joined := begun ++ line
    if (joined.dropWhile Text.isSpace).head? = some '#' then joinLines [] .plain rest
    else
      match standingAfter standing line with
      | .error count => .ok (begun ++ line.take count) :: joinLines [] .plain rest
      | .ok .plain => .ok (withoutBreak joined) :: joinLines [] .plain rest
      | .ok standing => joinLines joined standing rest

/-! ## Values -/

/-- What a character of a value belongs to. -/
inductive Part where
  | text
  | escape
  /-- Single quotes. -/
  | single
  /-- The name of a variable. -/
  | name (letters : List Char)
  /-- The name of a variable in braces. -/
  | braced (letters : List Char)
  /-- The blanks after the value. -/
  | ending
  | comment
  deriving DecidableEq, Repr

/-- A value that has been read in part. -/
structure Value where
  part : Part := .text
  /-- Whether double quotes are open. -/
  quoted : Bool := false
  /-- The pieces, last first. -/
  pieces : List Piece := []

namespace Value

def push (c : Char) (v : Value) : Value :=
  { v with part := .text, pieces := .char c :: v.pieces }

/-- Ends the name of a variable, whose letters are given last first. -/
def pushVariable (letters : List Char) (v : Value) : Value :=
  { v with part := .text, pieces := .reference (String.ofList letters.reverse) :: v.pieces }

/-- Reads a character that belongs to the text. -/
def readText (c : Char) (v : Value) : Value :=
  if c = '$' then { v with part := .name [] }
  else if c = '\\' then { v with part := .escape }
  else if c = '"' then { v with quoted := !v.quoted }
  else if v.quoted then v.push c
  else if c = '\'' then { v with part := .single }
  else if c = ' ' || c = '\t' then { v with part := .ending }
  else v.push c

/-- Reads a character, if it may stand where it does. -/
def read? (c : Char) (v : Value) : Option Value :=
  match v.part with
  | .text => some (v.readText c)
  | .escape =>
    if c = 'n' then some (v.push '\n')
    else if c = '\\' || c = '\'' || c = '"' || c = '$' || c = ' ' then some (v.push c)
    else none
  | .single =>
    if c = '\'' then some { v with part := .text } else some { v.push c with part := .single }
  | .name letters =>
    if Text.isLetterOrNumeral c then some { v with part := .name (c :: letters) }
    else if c = '\x7b' && letters.isEmpty then some { v with part := .braced [] }
    else
      let v := v.pushVariable letters
      if c = '$' then some { v with part := .name [] } else some (v.push c)
  | .braced letters =>
    if c = '\x7d' then some (v.pushVariable letters)
    else some { v with part := .braced (c :: letters) }
  | .ending =>
    if c = ' ' || c = '\t' then some v
    else if c = '#' then some { v with part := .comment }
    else none
  | .comment => some v

/-- The pieces of a value that may end, in order. -/
def finish? (v : Value) : Option (List Piece) :=
  if v.quoted then none
  else
    match v.part with
    | .single | .braced _ => none
    | .name letters => some (v.pushVariable letters).pieces.reverse
    | _ => some v.pieces.reverse

/-- Reads characters from the place `place` on, or tells at which place that fails. -/
def readFrom (v : Value) : (place : Nat) → List Char → Except Nat Value
  | _, [] => .ok v
  | place, c :: s =>
    match v.read? c with
    | some v => v.readFrom (place + 1) s
    | none => .error place

end Value

/-- Reads a value. -/
def readValue (text : List Char) : Except Fault (List Piece) :=
  match Value.readFrom {} 0 text with
  | .error place => .error (.unreadable (String.ofList text) place)
  | .ok v =>
    match v.finish? with
    | some pieces => .ok pieces
    | none => .error (.unreadable (String.ofList text) (byteCount text - 1))

/-! ## Definitions -/

/-- The name at the beginning of a text, and the text after the white space behind it. -/
def readName? (s : List Char) : Option (String × List Char) :=
  let isInName : Char → Bool := fun c => c.isAlphanum || c = '_' || c = '.'
  match s with
  | c :: _ =>
    if c.isAlpha || c = '_' then
      some (String.ofList (s.takeWhile isInName), (s.dropWhile isInName).dropWhile Text.isSpace)
    else none
  | [] => none

/-- The name that a line defines, and the text of its value.  Where this fails, the rest
of the line is returned. -/
def readDefined (s : List Char) : Except (List Char) (String × List Char) :=
  match readName? s with
  | none => .error s
  | some (name, '=' :: s) => .ok (name, s.dropWhile Text.isSpace)
  | some (name, s) =>
    if name = "export" then
      match readName? s with
      | none => .error s
      | some (name, '=' :: s) => .ok (name, s.dropWhile Text.isSpace)
      | some (_, s) => .error s
    else .error s

/-- Whether nothing but a comment comes next. -/
def isVoid (s : List Char) : Bool :=
  s.isEmpty || s.head? = some '#'

/-- Reads a line.  It may define nothing. -/
def readLine (line : List Char) : Except Fault (Option Definition) :=
  let s := Text.trimEnd line
  let start := s.dropWhile Text.isSpace
  if isVoid start then .ok none
  else
    match readDefined start with
    | .error rest =>
      .error (.unreadable (String.ofList line) (byteCount s - byteCount rest))
    | .ok (name, value) =>
      if isVoid value then .ok (some ⟨name, []⟩)
      else (readValue value).map fun pieces => some ⟨name, pieces⟩

/-- Reads lines up to the first fault. -/
def readLines : List (Except Fault (List Char)) → List Definition × Option Fault
  | [] => ([], none)
  | line :: rest =>
    match line.bind readLine with
    | .error fault => ([], some fault)
    | .ok definition? =>
      let (definitions, fault) := readLines rest
      (definition?.toList ++ definitions, fault)

/-- The definitions of a file up to the first fault in it.  A byte order mark at its
beginning does not count. -/
def read (contents : ByteArray) : List Definition × Option Fault :=
  let bytes := match contents.data.toList with
    | 0xef :: 0xbb :: 0xbf :: bytes => bytes
    | bytes => bytes
  readLines (joinLines [] .plain (physicalLines bytes))

end PlayStation.CommandLine.EnvironmentFile
