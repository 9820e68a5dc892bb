import PlayStation.Text.Pattern.Ranges
import PlayStation.Text.Pattern.Token

/-!
# Sets in brackets

A set in brackets lists characters, ranges, named sets such as `[:alpha:]`, and other sets
in brackets; a circumflex at its beginning takes its complement.  `&&`, `--` and `~~` combine
what stands before them with what follows, from left to right.
-/

namespace PlayStation.Text

/-- A set in brackets that has been read in part. -/
structure Bracket where
  negated : Bool := false
  /-- What stands before the last operator, to be combined with what follows. -/
  combine : CharSet → CharSet := id
  /-- What stands behind the last operator. -/
  listed : CharSet := .nothing
  /-- How deep brackets and operators lie in each other before the last operator. -/
  depthBefore : Option Nat := none
  /-- The same for each part of what stands behind it. -/
  depths : List Nat := []

namespace Bracket

/-- Adds a part, in which brackets and operators lie in each other. -/
def add (s : CharSet) (depth : Nat) (b : Bracket) : Bracket :=
  { b with listed := .union b.listed s, depths := depth :: b.depths }

/-- How deep brackets and operators, and lists of several parts, lie in each other. -/
def depth (b : Bracket) : Nat :=
  let behind := match b.depths with
    | [] => 0
    | [d] => d
    | ds => ds.foldl max 0 + 1
  b.depthBefore.elim behind (max · behind + 1)

/-- What stands behind the last operator, with letters of either case where case does not
count.  In every script such letters are not supported, unless there are none. -/
def folded? (f : Flags) (b : Bracket) : Option CharSet :=
  if !f.ignoreCase then some b.listed
  else if !f.unicode then some (.bothCases b.listed)
  else if b.listed.ranges.isEmpty then some .nothing
  else none

/-- What the operators before this place combine. -/
def operand? (f : Flags) (b : Bracket) : Option CharSet :=
  (b.folded? f).map b.combine

/-- Begins a new operand. -/
def operate? (f : Flags) (operation : CharSet → CharSet → CharSet) (b : Bracket) :
    Option Bracket :=
  (b.operand? f).map fun set =>
    { b with
      combine := operation set
      listed := .nothing
      depthBefore := some b.depth
      depths := [] }

/-- Ends the set.  A complement needs the flag `u`. -/
def close? (f : Flags) (b : Bracket) : Option CharSet :=
  if !b.negated then b.operand? f
  else if f.unicode then (b.operand? f).map .complement
  else none

/-- Reads the beginning of a set after its bracket: a circumflex, dashes, or a closing
bracket that stands for itself. -/
def open? (f : Flags) (s : List Char) : Option (Bracket × List Char) :=
  let s := f.skip s
  let negated := s.head? = some '^'
  let s := if negated then f.skip s.tail else s
  let b : Bracket := { negated }
  match f.span (· = '-') s with
  | (_, []) => none
  | ([], ']' :: s) => some (b.add (.singleton ']') 0, s)
  | (dashes, s) => some (dashes.foldl (fun b c => b.add (.singleton c) 0) b, s)

/-- Reads the name of a set after its bracket, if there is one. -/
def named? (s : List Char) : Option (Bool × CharSet × List Char) :=
  match s with
  | ':' :: s =>
    let negated := s.head? = some '^'
    let s := if negated then s.tail else s
    match s.dropWhile (· ≠ ':') with
    | ':' :: ']' :: rest =>
      (CharSet.named.lookup (String.ofList (s.takeWhile (· ≠ ':')))).map (negated, ·, rest)
    | _ => none
  | _ => none

/-- Reads a character or an escape. -/
def item? (f : Flags) : List Char → Option (Escape × List Char)
  | [] => none
  | '\\' :: s => f.escape? s
  | c :: s => some (.char c false, s)

/-- Whether a character may be in a set.  Without `u` only ASCII may. -/
def allows (f : Flags) (c : Char) : Bool :=
  f.unicode || c ≤ '\x7f'

/-- The next character that counts behind a dash. -/
def peek? (f : Flags) (s : List Char) : Option Char :=
  if !f.spaced then s.head?
  else
    match s.dropWhile isSpace with
    | '#' :: rest => (rest.dropWhile isSpace).head?.or s.head?
    | rest => rest.head?.or s.head?

/-- Reads a character, a range or the set of an escape. -/
def listed? (f : Flags) (s : List Char) : Option (CharSet × List Char) := do
  let (first, s) ← item? f s
  match f.skip s with
  | [] => none
  | '-' :: s =>
    if peek? f s = some ']' || peek? f s = some '-' then return (← single? first, '-' :: s)
    else
      let (last, s) ← item? f (f.skip s)
      match first, last with
      | .char a _, .char b _ =>
        if a ≤ b && allows f b then return (.range a b, s) else none
      | _, _ => none
  | s => return (← single? first, s)
where
  single? : Escape → Option CharSet
    | .char c _ => if allows f c then some (.singleton c) else none
    | .set s => some s
    | .anchor _ => none

/-- Reads the rest of a set, in at most `n` steps; `outer` are the sets around it.  The set
comes with its depth. -/
def readWithin (f : Flags) : (n : Nat) → Bracket → (outer : List Bracket) → List Char →
    Option (CharSet × Nat × List Char)
  | 0, _, _, _ => none
  | n + 1, b, outer, s =>
    match f.skip s with
    | [] => none
    | '[' :: s =>
      match named? s with
      | some (negated, set, rest) =>
        if !negated then readWithin f n (b.add set 0) outer rest
        else if f.unicode then readWithin f n (b.add (.complement set) 0) outer rest
        else none
      | none => do
        let (inner, s) ← open? f s
        readWithin f n inner (b :: outer) s
    | ']' :: s => do
      let set ← b.close? f
      match outer with
      | [] => return (set, b.depth + 1, s)
      | parent :: outer => readWithin f n (parent.add set (b.depth + 1)) outer s
    | '&' :: '&' :: s => do readWithin f n (← b.operate? f .intersection) outer s
    | '-' :: '-' :: s => do readWithin f n (← b.operate? f .difference) outer s
    | '~' :: '~' :: s => do readWithin f n (← b.operate? f .symmetricDifference) outer s
    | s => do
      let (set, s) ← listed? f s
      readWithin f n (b.add set 0) outer s

/-- Reads a set after its bracket, and how deep brackets and operators lie in each other. -/
def read? (f : Flags) (s : List Char) : Option (CharSet × Nat × List Char) := do
  let (b, s) ← open? f s
  readWithin f (s.length + 1) b [] s

end Bracket
end PlayStation.Text
