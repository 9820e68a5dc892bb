import PlayStation.Text.Pattern.Bracket
import PlayStation.Text.Pattern.Size

/-!
# Reading patterns

A written pattern is first cut into tokens, in which the flags are settled.  The tokens are
then put together from left to right: open groups wait on a stack, and in each of them the
alternatives that are complete and the items of the one that is not.
-/

namespace PlayStation.Text

/-- A part of a written pattern. -/
inductive Token where
  /-- The start of a group, which has a number if it can be referred to. -/
  | groupStart (number : Option Nat)
  | groupEnd
  | bar
  /-- A change of flags, which cannot be repeated. -/
  | setting
  /-- A pattern that needs no others, and how deep its brackets lie in each other. -/
  | atom (p : Pattern) (depth : Nat)
  | repeated (least : Nat) (most : Option Nat) (lazy : Bool)
  deriving Repr

/-! ## Cutting into tokens -/

/-- What the next token depends on. -/
structure Scan where
  flags : Flags := {}
  /-- The flags around the open groups. -/
  outer : List Flags := []
  /-- The names of groups. -/
  names : List (List Char) := []
  /-- How many groups have numbers. -/
  numbered : Nat := 0

namespace Scan

/-- Reads a count.  White space around it does not count. -/
def count? (f : Flags) (s : List Char) : Option Nat × List Char :=
  let (digits, s) := f.span Char.isDigit (s.dropWhile isSpace)
  let n := digits.foldl (fun n c => 10 * n + (c.toNat - 48)) 0
  (if digits.isEmpty || UInt32.size ≤ n then none else some n, (f.span isSpace s).2)

/-- A repetition, and what follows the sign that makes it lazy, or no longer lazy. -/
def repetition (f : Flags) (least : Nat) (most : Option Nat) (s : List Char) :
    Token × List Char :=
  if s.head? = some '?' then (.repeated least most !f.lazy, s.tail)
  else (.repeated least most f.lazy, s)

/-- Reads the counts of a repetition after their brace. -/
def counts? (f : Flags) (s : List Char) : Option (Token × List Char) := do
  let (least, s) := count? f (f.skip s)
  let least ← least
  let (most, s) ← match s with
    | ',' :: s =>
      match f.skip s with
      | '\x7d' :: s => some (none, '\x7d' :: s)
      | s =>
        let (most, s) := count? f s
        most.bind fun most => if least ≤ most then some (some most, s) else none
    | s => some (some least, s)
  match s with
  | '\x7d' :: s => return repetition f least most (f.skip s)
  | _ => none

/-- Enters a group without a number, whose contents are read with other flags. -/
def enter (c : Scan) (f : Flags) (s : List Char) : Token × Scan × List Char :=
  (.groupStart none, { c with flags := f, outer := c.flags :: c.outer }, s)

/-- Enters a group with a number. -/
def enterNumbered (c : Scan) (s : List Char) : Token × Scan × List Char :=
  let numbered := c.numbered + 1
  (.groupStart numbered, { c with outer := c.flags :: c.outer, numbered }, s)

/-- Reads the name of a group and enters it.  No two groups may have the same name. -/
def enterNamed? (c : Scan) (s : List Char) : Option (Token × Scan × List Char) :=
  let isInName : Char → Bool := fun c =>
    isLetterOrNumeral c || c = '_' || c = '.' || c = '[' || c = ']'
  let name := s.takeWhile (· ≠ '>')
  match s.dropWhile (· ≠ '>') with
  | [] => none
  | _ :: s =>
    if (name.head?.any fun c => isLetter c || c = '_') && name.all isInName &&
        !c.names.contains name then
      some ({ c with names := name :: c.names }.enterNumbered s)
    else none

/-- Reads what follows a parenthesis. -/
def group? (c : Scan) (s : List Char) : Option (Token × Scan × List Char) :=
  match c.flags.skip s with
  | '?' :: '=' :: _ | '?' :: '!' :: _ | '?' :: '<' :: '=' :: _ | '?' :: '<' :: '!' :: _ => none
  | '?' :: 'P' :: '<' :: s | '?' :: '<' :: s => c.enterNamed? s
  | '?' :: s =>
    let isItem : Char → Bool := fun c => c ≠ ':' && c ≠ ')'
    let items := s.takeWhile isItem
    match c.flags.change? items, s.dropWhile isItem with
    | some f, ':' :: s => some (c.enter f s)
    | some f, ')' :: s => if items.isEmpty then none else some (.setting, { c with flags := f }, s)
    | _, _ => none
  | s => some (c.enterNumbered s)

/-- Reads a token. -/
def next? (c : Scan) : List Char → Option (Token × Scan × List Char)
  | [] => none
  | first :: s =>
    let f := c.flags
    let atom : Pattern → List Char → Option (Token × Scan × List Char) := fun p s =>
      some (.atom p 0, c, s)
    let one : Option CharSet → List Char → Option (Token × Scan × List Char) := fun set s =>
      set.bind fun set => atom (.one set !f.unicode) s
    let repetition : Nat → Option Nat → Option (Token × Scan × List Char) := fun least most =>
      let (token, s) := repetition f least most s
      some (token, c, s)
    match first with
    | '(' => c.group? s
    | ')' =>
      match c.outer with
      | [] => none
      | flags :: outer => some (.groupEnd, { c with flags, outer }, s)
    | '|' => some (.bar, c, s)
    | '[' =>
      (Bracket.read? f s).map fun (set, depth, s) => (.atom (.one set !f.unicode) depth, c, s)
    | '?' => repetition 0 (some 1)
    | '*' => repetition 0 none
    | '+' => repetition 1 none
    | '\x7b' => (counts? f s).map fun (token, s) => (token, c, s)
    | '.' => one f.dot? s
    | '^' => atom (.anchor (if f.lines then .lineStart f.crlf else .textStart)) s
    | '$' => atom (.anchor (if f.lines then .lineEnd f.crlf else .textEnd)) s
    | '\\' =>
      match f.escape? s with
      | none => none
      | some (.anchor a, s) => atom (.anchor a) s
      | some (.set set, s) => one set s
      | some (.char c byte, s) => one (f.literal? c byte) s
    | first => one (f.literal? first false) s

/-- Reads at most `n` tokens.  All groups must be closed at the end. -/
def tokensWithin (c : Scan) : (n : Nat) → List Char → Option (List Token)
  | n, s =>
    match n, c.flags.skip s with
    | _, [] => if c.outer.isEmpty then some [] else none
    | 0, _ => none
    | n + 1, s => do
      let (token, c, s) ← c.next? s
      return token :: (← c.tokensWithin n s)

end Scan

/-- The tokens of a written pattern. -/
def tokens? (text : List Char) : Option (List Token) :=
  Scan.tokensWithin {} text.length text

/-! ## Putting tokens together -/

/-- A pattern with the number of its parts that lie in each other. -/
structure Nested where
  pattern : Pattern
  depth : Nat := 0
  /-- Whether it may be repeated. -/
  repeatable : Bool := true

namespace Nested

/-- One pattern after the other. -/
def sequence : List Nested → Nested
  | [] => { pattern := .empty }
  | [p] => p
  | items => {
      pattern := items.foldr (fun p rest => .seq p.pattern rest) .empty
      depth := items.foldl (fun n p => max n p.depth) 0 + 1 }

/-- One pattern or another. -/
def choice (last : Nested) : List Nested → Nested
  | [] => last
  | earlier => {
      pattern := earlier.foldr (fun p rest => .either p.pattern rest) last.pattern
      depth := earlier.foldl (fun n p => max n p.depth) last.depth + 1 }

end Nested

/-- A group that is being read. -/
structure Group where
  /-- The number of a group that can be referred to. -/
  number : Option Nat := none
  /-- The alternatives that are complete, last first. -/
  alternatives : List Nested := []
  /-- The items of the last alternative, last first. -/
  items : List Nested := []

namespace Group

def push (p : Nested) (g : Group) : Group :=
  { g with items := p :: g.items }

/-- Begins another alternative. -/
def bar (g : Group) : Group :=
  { g with alternatives := .sequence g.items.reverse :: g.alternatives, items := [] }

/-- The pattern of the whole group. -/
def close (g : Group) : Nested :=
  .choice (.sequence g.items.reverse) g.alternatives.reverse

/-- Repeats the last item. -/
def repeatLast? (least : Nat) (most : Option Nat) (lazy : Bool) (g : Group) :
    Option Group :=
  match g.items with
  | [] => none
  | p :: items =>
    if p.repeatable then
      some { g with items := ⟨.repeated p.pattern least most lazy, p.depth + 1, true⟩ :: items }
    else none

/-- Puts tokens together; `outer` are the groups around the first one. -/
def assemble? (g : Group) (outer : List Group) : List Token → Option Nested
  | [] => if outer.isEmpty then some g.close else none
  | token :: rest =>
    match token with
    | .groupStart number => assemble? { number } (g :: outer) rest
    | .groupEnd =>
      match outer with
      | [] => none
      | parent :: outer =>
        let p := g.close
        assemble? (parent.push ⟨.group g.number p.pattern, p.depth + 1, true⟩) outer rest
    | .bar => assemble? g.bar outer rest
    | .setting => assemble? (g.push ⟨.empty, 0, false⟩) outer rest
    | .atom pattern depth => assemble? (g.push { pattern, depth }) outer rest
    | .repeated least most lazy =>
      match g.repeatLast? least most lazy with
      | none => none
      | some g => assemble? g outer rest

end Group

/-! ## Patterns -/

namespace Pattern

/-- How deep parts may lie in each other. -/
def maxDepth : Nat := 250

/-- How much memory a machine for a pattern may take. -/
def maxSize : Nat := 10485760

/-- Why a text is no pattern that can be used. -/
inductive Fault where
  | malformed (text : String)
  | tooLarge
  /-- The pattern depends on the words of all scripts. -/
  | words
  deriving DecidableEq, Repr

def Fault.message : Fault → String
  | malformed text => s!"regex parse error:\n    {text}\nerror: malformed pattern"
  | tooLarge => s!"Compiled regex exceeds size limit of {maxSize} bytes."
  | words => "error building NFA"

/-- Tells why there are no machines for a pattern, if there are none. -/
def fault? (p : Plan) : Option Fault :=
  if !p.needsMachine then none
  else if maxSize < p.machineSize .forward then some .tooLarge
  else if p.usesWords then some .words
  else if maxSize < p.machineSize .backward then some .tooLarge
  else none

/-- Reads a pattern. -/
def read (text : String) : Except Fault Pattern :=
  match (tokens? text.toList).bind (Group.assemble? {} []) with
  | none => .error (.malformed text)
  | some p =>
    if maxDepth < p.depth then .error (.malformed text)
    else
      match fault? p.pattern.plan with
      | some fault => .error fault
      | none => .ok p.pattern

end Pattern
end PlayStation.Text
