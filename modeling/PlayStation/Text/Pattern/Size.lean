import PlayStation.Text.Pattern.Plan

/-!
# The size of the machine for a plan

A machine that looks for a plan has states, each of which either reads a byte from some
ranges, or goes on to other states without reading, or checks a condition.  A state takes
some memory, and more of it for every range and every other state it may go on to.  Counted
repetitions are written out.

There is one machine that reads forwards, notes where groups begin and end, and finds where
an occurrence ends, and one that reads backwards and finds where it begins.
-/

namespace PlayStation.Text

namespace Plan

/-- Which way a machine reads. -/
inductive Direction where
  | forward
  | backward
  deriving DecidableEq, Repr

/-! ## The parts of machines -/

/-- The memory of a state. -/
def stateSize : Nat := 32

/-- The memory of a state that reads a byte from one of `n` ranges. -/
def readerSize (n : Nat) : Nat := stateSize + 8 * n

/-- The memory of a state that goes on to one of `n` others. -/
def forkSize (n : Nat) : Nat := stateSize + 4 * n

/-- The sum of some sizes. -/
def total (sizes : List Nat) : Nat := sizes.foldl (· + ·) 0

/-- Neighbours with the same first element, without it. -/
def groups {α : Type} [DecidableEq α] : List (List α) → List (α × List (List α))
  | [] => []
  | [] :: rows => groups rows
  | (a :: row) :: rows =>
    match groups rows with
    | (b, tails) :: rest =>
      if a = b then (a, row :: tails) :: rest else (a, [row]) :: (b, tails) :: rest
    | [] => [(a, [row])]

/-- The states that read rows of at most `n` byte ranges forwards, each given by the rows
that it reads. -/
def readers : (n : Nat) → List Utf8.Row → List (List Utf8.Row)
  | 0, _ => []
  | n + 1, rows =>
    rows :: (groups rows).flatMap fun (_, tails) =>
      if tails.all List.isEmpty then [] else readers n tails

/-- How many states read rows of at most `n` byte ranges backwards, if rows that begin in the
same way share states. -/
def sharedCount : (n : Nat) → List Utf8.Row → Nat
  | 0, _ => 0
  | n + 1, rows => total ((groups rows).map fun (_, tails) => sharedCount n tails + 1)

/-- The memory of a machine for a character in one of some ranges. -/
def setSize (d : Direction) (ranges : List (Nat × Nat)) (byBytes : Bool) : Nat :=
  if byBytes || ranges.all (·.2 ≤ 0x7f) then readerSize ranges.length + stateSize
  else
    let rows := ranges.flatMap fun (first, last) => Utf8.rows first last
    match d with
    | .forward =>
      total ((readers 4 rows).eraseDups.map fun rows => readerSize (groups rows).length) +
        stateSize
    | .backward => forkSize rows.length + stateSize * sharedCount 4 rows + stateSize

/-! ## Lists of words -/

/-- The words before each end of a word, and those behind the last end. -/
def splitAtEnds : List (List UInt8) → List (List (List UInt8))
  | [] => [[]]
  | [] :: words => [] :: splitAtEnds words
  | word :: words =>
    match splitAtEnds words with
    | chunk :: rest => (word :: chunk) :: rest
    | [] => [[word]]

/-- The words before each end of a word, and those behind the last end.  As long as no word
goes on, an end counts only once. -/
def chunks : List (List UInt8) → List (List (List UInt8))
  | [] :: words => [] :: splitAtEnds (words.dropWhile List.isEmpty)
  | words => splitAtEnds words

/-- The words of a chunk by their first bytes. -/
def byFirst (words : List (List UInt8)) : List (List (List UInt8)) :=
  (words.filterMap List.head?).eraseDups.map fun b =>
    words.filterMap fun word => if word.head? = some b then some word.tail else none

/-- The memory of a machine for words of at most `n` bytes.  It prefers earlier words, so
words that come after the end of a word have states of their own. -/
def wordsSize : (n : Nat) → List (List UInt8) → Nat
  | 0, _ => 0
  | n + 1, words =>
    let chunks := chunks words
    let parts := chunks.map byFirst
    let readers := parts.map fun tails =>
      match tails.length with
      | 0 => 0
      | 1 => stateSize
      | k => readerSize k
    let next := parts.flatMap fun tails => tails.map fun words =>
      if words.all List.isEmpty then 0 else wordsSize n words
    forkSize (parts.countP (!·.isEmpty) + (chunks.length - 1)) + total readers + total next

/-! ## Machines -/

/-- The words of a plan that is a list of them. -/
def words? (p : Plan) : Option (List (List UInt8)) :=
  p.branches.mapM fun
    | bytes bs => some bs
    | _ => none

/-- The memory of a repeated machine of a size. -/
def repeatedSize (size : Nat) (canBeEmpty : Bool) (least : Nat) (most : Option Nat) : Nat :=
  match most with
  | none =>
    if least = 0 && canBeEmpty then size + 2 * forkSize 2 + stateSize
    else max least 1 * size + forkSize 2
  | some most =>
    if least = most then least * size
    else if least = 0 ∧ most = 1 then size + forkSize 2 + stateSize
    else
      (if least = 0 then stateSize else least * size) + stateSize +
        (most - least) * (size + forkSize 2)

/-- The memory of a machine for words. -/
def wordListSize (d : Direction) (words : List (List UInt8)) : Nat :=
  let words := if d = .forward then words else words.map List.reverse
  wordsSize ((words.map List.length).foldl max 0 + 1) words + stateSize

/-- The memory of the machine for a plan, or of its share in alternatives that it ends. -/
def size (d : Direction) : Plan → (isLast : Bool) → Nat
  | empty, isLast | anchor _, isLast => share isLast stateSize
  | bytes bs, isLast => share isLast (stateSize * bs.length)
  | set ranges byBytes, isLast => share isLast (setSize d ranges byBytes)
  | group _ p, isLast =>
    share isLast (p.size d false + if d = .forward then 2 * stateSize else 0)
  | seq p q, isLast => share isLast (p.size d false + q.size d false)
  | either p q, isLast =>
    let shares := share true (p.size d false) + q.size d true
    if isLast then shares
    else
      match (either p q).words? with
      | some words => wordListSize d words
      | none => forkSize 0 + stateSize + shares
  | repeated p least most _, isLast =>
    share isLast (repeatedSize (p.size d false) (p.shortest?.all (· = 0)) least most)
where
  /-- With the way that leads to one of some alternatives. -/
  share (isOneOfSome : Bool) (n : Nat) : Nat := if isOneOfSome then n + 4 else n

/-- Whether an occurrence can only begin at the start of the text. -/
def beginsAtStart : Plan → Bool
  | anchor .textStart => true
  | empty | anchor _ | bytes _ | set _ _ => false
  | group _ p => p.beginsAtStart
  | seq p q => p.beginsAtStart || (p.longest? = some 0 && q.beginsAtStart)
  | either p q => p.beginsAtStart && q.beginsAtStart
  | repeated p least _ _ => 0 < least && p.beginsAtStart

/-- Whether an occurrence can only end at the end of the text. -/
def endsAtEnd : Plan → Bool
  | anchor .textEnd => true
  | empty | anchor _ | bytes _ | set _ _ => false
  | group _ p => p.endsAtEnd
  | seq p q => q.endsAtEnd || (q.longest? = some 0 && p.endsAtEnd)
  | either p q => p.endsAtEnd && q.endsAtEnd
  | repeated p least _ _ => 0 < least && p.endsAtEnd

/-- The memory of what skips the text around an occurrence. -/
def skipSize (isAnchored : Bool) : Nat :=
  if isAnchored then stateSize else repeatedSize (readerSize 1 + stateSize) false 0 none

/-- The memory of all of the machine that reads in a direction. -/
def machineSize (p : Plan) : Direction → Nat
  | .forward => skipSize p.beginsAtStart + p.size .forward false + 3 * stateSize
  | .backward => skipSize p.endsAtEnd + p.size .backward false + stateSize

/-- Whether the plan depends on the words of all scripts. -/
def usesWords : Plan → Bool
  | anchor (.word _ ascii) => !ascii
  | empty | anchor _ | bytes _ | set _ _ => false
  | group _ p | repeated p _ _ _ => p.usesWords
  | seq p q | either p q => p.usesWords || q.usesWords

/-- From how many words on a plan that is only a list of them is not turned into a
machine. -/
def manyWords : Nat := 3000

/-- Whether a plan is turned into machines. -/
def needsMachine (p : Plan) : Bool :=
  !(p.words?.any fun words => manyWords ≤ words.length)

end Plan
end PlayStation.Text
