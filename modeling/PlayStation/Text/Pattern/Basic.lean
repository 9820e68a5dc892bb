import PlayStation.Text.Pattern.CharSet

/-!
# Patterns

A pattern describes texts.  To find out whether it occurs in a text, one follows it from
all places of the text at once: a place lies before the first character, between two
characters, or behind the last one, and `reach` are the places where an occurrence that
begins at one of the given places may end.

A text of `n` characters has `n + 1` places.  Repeating a pattern more than `n + 1` times
reaches nothing new, since all but `n` of the repetitions are empty then; so the bounds of
a repetition do not matter beyond that.
-/

namespace PlayStation.Text

/-- Where a place must lie, as seen from a word. -/
inductive WordEdge where
  | boundary
  | interior
  | start
  | stop
  /-- No word lies before the place. -/
  | startHalf
  /-- No word lies behind the place. -/
  | stopHalf
  deriving DecidableEq, Repr

/-- Whether the edge lies between two places, if the characters before and behind it
belong to words. -/
def WordEdge.holds (before behind : Bool) : WordEdge → Bool
  | boundary => before != behind
  | interior => before == behind
  | start => !before && behind
  | stop => before && !behind
  | startHalf => !before
  | stopHalf => !behind

/-- A condition on a place. -/
inductive Anchor where
  | textStart
  | textEnd
  /-- The start of a line; with `crlf` a carriage return ends a line, too. -/
  | lineStart (crlf : Bool)
  | lineEnd (crlf : Bool)
  /-- An edge of a word, in ASCII or in every script. -/
  | word (edge : WordEdge) (ascii : Bool)
  deriving DecidableEq, Repr

/-- Whether a place lies where it must, given the characters around it. -/
def Anchor.holds (before behind : Option Char) : Anchor → Bool
  | textStart => before.isNone
  | textEnd => behind.isNone
  | lineStart false => before.isNone || before = some '\n'
  | lineEnd false => behind.isNone || behind = some '\n'
  | lineStart true =>
    before.isNone || before = some '\n' || (before = some '\r' && behind ≠ some '\n')
  | lineEnd true =>
    behind.isNone || behind = some '\r' || (behind = some '\n' && before ≠ some '\r')
  | word edge _ =>
    edge.holds (before.any CharSet.words.contains) (behind.any CharSet.words.contains)

inductive Pattern where
  | empty
  /-- A character of a set, which may have been given as a set of bytes. -/
  | one (s : CharSet) (bytes : Bool)
  | anchor (a : Anchor)
  /-- A pattern in parentheses.  A group that can be referred to has a number. -/
  | group (number : Option Nat) (p : Pattern)
  | seq (p q : Pattern)
  | either (p q : Pattern)
  /-- A repeated pattern.  Whether a lazy repetition, which prefers the shorter text, or
  another one is meant does not change what occurs. -/
  | repeated (p : Pattern) (least : Nat) (most : Option Nat) (lazy : Bool)
  deriving DecidableEq, Repr

/-- A set of places in a text: for each place, whether it is in the set. -/
abbrev Places := List Bool

namespace Places

def union (a b : Places) : Places :=
  List.zipWith (· || ·) a b

/-- What `n` steps lead to. -/
def after (step : Places → Places) : (n : Nat) → Places → Places
  | 0, here => here
  | n + 1, here =>
    let next := step here
    if next = here then here else after step n next

/-- What at most `n` steps lead to. -/
def within (step : Places → Places) : (n : Nat) → Places → Places
  | 0, here => here
  | n + 1, here =>
    let next := here.union (step here)
    if next = here then here else within step n next

end Places

namespace Pattern

/-- The characters before and behind each place of a text. -/
def neighbours (text : List Char) : List (Option Char × Option Char) :=
  List.zip (none :: text.map some) (text.map some ++ [none])

/-- Where occurrences of the pattern that begin at one of the places end. -/
def reach (text : List Char) : Pattern → Places → Places
  | empty, here => here
  | one s _, here => false :: List.zipWith (fun b c => b && s.contains c) here text
  | anchor a, here =>
    List.zipWith (fun b (before, behind) => b && a.holds before behind) here (neighbours text)
  | group _ p, here => p.reach text here
  | seq p q, here => q.reach text (p.reach text here)
  | either p q, here => (p.reach text here).union (q.reach text here)
  | repeated p least most _, here =>
    let bound := text.length + 1
    let enough := Places.after (p.reach text) (min least bound) here
    match most with
    | none => Places.within (p.reach text) bound enough
    | some most => Places.within (p.reach text) (min (most - least) bound) enough

/-- Whether the pattern occurs in a text. -/
def occursIn (p : Pattern) (text : String) : Bool :=
  let text := text.toList
  (p.reach text (List.replicate (text.length + 1) true)).any id

end Pattern
end PlayStation.Text
