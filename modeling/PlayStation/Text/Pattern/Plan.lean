import PlayStation.Text.Utf8
import PlayStation.Text.Pattern.Basic
import PlayStation.Text.Pattern.Ranges

/-!
# Plans

A plan is a pattern as a machine will read it: characters have become bytes, neighbouring
ones are joined, groups that cannot be referred to are gone, alternatives that are single
characters or sets have become one set, and what all alternatives begin with is read first.

In a plan the sequences and the alternatives hang to the right: no first part of a sequence
is a sequence or empty, and no first alternative has alternatives (`parts`, `branches`).
-/

namespace PlayStation.Text

inductive Plan where
  | empty
  | bytes (bs : List UInt8)
  /-- A character in one of some ranges, or one byte of theirs. -/
  | set (ranges : List (Nat × Nat)) (bytes : Bool)
  | anchor (a : Anchor)
  | group (number : Nat) (p : Plan)
  | seq (p q : Plan)
  | either (p q : Plan)
  | repeated (p : Plan) (least : Nat) (most : Option Nat) (lazy : Bool)
  deriving DecidableEq, Repr

namespace Plan

/-! ## Lengths -/

/-- The length of the shortest occurrence in bytes, if the plan can occur. -/
def shortest? : Plan → Option Nat
  | empty | anchor _ => some 0
  | bytes bs => some bs.length
  | set ranges byBytes => ranges.head?.map fun r => if byBytes then 1 else Utf8.size r.1
  | group _ p => p.shortest?
  | seq p q => do return (← p.shortest?) + (← q.shortest?)
  | either p q => do return min (← p.shortest?) (← q.shortest?)
  | repeated p least _ _ => p.shortest?.map (least * ·)

/-- The length of the longest occurrence in bytes, if there is a bound. -/
def longest? : Plan → Option Nat
  | empty | anchor _ => some 0
  | bytes bs => some bs.length
  | set ranges byBytes => ranges.getLast?.map fun r => if byBytes then 1 else Utf8.size r.2
  | group _ p => p.longest?
  | seq p q => do return (← p.longest?) + (← q.longest?)
  | either p q => do return max (← p.longest?) (← q.longest?)
  | repeated p _ most _ => do return (← most) * (← p.longest?)

/-! ## Making plans -/

/-- A character in one of some ranges.  A single one is read by its bytes. -/
def ofRanges (ranges : List (Nat × Nat)) (byBytes : Bool) : Plan :=
  match ranges with
  | [] => set [] true
  | [(first, last)] =>
    if first = last then bytes (String.utf8EncodeChar (Char.ofNat first)) else set ranges byBytes
  | _ => set ranges byBytes

/-- A part, which is no sequence, and a plan after it. -/
def cons : (part : Plan) → Plan → Plan
  | empty, q => q
  | p, empty => p
  | bytes bs, bytes cs => bytes (bs ++ cs)
  | bytes bs, seq (bytes cs) q => seq (bytes (bs ++ cs)) q
  | p, q => seq p q

/-- One plan after the other. -/
def append : Plan → Plan → Plan
  | seq p rest, q => cons p (rest.append q)
  | p, q => cons p q

/-- The parts of a sequence. -/
def parts : Plan → List Plan
  | seq p q => p :: q.parts
  | p => [p]

/-- The alternatives. -/
def branches : Plan → List Plan
  | either p q => p :: q.branches
  | p => [p]

/-- A sequence of parts that are in order already. -/
def ofParts (ps : List Plan) : Plan :=
  ps.foldr append empty

/-- Alternatives that are in order already. -/
def ofBranches : List Plan → Plan
  | [] => set [] true
  | [p] => p
  | p :: ps => either p (ofBranches ps)

/-- A repeated plan.  What is always empty need not be repeated. -/
def times (p : Plan) (least : Nat) (most : Option Nat) (lazy : Bool) : Plan :=
  let isEmpty := p.longest? = some 0
  let least := if isEmpty then min least 1 else least
  let most := if isEmpty then some (most.elim 1 (min · 1)) else most
  if least = 0 ∧ most = some 0 then empty
  else if least = 1 ∧ most = some 1 then p
  else repeated p least most lazy

/-- The character that a plan reads, if it reads only one. -/
def character? : Plan → Option Char
  | bytes bs =>
    match (String.fromUTF8? ⟨bs.toArray⟩).map String.toList with
    | some [c] => some c
    | _ => none
  | _ => none

/-- The set that a plan reads, unless it is a single character. -/
def set? : Plan → Option (List (Nat × Nat))
  | set ranges _ => some ranges
  | _ => none

/-- The ranges of a union. -/
def unite (sets : List (List (Nat × Nat))) : List (Nat × Nat) :=
  let steps := sets.map fun ranges => ranges.flatMap fun (first, last) => [first, last + 1]
  Steps.ranges (steps.foldl (Steps.combine (· || ·) false false) [])

/-- How many parts all alternatives have in common at their beginning. -/
def common : List (List Plan) → Nat
  | [] => 0
  | ps :: rest =>
    rest.foldl (fun n qs => ((ps.take n).zip qs |>.takeWhile fun (p, q) => p = q).length) ps.length

/-- How many plans a plan consists of. -/
def weight : Plan → Nat
  | empty | bytes _ | set _ _ | anchor _ => 1
  | group _ p | repeated p _ _ _ => p.weight + 1
  | seq p q | either p q => p.weight + q.weight + 1

/-- One of some plans; at most `n` times, what all begin with is read first. -/
def choiceWithin : (n : Nat) → List Plan → Plan
  | n, ps =>
    let ps := ps.flatMap branches
    if ps.length ≤ 1 then ofBranches ps
    else
      match ps.mapM character? with
      | some cs => ofRanges (unite (cs.map fun c => [(c.toNat, c.toNat)])) false
      | none =>
        match ps.mapM set? with
        | some sets => ofRanges (unite sets) false
        | none =>
          let sequences := ps.map parts
          let count := common sequences
          match n with
          | 0 => ofBranches ps
          | n + 1 =>
            if count = 0 || sequences.any (·.length = 1) then ofBranches ps
            else
              let rest := choiceWithin n (sequences.map fun ps => ofParts (ps.drop count))
              ofParts ((sequences.headD []).take count ++ [rest])

/-- One of some plans. -/
def choice : List Plan → Plan
  | [p] => p
  | ps => choiceWithin (ps.foldl (fun n p => n + p.weight) 0) ps

end Plan

namespace Pattern

/-- The plans of the alternatives of a pattern. -/
def plans : Pattern → List Plan
  | empty => [.empty]
  | one s bytes => [.ofRanges s.ranges bytes]
  | anchor a => [.anchor a]
  | group none p => [.choice p.plans]
  | group (some n) p => [.group n (.choice p.plans)]
  | seq p q => [(Plan.choice p.plans).append (.choice q.plans)]
  | either p q => p.plans ++ q.plans
  | repeated p least most lazy => [(Plan.choice p.plans).times least most lazy]

/-- The plan of a pattern. -/
def plan (p : Pattern) : Plan :=
  .choice p.plans

end Pattern
end PlayStation.Text
