import PlayStation.Text.Pattern.CharSet

/-!
# Sets of characters as ranges

Whether a code point is in a set changes only at a few places.  `Steps` are these places;
two sets are combined by going through the steps of both.
-/

namespace PlayStation.Text

/-- The code points, in ascending order, at which membership changes. -/
abbrev Steps := List Nat

namespace Steps

/-- A step at which membership changes from `a` to `b`, if it does. -/
def step (x : Nat) (a b : Bool) (rest : Steps) : Steps :=
  if a = b then rest else x :: rest

/-- Combines two sets, which begin with `a` and `b`. -/
def combine (op : Bool → Bool → Bool) (a b : Bool) : (s t : Steps) → Steps
  | [], [] => []
  | x :: s, [] => step x (op a b) (op (!a) b) (combine op (!a) b s [])
  | [], y :: t => step y (op a b) (op a (!b)) (combine op a (!b) [] t)
  | x :: s, y :: t =>
    if x < y then step x (op a b) (op (!a) b) (combine op (!a) b s (y :: t))
    else if y < x then step y (op a b) (op a (!b)) (combine op a (!b) (x :: s) t)
    else step x (op a b) (op (!a) (!b)) (combine op (!a) (!b) s t)
termination_by s t => s.length + t.length

/-- The ranges between steps. -/
def ranges : Steps → List (Nat × Nat)
  | x :: y :: s => (x, y - 1) :: ranges s
  | _ => []

end Steps

namespace CharSet

/-- The steps of a set. -/
def steps : CharSet → Steps
  | nothing => []
  | range first last => if first ≤ last then [first.toNat, last.toNat + 1] else []
  | complement s =>
    match s.steps with
    | 0 :: t => t
    | t => 0 :: t
  | union s t => Steps.combine (· || ·) false false s.steps t.steps
  | intersection s t => Steps.combine (· && ·) false false s.steps t.steps
  | difference s t => Steps.combine (fun a b => a && !b) false false s.steps t.steps
  | symmetricDifference s t => Steps.combine (· != ·) false false s.steps t.steps
  | bothCases s =>
    let among := fun letters => Steps.combine (· && ·) false false s.steps letters
    let upper := (among [0x61, 0x7b]).map (· - 0x20)
    let lower := (among [0x41, 0x5b]).map (· + 0x20)
    Steps.combine (· || ·) false false s.steps
      (Steps.combine (· || ·) false false upper lower)

/-- The characters of a set as ranges of code points in ascending order, with gaps between
them.  Surrogates are no characters. -/
def ranges (s : CharSet) : List (Nat × Nat) :=
  (Steps.combine (· && ·) false false s.steps [0, 0xd800, 0xe000, 0x110000]).ranges

end CharSet
end PlayStation.Text
