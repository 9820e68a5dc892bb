/-!
# Ranges of encoded characters

A character is encoded as one to four bytes: the first one tells how many follow, and each
that follows holds a digit of the code point to base 64.  So the code points of a range are
those whose bytes lie, place by place, in one of a few rows of byte ranges.
-/

namespace PlayStation.Text.Utf8

/-- The length of the encoding of a code point. -/
def size (n : Nat) : Nat :=
  if n ≤ 0x7f then 1 else if n ≤ 0x7ff then 2 else if n ≤ 0xffff then 3 else 4

/-- Ranges of digits, one for each place. -/
abbrev Row := List (Nat × Nat)

/-- All numbers whose first digit lies from `start` to before `stop`, as at most one row. -/
def fullRows (n start stop : Nat) : List Row :=
  if start < stop then [(start, stop - 1) :: List.replicate n (0, 63)] else []

/-- The numbers from `first` to `last` as rows of digits to base 64, in ascending order.
`n` digits follow the first one, which may be larger. -/
def digitRows : (n : Nat) → (first last : Nat) → List Row
  | 0, first, last => [[(first, last)]]
  | n + 1, first, last =>
    let unit := Nat.pow 64 (n + 1)
    let a := first / unit
    let b := last / unit
    if a = b then (digitRows n (first % unit) (last % unit)).map ((a, a) :: ·)
    else
      let head := if first % unit = 0 then [] else digitRows n (first % unit) (unit - 1)
      let tail := if last % unit = unit - 1 then [] else digitRows n 0 (last % unit)
      let start := if first % unit = 0 then a else a + 1
      let stop := if last % unit = unit - 1 then b + 1 else b
      head.map ((a, a) :: ·) ++ fullRows (n + 1) start stop ++ tail.map ((b, b) :: ·)

/-- The kinds of encodings: the first and the last code point, the number of bytes that
follow the first one, and what is added to the first one.  Surrogates have none. -/
def forms : List (Nat × Nat × Nat × Nat) :=
  [(0, 0x7f, 0, 0), (0x80, 0x7ff, 1, 0xc0), (0x800, 0xd7ff, 2, 0xe0), (0xe000, 0xffff, 2, 0xe0),
    (0x10000, 0x10ffff, 3, 0xf0)]

/-- The bytes that hold the digits of a row. -/
def ofDigits (lead : Nat) : Row → Row
  | [] => []
  | (a, b) :: row => (lead + a, lead + b) :: row.map fun (a, b) => (0x80 + a, 0x80 + b)

/-- The encodings of the code points from `first` to `last` as rows of byte ranges. -/
def rows (first last : Nat) : List Row :=
  forms.flatMap fun (lowest, highest, following, lead) =>
    let a := max first lowest
    let b := min last highest
    if a ≤ b then (digitRows following a b).map (ofDigits lead) else []

end PlayStation.Text.Utf8
