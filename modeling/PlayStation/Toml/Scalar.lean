/-!
# Numbers, truth values and dates

No setting is a number, a truth value or a date, so of these only the form is
checked, and that a date is a day of the calendar.  Digits may be grouped by single
underscores.  Whether a number is one that can be had, an integer of at most 128 bits
or a fraction that does not round to infinity in double precision, is a question of
its own (`Scalar.fits`), asked only where the value is looked at.
-/

namespace PlayStation.Toml

/-- A number, a truth value or a date.  The text of a number has no underscores, and
that of an integer no mark of its base. -/
inductive Scalar where
  | boolean
  | dateTime
  | integer (base : Nat) (text : List Char)
  | fraction (text : List Char)
  deriving DecidableEq, Repr

/-- Whether a character may occur in a number, a truth value or a date: all do that
neither separate values nor end a line. -/
def isScalarChar (c : Char) : Bool :=
  !(['=', ',', '[', ']', '{', '}', '#', ' ', '\t', '\n', '\r'].contains c)

/-! ## The form of numbers -/

def isHexDigit (c : Char) : Bool :=
  c.isDigit || ('a' ≤ c && c ≤ 'f') || ('A' ≤ c && c ≤ 'F')

/-- Whether a character is a digit of a base. -/
def isDigitOf (base : Nat) (c : Char) : Bool :=
  if base = 16 then isHexDigit c else '0' ≤ c && c.toNat < 48 + base

/-- Whether every underscore stands between two digits.  `before` tells whether a digit
comes before the text. -/
def isGrouped (isDigit : Char → Bool) (before : Bool) : List Char → Bool
  | [] => true
  | '_' :: s => before && (s.head?.any isDigit) && isGrouped isDigit false s
  | c :: s => isGrouped isDigit (isDigit c) s

/-- Takes decimal digits and underscores, of which at least one is a digit and, if
`plain` is set, the first one no needless zero. -/
def skipDigits? (plain : Bool) (s : List Char) : Option (List Char) :=
  let (ds, rest) := s.span fun c => c.isDigit || c = '_'
  let count := ds.countP Char.isDigit
  if count = 0 || (plain && 1 < count && ds.head? = some '0') then none else some rest

/-- Takes a sign. -/
def skipSign : List Char → List Char
  | '+' :: s | '-' :: s => s
  | s => s

/-- Takes the exponent of a fraction, if there is one. -/
def skipExponent? : List Char → Option (List Char)
  | 'e' :: s | 'E' :: s => skipDigits? false (skipSign s)
  | s => some s

/-- Whether a text without a sign has the form of a fraction. -/
def isFraction (s : List Char) : Bool :=
  (do
    match ← skipDigits? true s with
    | '.' :: s => skipExponent? (← skipDigits? false s)
    | s => skipExponent? s) = some []

/-- A text without its underscores. -/
def ungrouped (s : List Char) : List Char :=
  s.filter (· ≠ '_')

/-- A number in a base other than ten, after the mark of the base. -/
def marked? (base : Nat) (s : List Char) : Option Scalar :=
  if s.all (fun c => isDigitOf base c || c = '_') && isGrouped isHexDigit false s then
    some (.integer base (ungrouped s))
  else none

/-! ## Dates and times -/

/-- The value of a digit; letters of either case count from ten. -/
def digitValue (c : Char) : Nat :=
  if c.isDigit then c.toNat - 48 else c.toLower.toNat - 87

/-- The number that digits of a base write. -/
def numberOf (base : Nat) (digits : List Char) : Nat :=
  digits.foldl (fun n c => base * n + digitValue c) 0

/-- A number of `count` decimal digits, and what follows it. -/
def field? (count : Nat) (s : List Char) : Option (Nat × List Char) :=
  let ds := s.take count
  if ds.length = count && ds.all Char.isDigit then some (numberOf 10 ds, s.drop count) else none

/-- A field after a separator. -/
def fieldAfter? (separator : Char) (count : Nat) : List Char → Option (Nat × List Char)
  | c :: s => if c = separator then field? count s else none
  | [] => none

def isLeapYear (year : Nat) : Bool :=
  year % 4 = 0 && (year % 100 ≠ 0 || year % 400 = 0)

def daysIn (year month : Nat) : Nat :=
  if month = 2 then if isLeapYear year then 29 else 28
  else if month = 4 ∨ month = 6 ∨ month = 9 ∨ month = 11 then 30
  else 31

/-- Takes a day of the calendar and returns what follows. -/
def date? (s : List Char) : Option (List Char) := do
  let (year, s) ← field? 4 s
  let (month, s) ← fieldAfter? '-' 2 s
  let (day, s) ← fieldAfter? '-' 2 s
  if 1 ≤ month ∧ month ≤ 12 ∧ 1 ≤ day ∧ day ≤ daysIn year month then some s else none

/-- Takes the seconds of a time, which may be those of a leap second, and their
fraction. -/
def seconds? (s : List Char) : Option (List Char) := do
  let (second, s) ← fieldAfter? ':' 2 s
  if 60 < second then none
  else
    match s with
    | '.' :: s => if (s.head?.any Char.isDigit) then some (s.dropWhile Char.isDigit) else none
    | s => some s

/-- Takes a time of the day; the seconds may be missing. -/
def time? (s : List Char) : Option (List Char) := do
  let (hour, s) ← field? 2 s
  let (minute, s) ← fieldAfter? ':' 2 s
  if 23 < hour ∨ 59 < minute then none
  else if s.head? = some ':' then seconds? s
  else some s

/-- Whether a text is nothing or an offset from universal time. -/
def isOffset : List Char → Bool
  | [] | ['Z'] | ['z'] => true
  | sign :: s =>
    (sign = '+' || sign = '-') &&
      (do
        let (hour, s) ← field? 2 s
        let (minute, s) ← fieldAfter? ':' 2 s
        some (hour ≤ 23 && minute ≤ 59 && s.isEmpty)).getD false

/-- Whether a text is a date, a time or both. -/
def isDateTime (s : List Char) : Bool :=
  match date? s with
  | some [] => true
  | some (c :: s) => (c = 'T' || c = 't' || c = ' ') && (time? s).any isOffset
  | none => (time? s).any List.isEmpty

/-! ## Any scalar -/

namespace Scalar

/-- The number or date that begins with a digit; `s` is its text without the sign. -/
def ofDigits? (sign s : List Char) : Option Scalar :=
  let rest := s.dropWhile Char.isDigit
  if rest.head? = some '-' || rest.head? = some ':' || rest.contains ' ' then
    if isDateTime (sign ++ s) then some .dateTime else none
  else if rest.any fun c => c = '.' || c = 'e' || c = 'E' then
    if isFraction s && isGrouped Char.isDigit false s then
      some (.fraction (sign ++ ungrouped s))
    else none
  else if rest.isEmpty || rest.head? = some '_' then
    if (s = ['0'] || s.head? ≠ some '0') && isGrouped isHexDigit false s then
      some (.integer 10 (sign ++ ungrouped s))
    else none
  else none

/-- Reads a scalar from all of a text. -/
def ofText? (s : List Char) : Option Scalar :=
  match s with
  | ['t', 'r', 'u', 'e'] | ['f', 'a', 'l', 's', 'e'] => some .boolean
  | '0' :: 'x' :: s => marked? 16 s
  | '0' :: 'o' :: s => marked? 8 s
  | '0' :: 'b' :: s => marked? 2 s
  | s =>
    let unsigned := skipSign s
    let sign := s.take (s.length - unsigned.length)
    if unsigned = ['i', 'n', 'f'] || unsigned = ['n', 'a', 'n'] then some (.fraction s)
    else if unsigned.head?.any Char.isDigit then ofDigits? sign unsigned
    else none

/-- Whether a text is an integer of at most 128 bits, signed or unsigned. -/
def fitsInteger (base : Nat) (text : List Char) : Bool :=
  let digits := skipSign text
  let limit := if text.head? = some '-' then Nat.pow 2 127 + 1 else Nat.pow 2 128
  !digits.isEmpty && digits.all (isDigitOf base) && numberOf base digits < limit

/-- Whether `m * 10 ^ e` lies below the numbers that round to infinity in double
precision; `m` has `size` digits. -/
def roundsToFinite (m size : Nat) (e : Int) : Bool :=
  let limit := Nat.pow 2 1024 - Nat.pow 2 970
  m = 0 || size + e < 0 ||
    (size + e ≤ 309 &&
      if 0 ≤ e then m * Nat.pow 10 e.toNat < limit else m < limit * Nat.pow 10 (-e).toNat)

/-- The value of an exponent; without one it is zero. -/
def exponentOf (s : List Char) : Int :=
  if s.head? = some '-' then -(numberOf 10 (skipSign s) : Int) else numberOf 10 (skipSign s)

/-- Whether a fraction, or one of the special values, is not too large. -/
def fitsFraction (text : List Char) : Bool :=
  let s := skipSign text
  if s = ['i', 'n', 'f'] || s = ['n', 'a', 'n'] then true
  else
    let (mantissa, exponent) := s.span fun c => c ≠ 'e' ∧ c ≠ 'E'
    let (whole, places) := mantissa.span (· ≠ '.')
    let digits := (whole ++ places.tail).dropWhile (· = '0')
    roundsToFinite (numberOf 10 digits) digits.length
      (exponentOf exponent.tail - places.tail.length)

/-- Whether a scalar has a value. -/
def fits : Scalar → Bool
  | boolean | dateTime => true
  | integer base text => fitsInteger base text
  | fraction text => fitsFraction text

end Scalar

/-- Takes a number, a truth value or a date and returns what follows.  A single
blank may separate a date from a time. -/
def scalar? (s : List Char) : Option (Scalar × List Char) :=
  let (word, rest) := s.span isScalarChar
  match rest with
  | ' ' :: c :: _ =>
    let (second, afterSecond) := rest.tail.span isScalarChar
    if date? word = some [] && c.isDigit then
      if isDateTime (word ++ ' ' :: second) then some (.dateTime, afterSecond) else none
    else (Scalar.ofText? word).map (·, rest)
  | _ => (Scalar.ofText? word).map (·, rest)

end PlayStation.Toml
