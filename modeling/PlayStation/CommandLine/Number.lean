import PlayStation.CommandLine.Arguments

/-!
# Numbers in arguments

A number is an optional plus sign and at least one digit.  It is read from left to
right, and the first fault counts.  An address may be hexadecimal after `0x` or
`0X`, and underscores in it do not count.
-/

namespace PlayStation.CommandLine

/-- Why a text is no number. -/
inductive NumberFault where
  | empty
  | invalidDigit
  | tooLarge
  deriving DecidableEq, Repr

def NumberFault.message : NumberFault → String
  | empty => "cannot parse integer from empty string"
  | invalidDigit => "invalid digit found in string"
  | tooLarge => "number too large to fit in target type"

/-- The value of a digit in a base of at most sixteen; letters may have either
case. -/
def digit? (base : Nat) (c : Char) : Option Nat :=
  let value :=
    if '0' ≤ c ∧ c ≤ '9' then c.toNat - 48
    else if 'a' ≤ c ∧ c ≤ 'f' then c.toNat - 87
    else if 'A' ≤ c ∧ c ≤ 'F' then c.toNat - 55
    else base
  if value < base then some value else none

/-- Continues a number below `bound` with further digits. -/
def continueNumber (base bound : Nat) : (value : Nat) → List Char → Except NumberFault Nat
  | value, [] => .ok value
  | value, c :: rest =>
    match digit? base c with
    | none => .error .invalidDigit
    | some d =>
      if base * value + d < bound then continueNumber base bound (base * value + d) rest
      else .error .tooLarge

/-- Reads a number below `bound`. -/
def readNumber (base bound : Nat) : List Char → Except NumberFault Nat
  | [] => .error .empty
  | '+' :: c :: rest => continueNumber base bound 0 (c :: rest)
  | digits => continueNumber base bound 0 digits

/-- Why a text is no address. -/
structure InvalidAddress where
  /-- The text without underscores. -/
  text : String
  fault : NumberFault
  deriving DecidableEq, Repr

def InvalidAddress.message (e : InvalidAddress) : String :=
  s!"invalid address '{e.text}': {e.fault.message}"

/-- Reads a decimal or hexadecimal address. -/
def readAddress (text : String) : Except InvalidAddress UInt32 :=
  let digits := text.toList.filter (· ≠ '_')
  let number := match digits with
    | '0' :: 'x' :: hex | '0' :: 'X' :: hex => readNumber 16 UInt32.size hex
    | _ => readNumber 10 UInt32.size digits
  match number with
  | .ok n => .ok (UInt32.ofNat n)
  | .error fault => .error ⟨String.ofList digits, fault⟩

/-- Reads a count of ticks, a number of 64 bits. -/
def readTicks (text : String) : Except NumberFault Nat :=
  readNumber 10 UInt64.size text.toList

/-! ## Arguments that are numbers -/

namespace Argument

variable {σ : Type}

/-- An option whose value is an address. -/
def address (word : String) (letter : Option Char) (valueName description : String)
    (store : UInt32 → σ → σ) : Argument σ where
  word := some word
  letter
  valueName := some valueName
  description
  store text values :=
    match readAddress text with
    | .ok a => .ok (store a values)
    | .error e => .error (.invalid e.message)

/-- The option whose value is a count of ticks. -/
def ticks (description : String) (store : Nat → σ → σ) : Argument σ where
  word := some "ticks"
  letter := some 'n'
  valueName := some "TICKS"
  description
  store text values :=
    match readTicks text with
    | .ok ticks => .ok (store ticks values)
    | .error e => .error (.invalid e.message)

end Argument
end PlayStation.CommandLine
