import PlayStation.Bits

/-!
# Instructions

The instruction set as a type, and its encoding (`Instruction.decode`).  Words
outside the encoding decode to `unknown`, so every word has an instruction.
Immediate operands are stored already extended to 32 bits.
-/

namespace PlayStation

open Bits

/-- A register number.  Encoded instructions only hold numbers below 32. -/
abbrev Register := UInt8

/-- Shift directions. -/
inductive Shift where
  | left
  | rightLogical
  | rightArithmetic
  deriving DecidableEq, Repr

/-- Two-operand operations that cannot fail. -/
inductive Operation where
  | add
  | subtract
  | and
  | or
  | xor
  | nor
  | lessSigned
  | lessUnsigned
  deriving DecidableEq, Repr

/-- Two-operand operations on the result registers. -/
inductive LongOperation where
  | multiply
  | multiplyUnsigned
  | divide
  | divideUnsigned
  deriving DecidableEq, Repr

/-- Conditions of branches. -/
inductive Condition where
  | equal (a b : Register)
  | notEqual (a b : Register)
  | atMostZero (a : Register)
  | aboveZero (a : Register)
  | belowZero (a : Register)
  | atLeastZero (a : Register)
  deriving DecidableEq, Repr

/-- What a load puts into its register. -/
inductive LoadKind where
  | byte
  | byteUnsigned
  | half
  | halfUnsigned
  | word
  | wordLeft
  | wordRight
  deriving DecidableEq, Repr

/-- What a store writes. -/
inductive StoreKind where
  | byte
  | half
  | word
  | wordLeft
  | wordRight
  deriving DecidableEq, Repr

/-- Instructions.  `target` registers receive the result. -/
inductive Instruction where
  | shift (kind : Shift) (target source : Register) (amount : UInt32)
  | shiftBy (kind : Shift) (target source amount : Register)
  | operate (op : Operation) (target a b : Register)
  | operateImmediate (op : Operation) (target a : Register) (value : UInt32)
  | addChecked (target a b : Register)
  | subtractChecked (target a b : Register)
  | addCheckedImmediate (target a : Register) (value : UInt32)
  | loadUpper (target : Register) (value : UInt32)
  | long (op : LongOperation) (a b : Register)
  | moveFromHi (target : Register)
  | moveFromLo (target : Register)
  | moveToHi (source : Register)
  | moveToLo (source : Register)
  /-- `target` holds the low 28 bits of the address. -/
  | jump (target : UInt32)
  | jumpAndLink (target : UInt32)
  | jumpRegister (source : Register)
  | jumpAndLinkRegister (link source : Register)
  /-- `offset` counts bytes from the delay slot. -/
  | branch (condition : Condition) (offset : UInt32)
  /-- The link register is written whether the branch is taken or not. -/
  | branchAndLink (condition : Condition) (offset : UInt32)
  | syscall
  | breakpoint
  | load (kind : LoadKind) (target base : Register) (offset : UInt32)
  | store (kind : StoreKind) (source base : Register) (offset : UInt32)
  | moveFromControl (target : Register) (index : Nat)
  | moveToControl (source : Register) (index : Nat)
  | returnFromException
  /-- An instruction, load or store of a coprocessor other than 0, or a load or
  store of coprocessor 0. -/
  | coprocessor (unit : UInt32)
  | unknown
  deriving DecidableEq, Repr

namespace Instruction

/-- The register number in the five bits from `lo` on. -/
def registerAt (word lo : UInt32) : Register :=
  (slice word lo 5).toUInt8

/-- The low half of the word, extended by zeros. -/
def immediate (word : UInt32) : UInt32 :=
  word &&& 0xFFFF

/-- The low half of the word, extended by its sign. -/
def signedImmediate (word : UInt32) : UInt32 :=
  (signExtend word 16).toUInt32

/-- Instructions whose operands are all registers, told apart by the low six
bits. -/
def decodeSpecial (word : UInt32) : Instruction :=
  let rs := registerAt word 21
  let rt := registerAt word 16
  let rd := registerAt word 11
  let amount := slice word 6 5
  match (slice word 0 6).toNat with
  | 0x00 => shift .left rd rt amount
  | 0x02 => shift .rightLogical rd rt amount
  | 0x03 => shift .rightArithmetic rd rt amount
  | 0x04 => shiftBy .left rd rt rs
  | 0x06 => shiftBy .rightLogical rd rt rs
  | 0x07 => shiftBy .rightArithmetic rd rt rs
  | 0x08 => jumpRegister rs
  | 0x09 => jumpAndLinkRegister rd rs
  | 0x0C => syscall
  | 0x0D => breakpoint
  | 0x10 => moveFromHi rd
  | 0x11 => moveToHi rs
  | 0x12 => moveFromLo rd
  | 0x13 => moveToLo rs
  | 0x18 => long .multiply rs rt
  | 0x19 => long .multiplyUnsigned rs rt
  | 0x1A => long .divide rs rt
  | 0x1B => long .divideUnsigned rs rt
  | 0x20 => addChecked rd rs rt
  | 0x21 => operate .add rd rs rt
  | 0x22 => subtractChecked rd rs rt
  | 0x23 => operate .subtract rd rs rt
  | 0x24 => operate .and rd rs rt
  | 0x25 => operate .or rd rs rt
  | 0x26 => operate .xor rd rs rt
  | 0x27 => operate .nor rd rs rt
  | 0x2A => operate .lessSigned rd rs rt
  | 0x2B => operate .lessUnsigned rd rs rt
  | _ => unknown

/-- Branches that compare a register with zero.  Bit 16 chooses the condition;
the link bit counts only when bits 17 to 20 are 1000. -/
def decodeZeroBranch (word : UInt32) : Instruction :=
  let rs := registerAt word 21
  let rt := slice word 16 5
  let condition := if rt &&& 1 = 0 then Condition.belowZero rs else .atLeastZero rs
  let offset := signedImmediate word <<< 2
  if rt &&& 0x1E = 0x10 then branchAndLink condition offset else branch condition offset

/-- Instructions of the control registers. -/
def decodeControl (word : UInt32) : Instruction :=
  let rt := registerAt word 16
  let rd := (slice word 11 5).toNat
  match (slice word 21 5).toNat with
  | 0x00 | 0x02 => moveFromControl rt rd
  | 0x04 | 0x06 => moveToControl rt rd
  | sub =>
    if 0x10 ≤ sub ∧ slice word 0 6 = 0x10 then returnFromException else unknown

/-- The instruction that a word encodes. -/
def decode (word : UInt32) : Instruction :=
  let rs := registerAt word 21
  let rt := registerAt word 16
  let simm := signedImmediate word
  let imm := immediate word
  let target := (word &&& 0x3FFFFFF) <<< 2
  match (word >>> 26).toNat with
  | 0x00 => decodeSpecial word
  | 0x01 => decodeZeroBranch word
  | 0x02 => jump target
  | 0x03 => jumpAndLink target
  | 0x04 => branch (.equal rs rt) (simm <<< 2)
  | 0x05 => branch (.notEqual rs rt) (simm <<< 2)
  | 0x06 => branch (.atMostZero rs) (simm <<< 2)
  | 0x07 => branch (.aboveZero rs) (simm <<< 2)
  | 0x08 => addCheckedImmediate rt rs simm
  | 0x09 => operateImmediate .add rt rs simm
  | 0x0A => operateImmediate .lessSigned rt rs simm
  | 0x0B => operateImmediate .lessUnsigned rt rs simm
  | 0x0C => operateImmediate .and rt rs imm
  | 0x0D => operateImmediate .or rt rs imm
  | 0x0E => operateImmediate .xor rt rs imm
  | 0x0F => loadUpper rt (imm <<< 16)
  | 0x10 => decodeControl word
  | 0x11 => coprocessor 1
  | 0x12 => coprocessor 2
  | 0x13 => coprocessor 3
  | 0x20 => load .byte rt rs simm
  | 0x21 => load .half rt rs simm
  | 0x22 => load .wordLeft rt rs simm
  | 0x23 => load .word rt rs simm
  | 0x24 => load .byteUnsigned rt rs simm
  | 0x25 => load .halfUnsigned rt rs simm
  | 0x26 => load .wordRight rt rs simm
  | 0x28 => store .byte rt rs simm
  | 0x29 => store .half rt rs simm
  | 0x2A => store .wordLeft rt rs simm
  | 0x2B => store .word rt rs simm
  | 0x2E => store .wordRight rt rs simm
  | 0x30 | 0x38 => coprocessor 0
  | 0x31 | 0x39 => coprocessor 1
  | 0x32 | 0x3A => coprocessor 2
  | 0x33 | 0x3B => coprocessor 3
  | _ => unknown

end Instruction

/-- The result of a shift; `amount` is below 32. -/
def Shift.apply : Shift → UInt32 → UInt32 → UInt32
  | .left, value, amount => value <<< amount
  | .rightLogical, value, amount => value >>> amount
  | .rightArithmetic, value, amount => (value.toInt32 >>> amount.toInt32).toUInt32

/-- The result of an operation. -/
def Operation.apply : Operation → UInt32 → UInt32 → UInt32
  | .add, a, b => a + b
  | .subtract, a, b => a - b
  | .and, a, b => a &&& b
  | .or, a, b => a ||| b
  | .xor, a, b => a ^^^ b
  | .nor, a, b => ~~~(a ||| b)
  | .lessSigned, a, b => if a.toInt32 < b.toInt32 then 1 else 0
  | .lessUnsigned, a, b => if a < b then 1 else 0

end PlayStation
