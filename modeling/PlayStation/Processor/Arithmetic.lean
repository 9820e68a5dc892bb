/-!
# Integer arithmetic of the processor

Sums and differences that refuse to overflow, products of 64 bits and division
that gives an answer for every divisor, zero included.
-/

namespace PlayStation

/-- The two result registers of multiplication and division. -/
structure HiLo where
  hi : UInt32
  lo : UInt32
  deriving DecidableEq, Repr

namespace Arithmetic

/-- The word of a signed number, if it has one. -/
def ofSigned? (value : Int) : Option UInt32 :=
  if Int32.minValue.toInt ≤ value ∧ value ≤ Int32.maxValue.toInt then
    some (Int32.ofInt value).toUInt32
  else none

/-- The signed sum, if it fits into a word. -/
def add? (a b : UInt32) : Option UInt32 :=
  ofSigned? (a.toInt32.toInt + b.toInt32.toInt)

/-- The signed difference, if it fits into a word. -/
def sub? (a b : UInt32) : Option UInt32 :=
  ofSigned? (a.toInt32.toInt - b.toInt32.toInt)

/-- Cuts a product into its two halves. -/
def halves (product : UInt64) : HiLo :=
  ⟨(product >>> 32).toUInt32, product.toUInt32⟩

/-- The signed product. -/
def multiply (a b : UInt32) : HiLo :=
  halves (a.toInt32.toInt64 * b.toInt32.toInt64).toUInt64

/-- The unsigned product. -/
def multiplyUnsigned (a b : UInt32) : HiLo :=
  halves (a.toUInt64 * b.toUInt64)

/-- The signed quotient, rounded toward zero, and the remainder.  A zero
divisor gives the dividend as remainder and 1 or -1 as quotient. -/
def divide (n d : UInt32) : HiLo :=
  if d = 0 then
    ⟨n, if n.toInt32 ≥ 0 then 0xFFFFFFFF else 1⟩
  else
    ⟨(n.toInt32 % d.toInt32).toUInt32, (n.toInt32 / d.toInt32).toUInt32⟩

/-- The unsigned quotient and remainder.  A zero divisor gives the dividend as
remainder and all ones as quotient. -/
def divideUnsigned (n d : UInt32) : HiLo :=
  if d = 0 then ⟨n, 0xFFFFFFFF⟩ else ⟨n % d, n / d⟩

end Arithmetic
end PlayStation
