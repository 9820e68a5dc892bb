/-!
# The bus seen from the processor

A bus answers reads and writes of one, two or four bytes at a physical
address.  An access may fail and may change the state of what is behind the
bus, a failing one included, so every access returns the state it leaves.
-/

namespace PlayStation

/-- How many bytes an access touches. -/
inductive Width where
  | byte
  | half
  | word
  deriving DecidableEq, Repr

/-- The number of bytes. -/
def Width.bytes : Width → Nat
  | .byte => 1
  | .half => 2
  | .word => 4

/-- The part of a value that an access of this width carries. -/
def Width.truncate : Width → UInt32 → UInt32
  | .byte, value => value &&& 0xFF
  | .half, value => value &&& 0xFFFF
  | .word, value => value

/-- The address reported by an access that found nothing behind it. -/
structure AccessError where
  address : UInt32
  deriving DecidableEq, Repr

/-- What the processor needs of a bus. -/
class Bus (β : Type) where
  read : β → Width → UInt32 → Except AccessError UInt32 × β
  write : β → Width → UInt32 → UInt32 → Except AccessError Unit × β

end PlayStation
