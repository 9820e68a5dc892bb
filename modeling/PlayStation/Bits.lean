/-!
# Bit fields of 32-bit words

Every register and every command of the machine is a 32-bit word cut into
fields.  A field is named either by its lowest bit and its width (`slice`) or
by a mask (`field`, `setField`, `flag`, `setFlag`); a mask's value is counted
from the mask's lowest set bit.
-/

namespace PlayStation.Bits

/-- The `width` bits of `word` from bit `lo` upwards, moved down to bit 0. -/
def slice (word lo width : UInt32) : UInt32 :=
  (word >>> lo) &&& ((1 <<< width) - 1)

/-- The low `width` bits of `word` read as a two's complement number. -/
def signExtend (word width : UInt32) : Int32 :=
  let shift := 32 - width
  (word <<< shift).toInt32 >>> shift.toInt32

/-- The position of the lowest set bit of a mask, 32 for the empty mask. -/
def lowestBit (mask : UInt32) : Nat :=
  (List.range 32).findIdx fun i => mask.toNat.testBit i

/-- The value of the field under `mask`. -/
def field (word mask : UInt32) : UInt32 :=
  (word &&& mask) >>> UInt32.ofNat (lowestBit mask)

/-- Replaces the field under `mask`; what does not fit into it is dropped. -/
def setField (word mask value : UInt32) : UInt32 :=
  (word &&& ~~~mask) ||| ((value <<< UInt32.ofNat (lowestBit mask)) &&& mask)

/-- Whether some bit under `mask` is set. -/
def flag (word mask : UInt32) : Bool :=
  word &&& mask != 0

/-- Sets or clears all bits under `mask`. -/
def setFlag (word mask : UInt32) (on : Bool) : UInt32 :=
  if on then word ||| mask else word &&& ~~~mask

/-- A named field of a register. -/
structure Field where
  name : String
  mask : UInt32

end PlayStation.Bits
