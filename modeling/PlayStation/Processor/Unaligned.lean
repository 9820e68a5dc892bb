/-!
# Merging unaligned words

The left and right halves of an unaligned word lie in two neighbouring aligned
words.  Each function merges one aligned word with a register; the low two
address bits say how many bytes of the unaligned word lie in it.
-/

namespace PlayStation.Unaligned

/-- Keeps the bits of `word` under `mask` and adds the bits of `moved`. -/
def merge (mask word moved : UInt32) : UInt32 :=
  (word &&& mask) ||| moved

/-- The register after the aligned word's low bytes replaced its high bytes. -/
def loadLeft (address register word : UInt32) : UInt32 :=
  match (address &&& 3).toNat with
  | 0 => merge 0x00FFFFFF register (word <<< 24)
  | 1 => merge 0x0000FFFF register (word <<< 16)
  | 2 => merge 0x000000FF register (word <<< 8)
  | _ => word

/-- The register after the aligned word's high bytes replaced its low bytes. -/
def loadRight (address register word : UInt32) : UInt32 :=
  match (address &&& 3).toNat with
  | 0 => word
  | 1 => merge 0xFF000000 register (word >>> 8)
  | 2 => merge 0xFFFF0000 register (word >>> 16)
  | _ => merge 0xFFFFFF00 register (word >>> 24)

/-- The aligned word after the register's high bytes replaced its low bytes. -/
def storeLeft (address word register : UInt32) : UInt32 :=
  match (address &&& 3).toNat with
  | 0 => merge 0xFFFFFF00 word (register >>> 24)
  | 1 => merge 0xFFFF0000 word (register >>> 16)
  | 2 => merge 0xFF000000 word (register >>> 8)
  | _ => register

/-- The aligned word after the register's low bytes replaced its high bytes. -/
def storeRight (address word register : UInt32) : UInt32 :=
  match (address &&& 3).toNat with
  | 0 => register
  | 1 => merge 0x000000FF word (register <<< 8)
  | 2 => merge 0x0000FFFF word (register <<< 16)
  | _ => merge 0x00FFFFFF word (register <<< 24)

end PlayStation.Unaligned
