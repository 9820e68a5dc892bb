import PlayStation.Bus

/-!
# Byte memories

A memory is a row of bytes.  Accesses of two and four bytes are little-endian
and need no alignment; one that would run past the end fails as a whole and
reports its offset.
-/

namespace PlayStation

/-- A row of bytes, addressed from 0. -/
structure Memory where
  bytes : Array UInt8

/-- An image that does not fit where it is to be loaded. -/
structure ImageTooLarge where
  address : UInt32
  size : Nat
  deriving DecidableEq, Repr

namespace Memory

/-- A memory of `size` zero bytes. -/
def blank (size : Nat) : Memory :=
  ⟨Array.replicate size 0⟩

def size (m : Memory) : Nat :=
  m.bytes.size

/-- The byte at an offset, zero past the end. -/
def byte (m : Memory) (offset : Nat) : UInt8 :=
  m.bytes.getD offset 0

/-- Whether `count` bytes from `offset` on lie inside the memory. -/
def holds (m : Memory) (offset count : Nat) : Bool :=
  offset + count ≤ m.size

/-- The number whose `count` little-endian bytes start at `offset`. -/
def load (m : Memory) (offset : Nat) : (count : Nat) → UInt32
  | 0 => 0
  | count + 1 => (m.byte offset).toUInt32 ||| (m.load (offset + 1) count <<< 8)

/-- Stores the low `count` little-endian bytes of `value` from `offset` on. -/
def store (m : Memory) (offset : Nat) (value : UInt32) : (count : Nat) → Memory
  | 0 => m
  | count + 1 =>
    Memory.store ⟨m.bytes.setIfInBounds offset value.toUInt8⟩ (offset + 1) (value >>> 8) count

/-- Reads a little-endian value. -/
def read (m : Memory) (width : Width) (offset : UInt32) : Except AccessError UInt32 :=
  if m.holds offset.toNat width.bytes then
    .ok (m.load offset.toNat width.bytes)
  else
    .error ⟨offset⟩

/-- Writes a little-endian value; a failing write leaves the memory as it is. -/
def write (m : Memory) (width : Width) (offset value : UInt32) :
    Except AccessError Unit × Memory :=
  if m.holds offset.toNat width.bytes then
    (.ok (), m.store offset.toNat value width.bytes)
  else
    (.error ⟨offset⟩, m)

/-- Copies an image into the memory from `address` on, if all of it fits. -/
def loadImage (m : Memory) (address : UInt32) (image : Array UInt8) :
    Except ImageTooLarge Memory :=
  if m.holds address.toNat image.size then
    .ok ⟨image.size.fold
      (fun i h bytes => bytes.setIfInBounds (address.toNat + i) image[i]) m.bytes⟩
  else
    .error ⟨address, image.size⟩

/-- Zeroes every byte and keeps the size. -/
def clear (m : Memory) : Memory :=
  blank m.size

instance : Bus Memory where
  read m width address := (m.read width address, m)
  write m width address value := m.write width address value

@[simp] theorem size_blank (n : Nat) : (blank n).size = n := by
  simp [blank, size]

@[simp] theorem size_store (m : Memory) (offset : Nat) (value : UInt32) (count : Nat) :
    (m.store offset value count).size = m.size := by
  induction count generalizing m offset value with
  | zero => rfl
  | succ count ih => rw [store, ih]; simp [size]

/-- A byte outside the written ones stays as it is. -/
theorem byte_store_of_outside (m : Memory) {offset count i : Nat} (value : UInt32)
    (h : i < offset ∨ offset + count ≤ i) : (m.store offset value count).byte i = m.byte i := by
  induction count generalizing m offset value with
  | zero => rfl
  | succ count ih =>
    have hne : offset ≠ i := by omega
    rw [store, ih _ _ (by omega)]
    simp [byte, hne]

/-- The first written byte is the lowest one of the value. -/
theorem byte_store_self (m : Memory) {offset count : Nat} (value : UInt32)
    (h : offset < m.size) : (m.store offset value (count + 1)).byte offset = value.toUInt8 := by
  rw [store, byte_store_of_outside _ _ (by omega)]
  simp only [size] at h
  simp [byte, h]

end Memory
end PlayStation
