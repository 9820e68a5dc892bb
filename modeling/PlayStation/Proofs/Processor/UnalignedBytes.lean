import PlayStation.Proofs.Processor.DataPlaces

/-!
# The halves of an unaligned word, byte by byte

The four merging functions move a word up or down by some bytes and put it in the place of
the bytes that it then covers (`Unaligned.digit_merge_shiftLeft`,
`Unaligned.digit_merge_shiftRight`).  Seen from the unaligned word this is simple: each half
carries some of its four bytes (`Half.Covers`), a load takes those from memory and the
others from the register (`Half.digit_merged`), and a store puts those into memory and
leaves everything else alone (`Half.takes_store`).  Between them the two halves carry all
four (`Half.covers_or`), so their order does not matter.
-/

namespace PlayStation

/-! ## Digits -/

/-- The bits of a digit. -/
theorem testBit_digit (value : UInt32) (place i : Nat) :
    (digit value place).toNat.testBit i =
      (decide (i < 8) && value.toNat.testBit (8 * place + i)) := by
  rw [digit, UInt8.toNat_ofNat', Nat.testBit_mod_two_pow, Nat.testBit_shiftRight]

/-- Bytes with the same bits are the same. -/
theorem digit_ext {a b : UInt8} (h : ∀ i < 8, a.toNat.testBit i = b.toNat.testBit i) : a = b := by
  apply UInt8.toNat_inj.mp
  apply Nat.eq_of_testBit_eq
  intro i
  by_cases hi : i < 8
  · exact h i hi
  · have hle : 2 ^ 8 ≤ 2 ^ i := Nat.pow_le_pow_right (by decide) (by omega)
    rw [Nat.testBit_lt_two_pow (Nat.lt_of_lt_of_le a.toNat_lt hle),
      Nat.testBit_lt_two_pow (Nat.lt_of_lt_of_le b.toNat_lt hle)]

/-- A byte of a union is the union of the bytes. -/
theorem digit_or (a b : UInt32) (place : Nat) :
    digit (a ||| b) place = digit a place ||| digit b place := by
  refine digit_ext fun i hi => ?_
  rw [UInt8.toNat_or, Nat.testBit_or, testBit_digit, testBit_digit, testBit_digit, UInt32.toNat_or,
    Nat.testBit_or, Bool.and_or_distrib_left]

/-- A byte under a mask is the byte under the byte of the mask. -/
theorem digit_and (a b : UInt32) (place : Nat) :
    digit (a &&& b) place = digit a place &&& digit b place := by
  refine digit_ext fun i hi => ?_
  rw [UInt8.toNat_and, Nat.testBit_and, testBit_digit, testBit_digit, testBit_digit,
    UInt32.toNat_and, Nat.testBit_and, decide_eq_true hi, Bool.true_and, Bool.true_and,
    Bool.true_and]

/-- Shifting right by whole bytes moves bytes down. -/
theorem digit_shiftRight (value : UInt32) {amount : UInt32} {n : Nat} (hn : amount.toNat = 8 * n)
    (hless : n < 4) (place : Nat) : digit (value >>> amount) place = digit value (place + n) := by
  have hamount : amount.toNat % 32 = 8 * n := by omega
  rw [digit, digit, UInt32.toNat_shiftRight, hamount, ← Nat.shiftRight_add]
  congr 2
  omega

/-- Shifting left by whole bytes moves bytes up and lets zeros in below. -/
theorem digit_shiftLeft (value : UInt32) {amount : UInt32} {n : Nat} (hn : amount.toNat = 8 * n)
    (hless : n < 4) {place : Nat} (hplace : place < 4) :
    digit (value <<< amount) place = if n ≤ place then digit value (place - n) else 0 := by
  have hamount : amount.toNat % 32 = 8 * n := by omega
  have hrange : 8 * place + 8 ≤ 32 := by omega
  refine digit_ext fun i hi => ?_
  rw [testBit_digit, UInt32.toNat_shiftLeft, hamount, Nat.testBit_mod_two_pow,
    Nat.testBit_shiftLeft, decide_eq_true hi, decide_eq_true (by omega : 8 * place + i < 32)]
  split
  · have hplace' : 8 * place + i - 8 * n = 8 * (place - n) + i := by omega
    rw [decide_eq_true (by omega : 8 * n ≤ 8 * place + i), hplace', testBit_digit,
      decide_eq_true hi]
    rfl
  · rw [decide_eq_false (by omega : ¬ 8 * n ≤ 8 * place + i)]
    simp

/-- A number has four digits. -/
theorem digit_of_four_le (value : UInt32) {place : Nat} (h : 4 ≤ place) :
    digit value place = 0 := by
  have hrange : 2 ^ 32 ≤ 2 ^ (8 * place) := Nat.pow_le_pow_right (by decide) (by omega)
  rw [digit, Nat.shiftRight_eq_div_pow, Nat.div_eq_of_lt (Nat.lt_of_lt_of_le value.toNat_lt hrange)]
  rfl

theorem and_full (byte : UInt8) : byte &&& 255 = byte := by
  refine digit_ext fun i hi => ?_
  have hfull : ∀ i < 8, Nat.testBit 255 i = true := by decide
  rw [UInt8.toNat_and, Nat.testBit_and]
  exact (congrArg _ (hfull i hi)).trans (Bool.and_true _)

namespace Unaligned

/-! ## The digits of merged words -/

section Merge

variable {mask amount : UInt32} {n place : Nat}

/-- A merge keeps the digits under its mask. -/
theorem digit_merge {keep : Nat → Bool}
    (hmask : ∀ k < 4, digit mask k = if keep k then 255 else 0) (hplace : place < 4)
    (word moved : UInt32) :
    digit (merge mask word moved) place =
      (if keep place then digit word place else 0) ||| digit moved place := by
  rw [merge, digit_or, digit_and, hmask place hplace]
  cases keep place with
  | true => rw [if_pos rfl, if_pos rfl, and_full]
  | false => rw [if_neg Bool.false_ne_true, if_neg Bool.false_ne_true, UInt8.and_zero]

/-- A word that is moved down by `n` bytes takes the place of the lower ones. -/
theorem digit_merge_shiftRight (hamount : amount.toNat = 8 * n) (hn : n < 4)
    (hmask : ∀ k < 4, digit mask k = if decide (4 ≤ k + n) then 255 else 0) (hplace : place < 4)
    (word moved : UInt32) :
    digit (merge mask word (moved >>> amount)) place =
      if place + n < 4 then digit moved (place + n) else digit word place := by
  rw [digit_merge hmask hplace, digit_shiftRight moved hamount hn]
  by_cases hmoved : place + n < 4
  · have hlow : ¬ 4 ≤ place + n := by omega
    rw [if_pos hmoved, decide_eq_false hlow, if_neg Bool.false_ne_true, UInt8.zero_or]
  · have hhigh : 4 ≤ place + n := by omega
    rw [if_neg hmoved, decide_eq_true hhigh, if_pos rfl, digit_of_four_le _ hhigh, UInt8.or_zero]

/-- A word that is moved up by `n` bytes takes the place of the higher ones. -/
theorem digit_merge_shiftLeft (hamount : amount.toNat = 8 * n) (hn : n < 4)
    (hmask : ∀ k < 4, digit mask k = if decide (k < n) then 255 else 0) (hplace : place < 4)
    (word moved : UInt32) :
    digit (merge mask word (moved <<< amount)) place =
      if n ≤ place then digit moved (place - n) else digit word place := by
  rw [digit_merge hmask hplace, digit_shiftLeft moved hamount hn hplace]
  by_cases hmoved : n ≤ place
  · rw [if_pos hmoved, if_pos hmoved, decide_eq_false (Nat.not_lt.mpr hmoved),
      if_neg Bool.false_ne_true, UInt8.zero_or]
  · rw [if_neg hmoved, if_neg hmoved, decide_eq_true (Nat.not_le.mp hmoved), if_pos rfl,
      UInt8.or_zero]

end Merge

/-! ## Loads and stores of half a word -/

variable (address register word : UInt32) {place : Nat}

/-- The low two bits of an address tell how far it is from the word below. -/
theorem toNat_alignment : (address &&& 3).toNat = address.toNat % 4 :=
  Bits.toNat_and_low address 3 (n := 2) rfl

/-- A right load fills the low bytes of the register with the bytes from the address on. -/
theorem digit_loadRight (hplace : place < 4) :
    digit (loadRight address register word) place =
      if place + address.toNat % 4 < 4 then digit word (place + address.toNat % 4)
      else digit register place := by
  have hless : address.toNat % 4 < 4 := Nat.mod_lt _ (by decide)
  unfold loadRight
  rw [toNat_alignment]
  generalize address.toNat % 4 = r at hless ⊢
  match r, hless with
  | 0, _ => exact (if_pos hplace).symm
  | 1, _ => exact digit_merge_shiftRight rfl (by decide) (by decide) hplace register word
  | 2, _ => exact digit_merge_shiftRight rfl (by decide) (by decide) hplace register word
  | 3, _ => exact digit_merge_shiftRight rfl (by decide) (by decide) hplace register word

/-- A left load fills the high bytes of the register with the bytes up to the address. -/
theorem digit_loadLeft (hplace : place < 4) :
    digit (loadLeft address register word) place =
      if 3 - address.toNat % 4 ≤ place then digit word (place - (3 - address.toNat % 4))
      else digit register place := by
  have hless : address.toNat % 4 < 4 := Nat.mod_lt _ (by decide)
  unfold loadLeft
  rw [toNat_alignment]
  generalize address.toNat % 4 = r at hless ⊢
  match r, hless with
  | 0, _ => exact digit_merge_shiftLeft rfl (by decide) (by decide) hplace register word
  | 1, _ => exact digit_merge_shiftLeft rfl (by decide) (by decide) hplace register word
  | 2, _ => exact digit_merge_shiftLeft rfl (by decide) (by decide) hplace register word
  | 3, _ => exact (if_pos (Nat.zero_le _)).symm

/-- A right store puts the low bytes of the register at the address and above. -/
theorem digit_storeRight (hplace : place < 4) :
    digit (storeRight address word register) place =
      if address.toNat % 4 ≤ place then digit register (place - address.toNat % 4)
      else digit word place := by
  have hless : address.toNat % 4 < 4 := Nat.mod_lt _ (by decide)
  unfold storeRight
  rw [toNat_alignment]
  generalize address.toNat % 4 = r at hless ⊢
  match r, hless with
  | 0, _ => exact (if_pos (Nat.zero_le _)).symm
  | 1, _ => exact digit_merge_shiftLeft rfl (by decide) (by decide) hplace word register
  | 2, _ => exact digit_merge_shiftLeft rfl (by decide) (by decide) hplace word register
  | 3, _ => exact digit_merge_shiftLeft rfl (by decide) (by decide) hplace word register

/-- A left store puts the high bytes of the register at the address and below. -/
theorem digit_storeLeft (hplace : place < 4) :
    digit (storeLeft address word register) place =
      if place + (3 - address.toNat % 4) < 4 then digit register (place + (3 - address.toNat % 4))
      else digit word place := by
  have hless : address.toNat % 4 < 4 := Nat.mod_lt _ (by decide)
  unfold storeLeft
  rw [toNat_alignment]
  generalize address.toNat % 4 = r at hless ⊢
  match r, hless with
  | 0, _ => exact digit_merge_shiftRight rfl (by decide) (by decide) hplace word register
  | 1, _ => exact digit_merge_shiftRight rfl (by decide) (by decide) hplace word register
  | 2, _ => exact digit_merge_shiftRight rfl (by decide) (by decide) hplace word register
  | 3, _ => exact (if_pos hplace).symm

end Unaligned

/-! ## Words in memory -/

/-- A number is the one that its four digits make up. -/
theorem eq_ofNat_littleEndian {value : UInt32} {bytes : Nat → UInt8}
    (h : ∀ k < 4, digit value k = bytes k) : value = UInt32.ofNat (littleEndian bytes 0 4) := by
  have hdigits := littleEndian_digit value 0 4
  rw [littleEndian_congr fun i _ hi => h i (by omega)] at hdigits
  have hvalue : value.toNat >>> (8 * 0) % 1 <<< (8 * 4) = value.toNat :=
    Nat.mod_eq_of_lt value.toNat_lt
  rw [hdigits, hvalue, UInt32.ofNat_toNat]

/-- A byte of a number in memory is the byte at its place. -/
theorem littleEndian_shiftRight (bytes : Nat → UInt8) (offset : Nat) {count place : Nat}
    (hplace : place < count) :
    littleEndian bytes offset count >>> (8 * place) % 256 = (bytes (offset + place)).toNat := by
  induction place generalizing offset count with
  | zero =>
      obtain ⟨count, rfl⟩ : ∃ n, count = n + 1 := ⟨count - 1, by omega⟩
      have hlt := (bytes offset).toNat_lt
      rw [littleEndian, Nat.mul_zero, Nat.shiftRight_zero]
      change _ = (bytes offset).toNat
      omega
  | succ place ih =>
      obtain ⟨count, rfl⟩ : ∃ n, count = n + 1 := ⟨count - 1, by omega⟩
      have hlt := (bytes offset).toNat_lt
      have hrest : littleEndian bytes offset (count + 1) >>> 8 =
          littleEndian bytes (offset + 1) count := by
        rw [littleEndian, Nat.shiftRight_eq_div_pow]
        omega
      rw [Nat.mul_succ, Nat.add_comm (8 * place), Nat.shiftRight_add, hrest, ih _ (by omega),
        Nat.add_assoc, Nat.add_comm 1]

namespace Memory

/-- The digits of a word that is read are the bytes. -/
theorem digit_load (m : Memory) (offset : Nat) {place : Nat} (hplace : place < 4) :
    digit (m.load offset 4) place = m.byte (offset + place) := by
  have hbyte := littleEndian_shiftRight m.byte offset hplace
  apply UInt8.toNat_inj.mp
  rw [digit, UInt8.toNat_ofNat', toNat_load m offset (Nat.le_refl 4)]
  exact hbyte

end Memory

/-! ## Halves -/

/-- Where the bytes of an unaligned word lie, in physical memory. -/
def byteAddress (address : UInt32) (k : Nat) : Nat :=
  (physicalAddress (address + UInt32.ofNat k)).toNat

/-- The two halves of an unaligned word: the right one begins at its address, and the left
one ends with its last byte. -/
inductive Half where
  | right
  | left
  deriving DecidableEq, Repr

namespace Half

/-- The half that is missing. -/
def other : Half → Half
  | right => left
  | left => right

/-- The address that an instruction names for a half of the word at `address`. -/
def address (half : Half) (address : UInt32) : UInt32 :=
  match half with
  | right => address
  | left => address + 3

/-- Where the aligned word lies that the half is a part of. -/
def place (half : Half) (address : UInt32) : UInt32 :=
  physicalAddress (half.address address &&& ~~~3)

/-- Whether byte `k` of the unaligned word belongs to the half. -/
def Covers (half : Half) (address : UInt32) (k : Nat) : Prop :=
  match half with
  | right => k + address.toNat % 4 < 4
  | left => 3 ≤ k + (address + 3).toNat % 4

instance (half : Half) (address : UInt32) (k : Nat) : Decidable (half.Covers address k) :=
  match half with
  | right => inferInstanceAs (Decidable (k + address.toNat % 4 < 4))
  | left => inferInstanceAs (Decidable (3 ≤ k + (address + 3).toNat % 4))

/-- A register with a half loaded from an aligned word. -/
def merged (half : Half) (address register word : UInt32) : UInt32 :=
  match half with
  | right => Unaligned.loadRight address register word
  | left => Unaligned.loadLeft (address + 3) register word

/-- An aligned word with a half stored into it from a register. -/
def updated (half : Half) (address register word : UInt32) : UInt32 :=
  match half with
  | right => Unaligned.storeRight address word register
  | left => Unaligned.storeLeft (address + 3) word register

variable (half : Half) (a : UInt32) {k : Nat}

/-- **Each byte belongs to a half.** -/
theorem covers_or (hk : k < 4) : half.Covers a k ∨ half.other.Covers a k := by
  have hnext : (a + 3).toNat = (a.toNat + 3) % 4294967296 := UInt32.toNat_add a 3
  have hlt : a.toNat < 4294967296 := a.toNat_lt
  cases half <;> simp only [other, Covers] <;> omega

/-- Where byte `k` lies in the aligned word of a half. -/
def index (half : Half) (a : UInt32) (k : Nat) : Nat :=
  match half with
  | right => k + a.toNat % 4
  | left => k - (3 - (a + 3).toNat % 4)

end Half

/-- A physical address is that of its aligned word and an offset. -/
theorem toNat_physicalAddress_aligned (address : UInt32) :
    (physicalAddress address).toNat =
      (physicalAddress (address &&& ~~~3)).toNat + address.toNat % 4 := by
  have hsplit := Bits.toNat_and_not_add address 3
  rw [Unaligned.toNat_alignment] at hsplit
  have hlow (address : UInt32) : (address &&& 0x1FFFFFFF).toNat = address.toNat % 0x20000000 :=
    Bits.toNat_and_low address 0x1FFFFFFF (n := 29) rfl
  have hhigh : (0xC0000000 : UInt32).toNat = 0xC0000000 := rfl
  unfold physicalAddress
  by_cases hmapped : address < 0xC0000000
  · have hmapped' : address &&& ~~~3 < 0xC0000000 := by
      rw [UInt32.lt_iff_toNat_lt] at hmapped ⊢
      omega
    rw [if_pos hmapped, if_pos hmapped', hlow, hlow]
    omega
  · have hmapped' : ¬ address &&& ~~~3 < 0xC0000000 := by
      rw [UInt32.lt_iff_toNat_lt] at hmapped ⊢
      omega
    rw [if_neg hmapped, if_neg hmapped']
    omega

/-- The bytes of a word lie at four places. -/
theorem byteAddress_inj {a : UInt32} {i j : Nat} (hi : i < 4) (hj : j < 4)
    (h : byteAddress a i = byteAddress a j) : i = j := by
  have hmod (k : Nat) (hk : k < 4) : byteAddress a k % 16 = (a.toNat + k) % 16 := by
    rw [byteAddress, toNat_physicalAddress_mod, UInt32.toNat_add,
      UInt32.toNat_ofNat_of_lt' (Nat.lt_of_lt_of_le hk (by decide))]
    omega
  have hmodi := hmod i hi
  have hmodj := hmod j hj
  omega

namespace Half

variable (half : Half) (a : UInt32) {k : Nat}

/-- A half reaches the bytes that it covers through places of one word. -/
theorem byteAddress_eq (hk : k < 4) (hcovers : half.Covers a k) :
    half.index a k < 4 ∧ byteAddress a k = (half.place a).toNat + half.index a k := by
  have hnext : (a + 3).toNat = (a.toNat + 3) % 4294967296 := UInt32.toNat_add a 3
  have hbyte : (a + UInt32.ofNat k).toNat = (a.toNat + k) % 4294967296 := by
    rw [UInt32.toNat_add, UInt32.toNat_ofNat_of_lt' (Nat.lt_of_lt_of_le hk (by decide))]
  have hlt : a.toNat < 4294967296 := a.toNat_lt
  have hsplit (address : UInt32) := Bits.toNat_and_not_add address 3
  simp only [Unaligned.toNat_alignment] at hsplit
  have hword : (a + UInt32.ofNat k) &&& ~~~3 = half.address a &&& ~~~3 := by
    apply UInt32.toNat_inj.mp
    have hleft := hsplit (a + UInt32.ofNat k)
    have hright := hsplit (half.address a)
    cases half <;> simp only [Covers, address] at hcovers hright ⊢ <;> omega
  rw [byteAddress, toNat_physicalAddress_aligned, hword, place]
  cases half <;> simp only [Covers, index] at hcovers ⊢ <;> omega

/-- **A half that is loaded**: its bytes come from memory, the others from the register. -/
theorem digit_merged (m : Memory) (register : UInt32) (hk : k < 4) :
    digit (half.merged a register (m.load (half.place a).toNat 4)) k =
      if half.Covers a k then m.byte (byteAddress a k) else digit register k := by
  by_cases hcovers : half.Covers a k
  · obtain ⟨hindex, hplace⟩ := half.byteAddress_eq a hk hcovers
    rw [if_pos hcovers, hplace, ← m.digit_load _ hindex]
    cases half with
    | right => exact (Unaligned.digit_loadRight a register _ hk).trans (if_pos hcovers)
    | left =>
        have hmoved : 3 - (a + 3).toNat % 4 ≤ k := by
          simp only [Covers] at hcovers
          omega
        exact (Unaligned.digit_loadLeft (a + 3) register _ hk).trans (if_pos hmoved)
  · rw [if_neg hcovers]
    cases half with
    | right => exact (Unaligned.digit_loadRight a register _ hk).trans (if_neg hcovers)
    | left =>
        have hkept : ¬ 3 - (a + 3).toNat % 4 ≤ k := by
          simp only [Covers] at hcovers
          omega
        exact (Unaligned.digit_loadLeft (a + 3) register _ hk).trans (if_neg hkept)

/-- The bytes of a half in the aligned word that it was stored into. -/
theorem digit_updated_index (register word : UInt32) (hk : k < 4) (hcovers : half.Covers a k) :
    digit (half.updated a register word) (half.index a k) = digit register k := by
  have hindex := (half.byteAddress_eq a hk hcovers).1
  cases half with
  | right =>
      have hmoved : a.toNat % 4 ≤ k + a.toNat % 4 := Nat.le_add_left _ _
      refine (Unaligned.digit_storeRight a register word hindex).trans ((if_pos hmoved).trans ?_)
      rw [index, Nat.add_sub_cancel]
  | left =>
      have hless : (a + 3).toNat % 4 < 4 := Nat.mod_lt _ (by decide)
      simp only [Covers] at hcovers
      have hplace : k - (3 - (a + 3).toNat % 4) + (3 - (a + 3).toNat % 4) = k := by omega
      refine (Unaligned.digit_storeLeft (a + 3) register word hindex).trans ?_
      rw [index, hplace, if_pos hk]

/-- The other bytes of that word. -/
theorem digit_updated_other (register word : UInt32) {j : Nat} (hj : j < 4)
    (hother : ∀ k < 4, half.Covers a k → half.index a k ≠ j) :
    digit (half.updated a register word) j = digit word j := by
  cases half with
  | right =>
      have hkept : ¬ a.toNat % 4 ≤ j := fun hle =>
        hother (j - a.toNat % 4) (by omega) (by simp only [Covers]; omega)
          (by simp only [index]; omega)
      exact (Unaligned.digit_storeRight a register word hj).trans (if_neg hkept)
  | left =>
      have hkept : ¬ j + (3 - (a + 3).toNat % 4) < 4 := fun hless =>
        hother (j + (3 - (a + 3).toNat % 4)) hless (by simp only [Covers]; omega)
          (by simp only [index]; omega)
      exact (Unaligned.digit_storeLeft (a + 3) register word hj).trans (if_neg hkept)

end Half

/-! ## Stores of halves -/

/-- What stores of some bytes of a word at `a` make of a memory. -/
structure Memory.Takes (covers : Nat → Prop) (a value : UInt32) (before after : Memory) :
    Prop where
  size : after.size = before.size
  /-- The bytes that are stored are those of the value. -/
  taken : ∀ k < 4, covers k → after.byte (byteAddress a k) = digit value k
  /-- Every other byte is the old one. -/
  kept : ∀ i, (∀ k < 4, covers k → i ≠ byteAddress a k) → after.byte i = before.byte i

/-- **A half that is stored** puts its bytes into memory and leaves the others alone. -/
theorem Half.takes_store (half : Half) (a register : UInt32) {m : Memory}
    (hfits : (half.place a).toNat + 4 ≤ m.size) :
    m.Takes (half.Covers a) a register
      (m.store (half.place a).toNat
        (half.updated a register (m.load (half.place a).toNat 4)) 4) := by
  refine ⟨m.size_store _ _ _, fun k hk hcovers => ?_, fun i hother => ?_⟩
  · obtain ⟨hindex, hplace⟩ := half.byteAddress_eq a hk hcovers
    rw [m.byte_store _ hfits, hplace, if_pos (by omega), Nat.add_sub_cancel_left]
    exact half.digit_updated_index a register _ hk hcovers
  · rw [m.byte_store _ hfits]
    split
    · rename_i hin
      have hj : i - (half.place a).toNat < 4 := by omega
      rw [half.digit_updated_other a register _ hj, m.digit_load _ hj,
        Nat.add_sub_cancel' hin.1]
      intro k hk hcovers hindex
      refine hother k hk hcovers ?_
      rw [(half.byteAddress_eq a hk hcovers).2, hindex, Nat.add_sub_cancel' hin.1]
    · rfl

/-- Two stores one after the other. -/
theorem Memory.Takes.trans {covers covers' : Nat → Prop} {a value : UInt32} {m m' m'' : Memory}
    (h : m.Takes covers a value m') (h' : m'.Takes covers' a value m'') :
    m.Takes (fun k => covers k ∨ covers' k) a value m'' := by
  refine ⟨h'.size.trans h.size, fun k hk hcovers => ?_, fun i hother => ?_⟩
  · by_cases hlater : covers' k
    · exact h'.taken k hk hlater
    · have hfirst := h.taken k hk (hcovers.resolve_right hlater)
      rw [h'.kept, hfirst]
      intro j hj hcovers' hsame
      exact hlater (byteAddress_inj hk hj hsame ▸ hcovers')
  · rw [h'.kept i fun k hk hcovers => hother k hk (.inr hcovers),
      h.kept i fun k hk hcovers => hother k hk (.inl hcovers)]

end PlayStation
