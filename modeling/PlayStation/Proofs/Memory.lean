import PlayStation.Memory

/-!
# The bytes of a memory

What an access does to the single bytes: a load puts them together, lowest first
(`Memory.toNat_load`), a store takes the number apart again (`Memory.byte_store`), and
an image replaces the bytes that it covers (`Memory.byte_of_loadImage`).
-/

namespace PlayStation

/-- The number whose `count` digits to the base 256 are the bytes from `offset` on, the
lowest first. -/
def littleEndian (bytes : Nat → UInt8) (offset : Nat) : (count : Nat) → Nat
  | 0 => 0
  | count + 1 => (bytes offset).toNat + 256 * littleEndian bytes (offset + 1) count

/-- The number that `count` bytes make up fits into their bits. -/
theorem littleEndian_lt (bytes : Nat → UInt8) (offset count : Nat) :
    littleEndian bytes offset count < 1 <<< (8 * count) := by
  induction count generalizing offset with
  | zero => exact Nat.one_pos
  | succ count ih =>
      have hbyte := (bytes offset).toNat_lt
      have hrest := ih (offset + 1)
      rw [littleEndian, Nat.mul_succ, Nat.shiftLeft_add, Nat.shiftLeft_eq _ 8]
      omega

/-- The number depends on nothing but the bytes that it is made of. -/
theorem littleEndian_congr {bytes bytes' : Nat → UInt8} {offset count : Nat}
    (h : ∀ i, offset ≤ i → i < offset + count → bytes i = bytes' i) :
    littleEndian bytes offset count = littleEndian bytes' offset count := by
  induction count generalizing offset with
  | zero => rfl
  | succ count ih =>
      rw [littleEndian, littleEndian, h offset (Nat.le_refl _) (by omega),
        ih fun i hfirst hlast => h i (by omega) (by omega)]

/-- The digit of a number to the base 256 at a place. -/
def digit (value : UInt32) (place : Nat) : UInt8 :=
  UInt8.ofNat (value.toNat >>> (8 * place))

theorem digit_zero (value : UInt32) : digit value 0 = value.toUInt8 := rfl

/-- Moving a value down by a byte moves every digit down by a place. -/
theorem digit_shift (value : UInt32) (place : Nat) :
    digit (value >>> 8) place = digit value (place + 1) := by
  have hshift : (value >>> 8).toNat = value.toNat >>> 8 := UInt32.toNat_shiftRight _ _
  rw [digit, digit, hshift, ← Nat.shiftRight_add, Nat.mul_succ, Nat.add_comm]

/-- Some of the digits of a number make up the part of it that they stand for. -/
theorem littleEndian_digit (value : UInt32) (offset count : Nat) :
    littleEndian (digit value) offset count =
      value.toNat >>> (8 * offset) % 1 <<< (8 * count) := by
  induction count generalizing offset with
  | zero => exact (Nat.mod_one _).symm
  | succ count ih =>
      have hbyte : (digit value offset).toNat = value.toNat >>> (8 * offset) % 256 :=
        UInt8.toNat_ofNat'
      rw [littleEndian, hbyte, ih, Nat.mul_succ 8 offset, Nat.shiftRight_add, Nat.mul_succ 8 count,
        Nat.shiftLeft_add, Nat.shiftLeft_eq _ 8, Nat.shiftRight_eq_div_pow _ 8,
        Nat.mul_comm _ (2 ^ 8)]
      exact (Nat.mod_mul ..).symm

namespace Memory

variable (m : Memory)

/-- **A load puts bytes together**, the lowest first. -/
theorem toNat_load {count : Nat} (offset : Nat) (hcount : count ≤ 4) :
    (m.load offset count).toNat = littleEndian m.byte offset count := by
  induction count generalizing offset with
  | zero => rfl
  | succ count ih =>
      have hbyte : (m.byte offset).toUInt32.toNat = (m.byte offset).toNat := rfl
      have hlt := (m.byte offset).toNat_lt
      have hrest := littleEndian_lt m.byte (offset + 1) count
      have hrange : 1 <<< (8 * count) ≤ 1 <<< (8 * 3) := by
        rw [Nat.one_shiftLeft, Nat.one_shiftLeft]
        exact Nat.pow_le_pow_right (by omega) (by omega)
      have hshift : (m.load (offset + 1) count <<< 8).toNat =
          littleEndian m.byte (offset + 1) count <<< 8 := by
        rw [UInt32.toNat_shiftLeft, ih (offset + 1) (by omega)]
        apply Nat.mod_eq_of_lt
        change littleEndian m.byte (offset + 1) count <<< 8 < 2 ^ 32
        rw [Nat.shiftLeft_eq]
        omega
      rw [load, littleEndian, UInt32.toNat_or, hshift, hbyte, Nat.or_comm,
        ← Nat.shiftLeft_add_eq_or_of_lt (by omega), Nat.shiftLeft_eq]
      omega

/-- **A store takes a number apart**, the lowest byte first. -/
theorem byte_store {offset count : Nat} (value : UInt32) (h : offset + count ≤ m.size) (i : Nat) :
    (m.store offset value count).byte i =
      if offset ≤ i ∧ i < offset + count then digit value (i - offset) else m.byte i := by
  induction count generalizing m offset value with
  | zero => rw [store, if_neg (by omega)]
  | succ count ih =>
      by_cases hfirst : i = offset
      · subst hfirst
        rw [byte_store_self m value (by omega), if_pos (by omega), Nat.sub_self, digit_zero]
      · have hsize : (Memory.mk (m.bytes.setIfInBounds offset value.toUInt8)).size = m.size :=
          Array.size_setIfInBounds
        rw [store, ih _ _ (by omega)]
        by_cases hin : offset ≤ i ∧ i < offset + (count + 1)
        · have hplace : i - offset = i - (offset + 1) + 1 := by omega
          rw [if_pos (by omega), if_pos hin, digit_shift, ← hplace]
        · rw [if_neg (by omega), if_neg hin]
          simp only [byte, Array.getD_eq_getD_getElem?, Array.getElem?_setIfInBounds,
            if_neg (Ne.symm hfirst)]

/-- A read answers exactly if it ends inside the memory. -/
theorem read_eq (width : Width) (offset : UInt32) :
    m.read width offset =
      if offset.toNat + width.bytes ≤ m.size then .ok (m.load offset.toNat width.bytes)
      else .error ⟨offset⟩ := by
  simp only [read, holds, decide_eq_true_eq]

/-- A write is carried out exactly if it ends inside the memory. -/
theorem write_eq (width : Width) (offset value : UInt32) :
    m.write width offset value =
      if offset.toNat + width.bytes ≤ m.size then
        (.ok (), m.store offset.toNat value width.bytes)
      else (.error ⟨offset⟩, m) := by
  simp only [write, holds, decide_eq_true_eq]

/-- A blank chip holds zeros, and so does everything beyond its end. -/
theorem byte_blank (size i : Nat) : (blank size).byte i = 0 := by
  simp only [byte, blank, Array.getD_eq_getD_getElem?, Array.getElem?_replicate]
  split <;> rfl

/-- Values put one behind another, from `start` on. -/
theorem getD_fold_setIfInBounds {count : Nat} (value : (i : Nat) → i < count → UInt8) (start : Nat)
    (bytes : Array UInt8) (h : start + count ≤ bytes.size) (i : Nat) :
    (count.fold (fun k hk bytes => bytes.setIfInBounds (start + k) (value k hk)) bytes).getD i 0 =
      if hin : start ≤ i ∧ i < start + count then value (i - start) (by omega)
      else bytes.getD i 0 := by
  induction count with
  | zero => rw [Nat.fold_zero, dif_neg (by omega)]
  | succ count ih =>
      have hsize (n : Nat) (f : (k : Nat) → k < n → UInt8) :
          (n.fold (fun k hk bytes => bytes.setIfInBounds (start + k) (f k hk)) bytes).size =
            bytes.size := by
        induction n with
        | zero => rfl
        | succ n ihn => rw [Nat.fold_succ, Array.size_setIfInBounds, ihn]
      rw [Nat.fold_succ, Array.getD_eq_getD_getElem?, Array.getElem?_setIfInBounds, hsize]
      by_cases hlast : start + count = i
      · subst hlast
        rw [if_pos rfl, if_pos (by omega), dif_pos (by omega)]
        simp only [Nat.add_sub_cancel_left, Option.getD_some]
      · rw [if_neg hlast, ← Array.getD_eq_getD_getElem?, ih (fun k hk => value k (by omega))
          (by omega)]
        by_cases hin : start ≤ i ∧ i < start + count
        · rw [dif_pos hin, dif_pos (by omega)]
        · rw [dif_neg hin, dif_neg (by omega)]

/-- An image replaces the bytes that it covers, if all of it fits. -/
theorem byte_of_loadImage {m m' : Memory} {address : UInt32} {image : Array UInt8}
    (h : m.loadImage address image = .ok m') (i : Nat) :
    address.toNat + image.size ≤ m.size ∧
      m'.byte i = if address.toNat ≤ i ∧ i < address.toNat + image.size then
        image.getD (i - address.toNat) 0 else m.byte i := by
  unfold loadImage holds at h
  split at h
  · rename_i hfits
    rw [decide_eq_true_eq] at hfits
    cases h
    refine ⟨hfits, ?_⟩
    rw [byte, getD_fold_setIfInBounds (fun k hk => image[k]) _ _ hfits]
    split
    · rename_i hin
      rw [Array.getD_eq_getD_getElem?, Array.getElem?_eq_getElem (by omega), Option.getD_some]
    · rfl
  · cases h

end Memory
end PlayStation
