import PlayStation.Bits

/-!
# Replacing bits of a word

Writing a field or a flag keeps the bits outside a mask and replaces those
under it.  Two such replacements make one (`replace_replace`), and two that keep to
bits of their own may be made in either order (`replace_comm`).  What any combination of
such changes does can be read off bit by bit (`bit`, `ext_bit`).
-/

namespace PlayStation.Bits

/-- There are 256 bytes. -/
theorem forall_byte {P : UInt8 → Prop} (h : ∀ n : Fin 256, P (UInt8.ofNat n.val)) (byte : UInt8) :
    P byte := by
  have hn := h ⟨byte.toNat, byte.toNat_lt⟩
  rwa [UInt8.ofNat_toNat] at hn

/-- Replacing the bits under `m` and then those under `n` replaces the bits under
both. -/
theorem replace_replace (word m x n y : UInt32) :
    ((word &&& ~~~m ||| x) &&& ~~~n) ||| y = word &&& ~~~(m ||| n) ||| (x &&& ~~~n ||| y) := by
  apply UInt32.toBitVec_inj.mp
  ext i hi
  simp only [UInt32.toBitVec_or, UInt32.toBitVec_and, UInt32.toBitVec_not, BitVec.getElem_or,
    BitVec.getElem_and, BitVec.getElem_not]
  cases word.toBitVec[i] <;> cases m.toBitVec[i] <;> cases x.toBitVec[i] <;>
    cases n.toBitVec[i] <;> cases y.toBitVec[i] <;> rfl

/-- Bits outside a replaced mask stay. -/
theorem and_of_replace {word m x n : UInt32} (hm : m &&& n = 0) (hx : x &&& n = 0) :
    (word &&& ~~~m ||| x) &&& n = word &&& n := by
  apply UInt32.toBitVec_inj.mp
  ext i hi
  have hmi : (m.toBitVec[i] && n.toBitVec[i]) = false := by
    rw [← BitVec.getElem_and, ← UInt32.toBitVec_and, hm]
    exact BitVec.getElem_zero hi
  have hxi : (x.toBitVec[i] && n.toBitVec[i]) = false := by
    rw [← BitVec.getElem_and, ← UInt32.toBitVec_and, hx]
    exact BitVec.getElem_zero hi
  simp only [UInt32.toBitVec_or, UInt32.toBitVec_and, UInt32.toBitVec_not, BitVec.getElem_or,
    BitVec.getElem_and, BitVec.getElem_not]
  cases hn : n.toBitVec[i] with
  | false => simp only [Bool.and_false]
  | true =>
      rw [hn, Bool.and_true] at hmi hxi
      simp only [hmi, hxi, Bool.not_false, Bool.and_true, Bool.or_false]

/-- Bits under a replaced mask are the new ones. -/
theorem and_of_replaced {word m x n : UInt32} (hn : m &&& n = n) :
    (word &&& ~~~m ||| x) &&& n = x &&& n := by
  apply UInt32.toBitVec_inj.mp
  ext i hi
  have hni : (m.toBitVec[i] && n.toBitVec[i]) = n.toBitVec[i] := by
    rw [← BitVec.getElem_and, ← UInt32.toBitVec_and, hn]
  simp only [UInt32.toBitVec_or, UInt32.toBitVec_and, UInt32.toBitVec_not, BitVec.getElem_or,
    BitVec.getElem_and, BitVec.getElem_not]
  cases hn : n.toBitVec[i] with
  | false => simp only [Bool.and_false]
  | true =>
      rw [hn, Bool.and_true] at hni
      simp only [hni, Bool.not_true, Bool.and_false, Bool.false_or]

/-- Setting or clearing a flag replaces its bits. -/
theorem setFlag_eq (word mask : UInt32) (on : Bool) :
    setFlag word mask on = word &&& ~~~mask ||| (if on then mask else 0) := by
  cases on with
  | false => simp [setFlag]
  | true =>
      apply UInt32.toBitVec_inj.mp
      ext i hi
      simp only [setFlag, if_true, UInt32.toBitVec_or, UInt32.toBitVec_and, UInt32.toBitVec_not,
        BitVec.getElem_or, BitVec.getElem_and, BitVec.getElem_not]
      cases word.toBitVec[i] <;> cases mask.toBitVec[i] <;> rfl

/-- The low bits of a word are a remainder. -/
theorem toNat_and_low (word mask : UInt32) {n : Nat} (hmask : mask.toNat = 1 <<< n - 1) :
    (word &&& mask).toNat = word.toNat % 1 <<< n := by
  rw [UInt32.toNat_and, hmask, Nat.one_shiftLeft, Nat.and_two_pow_sub_one_eq_mod]

/-- The bits outside a mask and those under it add up to the word. -/
theorem toNat_and_not_add (word mask : UInt32) :
    (word &&& ~~~mask).toNat + (word &&& mask).toNat = word.toNat := by
  have hdisjoint : (word &&& ~~~mask).toBitVec &&& (word &&& mask).toBitVec = 0 := by
    ext i hi
    simp only [UInt32.toBitVec_and, UInt32.toBitVec_not, BitVec.getElem_and, BitVec.getElem_not]
    cases word.toBitVec[i] <;> cases mask.toBitVec[i] <;> simp
  have hunion : (word &&& ~~~mask).toBitVec ||| (word &&& mask).toBitVec = word.toBitVec := by
    ext i hi
    simp only [UInt32.toBitVec_and, UInt32.toBitVec_not, BitVec.getElem_or, BitVec.getElem_and,
      BitVec.getElem_not]
    cases word.toBitVec[i] <;> cases mask.toBitVec[i] <;> rfl
  have hsum := BitVec.toNat_add_of_and_eq_zero hdisjoint
  rw [BitVec.add_eq_or_of_and_eq_zero _ _ hdisjoint, hunion] at hsum
  exact hsum.symm

/-! ## Changes that keep to their own bits -/

/-- Two replacements, neither of which sets a bit under the other's mask, may be made
in either order. -/
theorem replace_comm {m x n y : UInt32} (hx : x &&& n = 0) (hy : y &&& m = 0) (word : UInt32) :
    (word &&& ~~~m ||| x) &&& ~~~n ||| y = (word &&& ~~~n ||| y) &&& ~~~m ||| x := by
  have hkept {a b : UInt32} (h : a &&& b = 0) : a &&& ~~~b = a := by
    apply UInt32.toBitVec_inj.mp
    ext i hi
    have hbit : (a.toBitVec[i] && b.toBitVec[i]) = false := by
      rw [← BitVec.getElem_and, ← UInt32.toBitVec_and, h]
      exact BitVec.getElem_zero hi
    simp only [UInt32.toBitVec_and, UInt32.toBitVec_not, BitVec.getElem_and, BitVec.getElem_not]
    cases ha : a.toBitVec[i] with
    | false => rfl
    | true =>
        rw [ha, Bool.true_and] at hbit
        rw [hbit]
        rfl
  rw [replace_replace, replace_replace, hkept hx, hkept hy, UInt32.or_comm m n, UInt32.or_comm x y]

/-- A change of a word that does not look at the bits under a mask and leaves them
alone: replacing some of them before it and after it is the same. -/
def Apart (mask : UInt32) (f : UInt32 → UInt32) : Prop :=
  ∀ word m x, m &&& mask = m → x &&& mask = x →
    f (word &&& ~~~m ||| x) = f word &&& ~~~m ||| x

variable {mask m x : UInt32} {f : UInt32 → UInt32}

/-- What is disjoint from a mask is disjoint from every part of it. -/
theorem and_eq_zero_of_le {n : UInt32} (hm : m &&& mask = m) (hn : n &&& mask = 0) :
    m &&& n = 0 := by
  rw [← hm, UInt32.and_assoc, UInt32.and_comm mask, hn, UInt32.and_zero]

/-- Replacing bits outside the mask. -/
theorem apart_replace {n y : UInt32} (hn : n &&& mask = 0) (hy : y &&& mask = 0) :
    Apart mask fun word => word &&& ~~~n ||| y := by
  intro word m x hm hx
  refine replace_comm (and_eq_zero_of_le hx hn) ?_ word
  rw [UInt32.and_comm]
  exact and_eq_zero_of_le hm hy

/-- Setting or clearing a flag outside the mask. -/
theorem apart_setFlag {n : UInt32} (hn : n &&& mask = 0) (on : Bool) :
    Apart mask fun word => setFlag word n on := by
  have hy : (if on then n else 0) &&& mask = 0 := by
    cases on with
    | false => exact UInt32.zero_and
    | true => exact hn
  simp only [setFlag_eq]
  exact apart_replace hn hy

/-- Writing a field outside the mask. -/
theorem apart_setField {n : UInt32} (hn : n &&& mask = 0) (value : UInt32) :
    Apart mask fun word => setField word n value := by
  refine apart_replace hn ?_
  rw [UInt32.and_assoc, hn, UInt32.and_zero]

/-- No change at all. -/
theorem apart_id : Apart mask id :=
  fun _ _ _ _ _ => rfl

/-- Two changes apart from a mask, one after the other, are apart from it. -/
theorem Apart.comp {g : UInt32 → UInt32} (hg : Apart mask g) (hf : Apart mask f) :
    Apart mask fun word => g (f word) := by
  intro word m x hm hx
  dsimp only
  rw [hf word m x hm hx, hg (f word) m x hm hx]

/-- Copying bits under the mask from another word may come before the change or after it. -/
theorem Apart.masked (h : Apart mask f) (hm : m &&& mask = m) (word value : UInt32) :
    f (word &&& ~~~m ||| value &&& m) = f word &&& ~~~m ||| value &&& m := by
  refine h word m (value &&& m) hm ?_
  rw [UInt32.and_assoc, hm]

/-- So may setting or clearing a flag under the mask. -/
theorem Apart.setFlag (h : Apart mask f) (hm : m &&& mask = m) (word : UInt32) (on : Bool) :
    f (setFlag word m on) = setFlag (f word) m on := by
  have hx : (if on then m else 0) &&& mask = if on then m else 0 := by
    cases on with
    | false => exact UInt32.zero_and
    | true => exact hm
  rw [setFlag_eq, setFlag_eq, h word m _ hm hx]

/-- The bits under the mask stay. -/
theorem Apart.and_eq (h : Apart mask f) (hm : m &&& mask = m) (word : UInt32) :
    f word &&& m = word &&& m := by
  have hsplit : word &&& ~~~m ||| word &&& m = word := by
    apply UInt32.toBitVec_inj.mp
    ext i hi
    simp only [UInt32.toBitVec_or, UInt32.toBitVec_and, UInt32.toBitVec_not, BitVec.getElem_or,
      BitVec.getElem_and, BitVec.getElem_not]
    cases word.toBitVec[i] <;> cases m.toBitVec[i] <;> rfl
  have hsame := h.masked hm word word
  rw [hsplit] at hsame
  rw [hsame, and_of_replaced (UInt32.and_self), UInt32.and_assoc, UInt32.and_self]

/-- A flag under the mask reads the same after the change. -/
theorem Apart.flag_eq (h : Apart mask f) (hm : m &&& mask = m) (word : UInt32) :
    flag (f word) m = flag word m := by
  rw [flag, flag, h.and_eq hm]

/-- A field under the mask reads the same after the change. -/
theorem Apart.field_eq (h : Apart mask f) (hm : m &&& mask = m) (word : UInt32) :
    field (f word) m = field word m := by
  rw [field, field, h.and_eq hm]

/-! ## Single bits -/

/-- Bit `i` of a word, counted from the lowest. -/
def bit (word : UInt32) (i : Nat) : Bool :=
  word.toBitVec.getLsbD i

/-- Words with the same bits are the same. -/
theorem ext_bit {a b : UInt32} (h : ∀ i < 32, bit a i = bit b i) : a = b :=
  UInt32.toBitVec_inj.mp (BitVec.eq_of_getLsbD_eq h)

@[simp] theorem bit_zero (i : Nat) : bit 0 i = false :=
  BitVec.getLsbD_zero

@[simp] theorem bit_or (a b : UInt32) (i : Nat) : bit (a ||| b) i = (bit a i || bit b i) :=
  BitVec.getLsbD_or

@[simp] theorem bit_and (a b : UInt32) (i : Nat) : bit (a &&& b) i = (bit a i && bit b i) :=
  BitVec.getLsbD_and

/-- Complement turns every bit of a word; beyond the word there is nothing to turn. -/
theorem bit_not (a : UInt32) {i : Nat} (hi : i < 32) : bit (~~~a) i = !bit a i := by
  rw [bit, UInt32.toBitVec_not, BitVec.getLsbD_not, decide_eq_true hi, Bool.true_and]
  rfl

/-- Masking the bits of two words one by one or together is the same. -/
theorem or_and (a b mask : UInt32) : (a ||| b) &&& mask = (a &&& mask) ||| (b &&& mask) :=
  ext_bit fun i _ => by simp only [bit_or, bit_and, Bool.and_or_distrib_right]

/-- Shifting left moves bits up and lets zeros in below. -/
theorem bit_shiftLeft (a : UInt32) {n : UInt32} (hn : n.toNat < 32) {i : Nat} (hi : i < 32) :
    bit (a <<< n) i = (decide (n.toNat ≤ i) && bit a (i - n.toNat)) := by
  have hshift : (n.toBitVec % 32).toNat = n.toNat := Nat.mod_eq_of_lt hn
  rw [bit, UInt32.toBitVec_shiftLeft, BitVec.shiftLeft_eq', hshift, BitVec.getLsbD_shiftLeft,
    decide_eq_true hi, Bool.true_and, bit]
  by_cases hless : i < n.toNat
  · rw [decide_eq_true hless, decide_eq_false (Nat.not_le.mpr hless)]
    rfl
  · rw [decide_eq_false hless, decide_eq_true (Nat.not_lt.mp hless)]
    rfl

/-- Shifting right moves bits down. -/
theorem bit_shiftRight (a : UInt32) {n : UInt32} (hn : n.toNat < 32) (i : Nat) :
    bit (a >>> n) i = bit a (n.toNat + i) := by
  have hshift : (n.toBitVec % 32).toNat = n.toNat := Nat.mod_eq_of_lt hn
  rw [bit, UInt32.toBitVec_shiftRight, BitVec.ushiftRight_eq', hshift, BitVec.getLsbD_ushiftRight]
  rfl

/-- Each bit of a word with a flag set or cleared. -/
theorem bit_setFlag (word mask : UInt32) (on : Bool) {i : Nat} (hi : i < 32) :
    bit (setFlag word mask on) i = if bit mask i then on else bit word i := by
  rw [setFlag_eq, bit_or, bit_and, bit_not mask hi]
  cases hmask : bit mask i <;> cases on <;> simp [hmask]

/-- Each bit of a word with a field written. -/
theorem bit_setField (word mask value : UInt32) {i : Nat} (hi : i < 32) :
    bit (setField word mask value) i =
      if bit mask i then bit (value <<< UInt32.ofNat (lowestBit mask)) i else bit word i := by
  rw [setField, bit_or, bit_and, bit_and, bit_not mask hi]
  cases bit mask i <;> simp

/-- A slice of one bit is that bit. -/
theorem slice_one_ne_zero (word : UInt32) {lo : UInt32} (hlo : lo.toNat < 32) :
    (slice word lo 1 != 0) = bit word lo.toNat := by
  have hmask : ((1 : UInt32) <<< 1) - 1 = 1 := by decide
  have hone : ∀ i < 32, bit 1 i = decide (i = 0) := by decide
  have hslice : slice word lo 1 = if bit word lo.toNat then 1 else 0 := by
    refine ext_bit fun i hi => ?_
    rw [slice, hmask, bit_and, bit_shiftRight word hlo, hone i hi]
    by_cases hzero : i = 0
    · subst hzero
      cases bit word lo.toNat <;> simp [hone 0 hi]
    · cases bit word lo.toNat <;> simp [hzero, hone i hi]
  rw [hslice]
  cases bit word lo.toNat <;> rfl

/-- The low bits of a word and a slice right above them make up more low bits. -/
theorem or_slice (word all : UInt32) {low n m : UInt32} (hn : n.toNat < 32)
    (hlow : ∀ i < 32, bit low i = decide (i < n.toNat))
    (hslice : ∀ i < 32, bit ((1 <<< m) - 1) i = decide (i < m.toNat))
    (hall : ∀ i < 32, bit all i = decide (i < n.toNat + m.toNat)) :
    (word &&& low) ||| (slice word n m <<< n) = word &&& all := by
  refine ext_bit fun i hi => ?_
  rw [bit_or, bit_and, bit_and, bit_shiftLeft _ hn hi, slice, bit_and, bit_shiftRight word hn,
    hlow i hi, hall i hi, hslice _ (by omega)]
  by_cases hless : i < n.toNat
  · have hmore : i < n.toNat + m.toNat := by omega
    have hbelow : ¬ n.toNat ≤ i := by omega
    simp [hless, hmore, hbelow]
  · have habove : n.toNat ≤ i := by omega
    have hsum : n.toNat + (i - n.toNat) = i := by omega
    have hshifted : i - n.toNat < m.toNat ↔ i < n.toNat + m.toNat := by omega
    rw [hsum]
    simp [hless, habove, hshifted]

/-- Extending the sign keeps the low bits. -/
theorem signExtend_and (word : UInt32) {width mask : UInt32} (hwidth : width.toNat ≤ 32)
    (hpos : 0 < width.toNat) (hmask : ∀ i < 32, bit mask i = decide (i < width.toNat)) :
    (signExtend word width).toUInt32 &&& mask = word &&& mask := by
  have hshift : (32 - width).toNat = 32 - width.toNat := UInt32.toNat_sub_of_le _ _ hwidth
  have hamount : ((32 - width).toInt32.toBitVec.smod 32).toNat = 32 - width.toNat := by
    have hmsb : (32 - width).toBitVec.msb = false := by
      rw [BitVec.msb_eq_false_iff_two_mul_lt]
      change 2 * (32 - width).toNat < 2 ^ 32
      omega
    have hpositive : (32 : BitVec 32).msb = false := by decide
    rw [UInt32.toBitVec_toInt32, BitVec.smod, hmsb, hpositive]
    have hless : (32 - width).toNat < 32 := by omega
    exact (Nat.mod_eq_of_lt hless).trans hshift
  refine ext_bit fun i hi => ?_
  rw [bit_and, bit_and, hmask i hi]
  by_cases hless : i < width.toNat
  · have hin : 32 - width.toNat + i < 32 := by omega
    have hkept : bit (signExtend word width).toUInt32 i = bit word i := by
      have hshifted := bit_shiftLeft word (n := 32 - width) (by omega) hin
      have hback : 32 - width.toNat + i - (32 - width.toNat) = i := by omega
      rw [hshift, hback, decide_eq_true (Nat.le_add_right _ _), Bool.true_and] at hshifted
      rw [← hshifted]
      unfold signExtend
      dsimp only
      rw [bit, Int32.toBitVec_toUInt32, Int32.toBitVec_shiftRight, BitVec.sshiftRight', hamount,
        BitVec.getLsbD_sshiftRight, if_pos hin, decide_eq_false (Nat.not_le.mpr hi)]
      rfl
    rw [hkept]
  · rw [decide_eq_false hless, Bool.and_false, Bool.and_false]

end PlayStation.Bits
