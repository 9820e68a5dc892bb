import PlayStation.Graphics.Status
import PlayStation.Processor.Control
import PlayStation.Processor.InstructionCache
import PlayStation.Proofs.Bits

/-!
# The fields of the registers

Four registers have fields with names.  The mask of each field is without gaps
(`contiguous_of_mem`), so a field takes up the low bits of what is written into it and drops
the others.

* `field_setField_of_mem` — a field is read back as it was written, and what lies apart from
  it is read as before.
-/

namespace PlayStation.Bits

variable {mask : UInt32}

/-- How many bits a mask has. -/
def width (mask : UInt32) : Nat :=
  (List.range 32).countP fun i => mask.toNat.testBit i

/-- A mask that is not empty and has no gap. -/
structure Contiguous (mask : UInt32) : Prop where
  pos : 0 < width mask
  inside : lowestBit mask + width mask ≤ 32
  bits : ∀ i < 32, bit mask i = decide (lowestBit mask ≤ i ∧ i < lowestBit mask + width mask)

instance : DecidablePred Contiguous := fun mask =>
  decidable_of_iff (0 < width mask ∧ lowestBit mask + width mask ≤ 32 ∧
      ∀ i < 32, bit mask i = decide (lowestBit mask ≤ i ∧ i < lowestBit mask + width mask))
    ⟨fun h => ⟨h.1, h.2.1, h.2.2⟩, fun h => ⟨h.pos, h.inside, h.bits⟩⟩

namespace Contiguous

/-- The lowest bit of a mask that is not empty is a bit of the word. -/
theorem lowestBit_lt (h : Contiguous mask) : lowestBit mask < 32 := by
  have hpos := h.pos
  have hinside := h.inside
  omega

/-- So the amount by which its field is shifted is a small number. -/
theorem toNat_lowestBit (h : Contiguous mask) :
    (UInt32.ofNat (lowestBit mask)).toNat = lowestBit mask :=
  UInt32.toNat_ofNat_of_lt' (Nat.lt_trans h.lowestBit_lt (by decide))

/-- Writing a field copies the low bits of a value to the bits under its mask. -/
theorem bit_setField (h : Contiguous mask) (word value : UInt32) {i : Nat} (hi : i < 32) :
    bit (setField word mask value) i =
      if lowestBit mask ≤ i ∧ i < lowestBit mask + width mask then bit value (i - lowestBit mask)
      else bit word i := by
  have hshift : (UInt32.ofNat (lowestBit mask)).toNat < 32 := by
    rw [h.toNat_lowestBit]
    exact h.lowestBit_lt
  rw [Bits.bit_setField _ _ _ hi, h.bits i hi, bit_shiftLeft value hshift hi, h.toNat_lowestBit]
  by_cases hinside : lowestBit mask ≤ i ∧ i < lowestBit mask + width mask
  · rw [if_pos (decide_eq_true hinside), if_pos hinside, decide_eq_true hinside.1, Bool.true_and]
  · rw [if_neg (fun hmask => hinside (of_decide_eq_true hmask)), if_neg hinside]

/-- Reading a field moves the bits under its mask to the lowest places. -/
theorem bit_field (h : Contiguous mask) (word : UInt32) (i : Nat) :
    bit (field word mask) i = (decide (i < width mask) && bit word (lowestBit mask + i)) := by
  have hshift : (UInt32.ofNat (lowestBit mask)).toNat < 32 := by
    rw [h.toNat_lowestBit]
    exact h.lowestBit_lt
  rw [field, bit_shiftRight _ hshift, h.toNat_lowestBit, bit_and, Bool.and_comm]
  by_cases hword : lowestBit mask + i < 32
  · have hinside : lowestBit mask ≤ lowestBit mask + i ∧
        lowestBit mask + i < lowestBit mask + width mask ↔ i < width mask := by omega
    rw [h.bits _ hword, decide_eq_decide.mpr hinside]
  · have hbeyond : bit word (lowestBit mask + i) = false :=
      BitVec.getLsbD_of_ge _ _ (Nat.not_lt.mp hword)
    rw [hbeyond, Bool.and_false, Bool.and_false]

/-- A field is read back as it was written, but for the bits that do not fit into it. -/
theorem bit_field_setField (h : Contiguous mask) (word value : UInt32) (i : Nat) :
    bit (field (setField word mask value) mask) i = (decide (i < width mask) && bit value i) := by
  rw [h.bit_field]
  by_cases hwidth : i < width mask
  · have hinside := h.inside
    rw [h.bit_setField _ _ (by omega), if_pos (by omega), Nat.add_sub_cancel_left]
  · rw [decide_eq_false hwidth, Bool.false_and, Bool.false_and]

end Contiguous

/-! ## Four registers -/

/-- The registers whose fields have names. -/
def registers : List (List Field) :=
  [Status.fields, Cause.fields, CacheControl.fields, GraphicsStatus.fields]

variable {fields : List Field} {f : Field}

/-- No field of a register has a gap. -/
theorem contiguous_of_mem (hfields : fields ∈ registers) (hf : f ∈ fields) :
    Contiguous f.mask := by
  have hall : ∀ fields ∈ registers, ∀ f ∈ fields, Contiguous f.mask := by decide +kernel
  exact hall fields hfields f hf

/-- **Fields of a register keep to themselves.**  A field is read back as it was written, but
for the bits that do not fit into it, and what has no bit in common with it is read as
before. -/
theorem field_setField_of_mem (hfields : fields ∈ registers) (hf : f ∈ fields)
    (word value : UInt32) :
    (∀ i, bit (field (setField word f.mask value) f.mask) i =
      (decide (i < width f.mask) && bit value i)) ∧
    ∀ other, f.mask &&& other = 0 →
      field (setField word f.mask value) other = field word other :=
  ⟨(contiguous_of_mem hfields hf).bit_field_setField word value,
    fun _ hapart => (apart_setField hapart value).field_eq UInt32.and_self word⟩

end PlayStation.Bits
