import PlayStation.Proofs.Graphics.Orders
import PlayStation.Proofs.Layout

/-!
# The status word, bit by bit

Six kinds of orders write into the status word.  Each is described here by the bits that
it copies and where it puts them; all other bits stay.  No two settings share a bit,
save that the drawing mode brings a texture page of its own, so every bit shows one
setting or never changes (`statusBit`).
-/

namespace PlayStation

open Bits

namespace GraphicsStatus

variable (status word : UInt32) {i : Nat}

/-- Copying bit `lo` of a word to bit `n` of the status. -/
theorem bit_setFlag_slice {mask lo : UInt32} {n : Nat} (hlo : lo.toNat < 32)
    (hmask : ∀ i < 32, bit mask i = decide (i = n)) (hi : i < 32) :
    bit (setFlag status mask (slice word lo 1 != 0)) i =
      if i = n then bit word lo.toNat else bit status i := by
  rw [bit_setFlag _ _ _ hi, slice_one_ne_zero word hlo, hmask i hi]
  simp only [decide_eq_true_eq]

/-- Copying the bits under a mask. -/
theorem bit_replace {mask : UInt32} {n : Nat} (hmask : ∀ i < 32, bit mask i = decide (i < n))
    (hi : i < 32) :
    bit ((status &&& ~~~mask) ||| (word &&& mask)) i =
      if i < n then bit word i else bit status i := by
  rw [bit_or, bit_and, bit_and, bit_not _ hi, hmask i hi]
  by_cases hless : i < n <;> simp [hless]

/-- Copying the low bits of a word to a field with a name. -/
theorem bit_setField_of_mem {f : Field} (hf : f ∈ fields) {lo n : Nat}
    (hlow : lowestBit f.mask = lo) (hwidth : lowestBit f.mask + width f.mask = n) (hi : i < 32) :
    bit (setField status f.mask word) i =
      if lo ≤ i ∧ i < n then bit word (i - lo) else bit status i := by
  have hregister : fields ∈ registers := by simp [registers]
  rw [(contiguous_of_mem hregister hf).bit_setField status word hi, hwidth, hlow]

/-- The drawing mode copies the low eleven bits and puts bit 11 at place 15. -/
theorem bit_withDrawMode (hi : i < 32) :
    bit (withDrawMode status word) i =
      if i = 15 then bit word 11 else if i < 11 then bit word i else bit status i := by
  rw [withDrawMode, bit_setFlag_slice (n := 15) _ _ (by decide) (by decide) hi,
    bit_replace (n := 11) _ _ (by decide) hi]
  rfl

/-- A texture page copies the low nine bits and puts bit 11 at place 15. -/
theorem bit_withTexturePage (hi : i < 32) :
    bit (withTexturePage status word) i =
      if i = 15 then bit word 11 else if i < 9 then bit word i else bit status i := by
  rw [withTexturePage, bit_setFlag_slice (n := 15) _ _ (by decide) (by decide) hi,
    bit_replace (n := 9) _ _ (by decide) hi]
  rfl

/-- The mask settings are the low two bits, moved to places 11 and 12. -/
theorem bit_withMaskSettings (hi : i < 32) :
    bit (withMaskSettings status word) i =
      if 11 ≤ i ∧ i < 13 then bit word (i - 11) else bit status i := by
  rw [withMaskSettings, bit_setFlag_slice (n := 12) _ _ (by decide) (by decide) hi,
    bit_setFlag_slice (n := 11) _ _ (by decide) (by decide) hi]
  simp only [UInt32.reduceToNat]
  grind

/-- Whether the display is off is bit 0, moved to place 23. -/
theorem bit_displayDisable (hi : i < 32) :
    bit (setFlag status displayDisable (slice word 0 1 != 0)) i =
      if i = 23 then bit word 0 else bit status i :=
  bit_setFlag_slice status word (by decide) (by decide) hi

/-- The direction of transfers is the low two bits, moved to places 29 and 30. -/
theorem bit_dmaDirection (hi : i < 32) :
    bit (setField status dmaDirection word) i =
      if 29 ≤ i ∧ i < 31 then bit word (i - 29) else bit status i :=
  bit_setField_of_mem status word (f := ⟨"DMA_DIRECTION", dmaDirection⟩) (by simp [fields])
    (by decide) (by decide) hi

/-- The display mode copies six bits upwards from place 17, and two more to places 16 and 14. -/
theorem bit_withDisplayMode (hi : i < 32) :
    bit (withDisplayMode status word) i =
      if i = 14 then bit word 7 else if i = 16 then bit word 6
      else if 17 ≤ i ∧ i < 23 then bit word (i - 17) else bit status i := by
  have hresolution : bit (setField status horizontal word) i =
      if 17 ≤ i ∧ i < 19 then bit word (i - 17) else bit status i :=
    bit_setField_of_mem status word (f := ⟨"HRES_1", horizontal⟩) (by simp [fields])
      (by decide) (by decide) hi
  unfold withDisplayMode
  dsimp only
  rw [bit_setFlag_slice (n := 14) _ _ (by decide) (by decide) hi,
    bit_setFlag_slice (n := 16) _ _ (by decide) (by decide) hi,
    bit_setFlag_slice (n := 22) _ _ (by decide) (by decide) hi,
    bit_setFlag_slice (n := 21) _ _ (by decide) (by decide) hi,
    bit_setFlag_slice (n := 20) _ _ (by decide) (by decide) hi,
    bit_setFlag_slice (n := 19) _ _ (by decide) (by decide) hi, hresolution]
  simp only [UInt32.reduceToNat]
  grind

end GraphicsStatus
end PlayStation
