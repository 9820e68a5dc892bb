import PlayStation.Graphics.Control
import PlayStation.Proofs.Graphics.UploadCursor

/-!
# The pixels of a rectangle

A rectangle that is named by words is at most as large as the pixel store, so even
where it wraps at an edge its pixels lie in different places
(`Transfer.place_injective`).  Putting pixels one after the other into it therefore
leaves each of them where it was put (`Vram.pixelAt_putPixels`), and reading it gives
them back in the same order (`Graphics.nextPixel_after`).
-/

namespace PlayStation

namespace Transfer

/-- Where the `n`-th pixel lies, counted row by row. -/
def place (t : Transfer) (n : Nat) : Nat × Nat :=
  ((t.x + n % t.width) % Vram.width, (t.y + n / t.width) % Vram.height)

/-- A rectangle that has columns and is no larger than the pixel store. -/
structure Fits (t : Transfer) : Prop where
  width_pos : 0 < t.width
  width_le : t.width ≤ Vram.width
  height_le : t.height ≤ Vram.height

/-- The width is the low ten bits of the size word, and 0 stands for 1024. -/
theorem ofWords_width (position size : UInt32) :
    (ofWords position size).width =
      if size.toNat % 1024 = 0 then 1024 else size.toNat % 1024 := by
  have hmask : ((size - 1) &&& 0x3FF).toNat = (size - 1).toNat % 1024 := by
    rw [UInt32.toNat_and]
    exact Nat.and_two_pow_sub_one_eq_mod _ 10
  have hless : (size - 1).toNat = (4294967296 - 1 + size.toNat) % 4294967296 := UInt32.toNat_sub ..
  have hlt := size.toNat_lt
  change ((size - 1) &&& 0x3FF).toNat + 1 = _
  rw [hmask, hless]
  split <;> omega

/-- The height is nine bits of the size word, and 0 stands for 512. -/
theorem ofWords_height (position size : UInt32) :
    (ofWords position size).height =
      if size.toNat / 65536 % 512 = 0 then 512 else size.toNat / 65536 % 512 := by
  have hmask : (((size >>> 16) - 1) &&& 0x1FF).toNat = ((size >>> 16) - 1).toNat % 512 := by
    rw [UInt32.toNat_and]
    exact Nat.and_two_pow_sub_one_eq_mod _ 9
  have hless : ((size >>> 16) - 1).toNat =
      (4294967296 - 1 + (size >>> 16).toNat) % 4294967296 := UInt32.toNat_sub ..
  have hshift : (size >>> 16).toNat = size.toNat / 65536 := by
    rw [UInt32.toNat_shiftRight, Nat.shiftRight_eq_div_pow]
    rfl
  have hlt := size.toNat_lt
  change (((size >>> 16) - 1) &&& 0x1FF).toNat + 1 = _
  rw [hmask, hless, hshift]
  split <;> omega

/-- A rectangle that words name fits. -/
theorem ofWords_fits (position size : UInt32) : (ofWords position size).Fits where
  width_pos := ofWords_width_pos position size
  width_le := by
    rw [ofWords_width, Vram.width]
    split <;> omega
  height_le := by
    rw [ofWords_height, Vram.height]
    split <;> omega

variable {t : Transfer}

/-- The place of a pixel by its column and its row. -/
theorem place_mul_add {i : Nat} (hi : i < t.width) (j : Nat) :
    t.place (j * t.width + i) = ((t.x + i) % Vram.width, (t.y + j) % Vram.height) := by
  have hmod : (j * t.width + i) % t.width = i := by
    rw [Nat.mul_add_mod_self_right, Nat.mod_eq_of_lt hi]
  have hdiv : (j * t.width + i) / t.width = j := by
    rw [Nat.mul_comm, Nat.mul_add_div (Nat.zero_lt_of_lt hi), Nat.div_eq_of_lt hi, Nat.add_zero]
  rw [place, hmod, hdiv]

/-- Column and row make up an index below the number of pixels. -/
theorem mul_add_lt_pixelCount {i j : Nat} (hi : i < t.width) (hj : j < t.height) :
    j * t.width + i < t.pixelCount := by
  have hrows : (j + 1) * t.width ≤ t.height * t.width := Nat.mul_le_mul_right _ hj
  rw [Nat.add_mul, Nat.one_mul] at hrows
  rw [pixelCount, Nat.mul_comm t.width]
  omega

/-- And an index below that number has a row of the rectangle. -/
theorem div_lt_height (ht : t.Fits) {n : Nat} (hn : n < t.pixelCount) : n / t.width < t.height :=
  (Nat.div_lt_iff_lt_mul ht.width_pos).mpr (by rwa [Nat.mul_comm])

/-- **No two pixels of a rectangle share a place.** -/
theorem place_injective (ht : t.Fits) {m n : Nat} (hm : m < t.pixelCount) (hn : n < t.pixelCount)
    (hplace : t.place m = t.place n) : m = n := by
  obtain ⟨hx, hy⟩ := Prod.mk.inj hplace
  have hwidth := ht.width_le
  have hheight := ht.height_le
  have hcolumn : m % t.width = n % t.width := by
    have hmw := Nat.mod_lt m ht.width_pos
    have hnw := Nat.mod_lt n ht.width_pos
    simp only [Vram.width] at hx hwidth
    omega
  have hrow : m / t.width = n / t.width := by
    have hmh : m / t.width < 512 := Nat.lt_of_lt_of_le (div_lt_height ht hm) hheight
    have hnh : n / t.width < 512 := Nat.lt_of_lt_of_le (div_lt_height ht hn) hheight
    simp only [Vram.height] at hy
    generalize m / t.width = row at hmh hy ⊢
    generalize n / t.width = row' at hnh hy ⊢
    omega
  rw [← Nat.div_add_mod m t.width, ← Nat.div_add_mod n t.width, hcolumn, hrow]

/-- Every place is in the pixel store. -/
theorem place_lt (t : Transfer) (n : Nat) :
    (t.place n).1 < Vram.width ∧ (t.place n).2 < Vram.height :=
  ⟨Nat.mod_lt _ (by decide), Nat.mod_lt _ (by decide)⟩

end Transfer

namespace Vram

variable {t : Transfer}

/-- The pixel at a place. -/
def pixelAt (v : Vram) (place : Nat × Nat) : UInt16 :=
  v.get place.1 place.2

/-- A pixel that is put changes its own place and no other. -/
theorem pixelAt_putPixel (v : Vram) {n : Nat} (hn : n < t.pixelCount) (pixel : UInt16)
    {place : Nat × Nat} (hx : place.1 < width) (hy : place.2 < height) :
    (v.putPixel t n pixel).pixelAt place =
      if t.place n = place then pixel else v.pixelAt place := by
  have hput : v.putPixel t n pixel = v.set (t.place n).1 (t.place n).2 pixel := if_pos hn
  obtain ⟨hnx, hny⟩ := t.place_lt n
  rw [hput, pixelAt, get_set, Nat.mod_eq_of_lt hnx, Nat.mod_eq_of_lt hny, Nat.mod_eq_of_lt hx,
    Nat.mod_eq_of_lt hy]
  simp only [Prod.ext_iff]
  rfl

/-- Puts pixels one after the other, from the `n`-th on. -/
def putPixels (v : Vram) (t : Transfer) (n : Nat) : List UInt16 → Vram
  | [] => v
  | pixel :: rest => (v.putPixel t n pixel).putPixels t (n + 1) rest

/-- What is put into a rectangle changes no place outside it. -/
theorem pixelAt_putPixels_outside (pixels : List UInt16) (v : Vram) (n : Nat)
    {place : Nat × Nat} (hx : place.1 < width) (hy : place.2 < height)
    (houtside : ∀ m < t.pixelCount, t.place m ≠ place) :
    (v.putPixels t n pixels).pixelAt place = v.pixelAt place := by
  induction pixels generalizing v n with
  | nil => rfl
  | cons pixel rest ih =>
      rw [putPixels, ih]
      by_cases hn : n < t.pixelCount
      · rw [pixelAt_putPixel v hn pixel hx hy, if_neg (houtside n hn)]
      · rw [putPixel, if_neg hn]

/-- **Each pixel stays where it was put**: the places before the `n`-th keep what they
had, and the others have the new pixels in their order. -/
theorem pixelAt_putPixels (ht : t.Fits) (pixels : List UInt16) (v : Vram) (n : Nat) {m : Nat}
    (hm : m < t.pixelCount) :
    (v.putPixels t n pixels).pixelAt (t.place m) =
      if m < n then v.pixelAt (t.place m) else pixels.getD (m - n) (v.pixelAt (t.place m)) := by
  induction pixels generalizing v n with
  | nil => rw [putPixels, List.getD_nil, ite_self]
  | cons pixel rest ih =>
      obtain ⟨hx, hy⟩ := t.place_lt m
      have hput : (v.putPixel t n pixel).pixelAt (t.place m) =
          if n = m then pixel else v.pixelAt (t.place m) := by
        by_cases hn : n < t.pixelCount
        · rw [pixelAt_putPixel v hn pixel hx hy]
          by_cases hnm : n = m
          · rw [if_pos (by rw [hnm]), if_pos hnm]
          · rw [if_neg fun hsame => hnm (Transfer.place_injective ht hn hm hsame), if_neg hnm]
        · rw [putPixel, if_neg hn, if_neg (by omega)]
      rw [putPixels, ih, hput]
      rcases Nat.lt_trichotomy m n with hbefore | rfl | hbehind
      · rw [if_pos hbefore, if_pos (by omega), if_neg (by omega)]
      · rw [if_pos (by omega), if_pos rfl, if_neg (by omega), Nat.sub_self]
        rfl
      · obtain ⟨k, rfl⟩ := Nat.exists_eq_add_of_lt hbehind
        rw [if_neg (by omega), if_neg (by omega), if_neg (by omega),
          show n + k + 1 - (n + 1) = k by omega, show n + k + 1 - n = k + 1 by omega]
        rfl

/-- Pixels that fill a rectangle can be seen in it. -/
theorem getElem?_eq_pixelAt (ht : t.Fits) (v : Vram) {pixels : List UInt16}
    (hfull : t.pixelCount ≤ pixels.length) {n : Nat} (hn : n < t.pixelCount) :
    pixels[n]? = some ((v.putPixels t 0 pixels).pixelAt (t.place n)) := by
  have hlt : n < pixels.length := Nat.lt_of_lt_of_le hn hfull
  rw [pixelAt_putPixels ht pixels v 0 hn, if_neg (Nat.not_lt_zero n), Nat.sub_zero,
    List.getElem?_eq_getElem hlt, ← List.getElem_eq_getD]

end Vram

namespace Graphics

/-- Reading at the cursor behind `n` pixels gives the next one, or 0 behind the last. -/
theorem nextPixel_after (v : Vram) {t : Transfer} (hw : 0 < t.width) (n : Nat) :
    nextPixel v (t.after n) =
      if n < t.pixelCount then (v.pixelAt (t.place n), t.after (n + 1)) else (0, t.after n) := by
  unfold nextPixel
  rw [Transfer.isDone_after hw]
  by_cases hn : n < t.pixelCount
  · rw [if_neg (by rw [decide_eq_true_eq]; omega), if_pos hn, Transfer.step_after hw]
    rfl
  · rw [if_pos (by rw [decide_eq_true_eq]; omega), if_neg hn]

end Graphics
end PlayStation
