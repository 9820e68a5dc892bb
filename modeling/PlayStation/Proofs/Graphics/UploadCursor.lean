import PlayStation.Proofs.Graphics.CommandStream

/-!
# The upload cursor

The cursor of a rectangle that has been stepped `n` times stands at the `n`-th
pixel, counted row by row (`Transfer.after`).  So copying a pixel word at the
cursor puts its two pixels where `Vram.putPixel` says (`uploadPixels_after`).
-/

namespace PlayStation

namespace Transfer

/-- The cursor behind the first `n` pixels. -/
def after (t : Transfer) (n : Nat) : Transfer :=
  { t with currentX := n % t.width, currentY := n / t.width }

/-- No transfer is without columns, since a width of 0 stands for the full one. -/
theorem ofWords_width_pos (position size : UInt32) : 0 < (ofWords position size).width :=
  Nat.succ_pos _

/-- No transfer is without rows, since a height of 0 stands for the full one. -/
theorem ofWords_height_pos (position size : UInt32) : 0 < (ofWords position size).height :=
  Nat.succ_pos _

/-- A new cursor stands at the first pixel. -/
theorem after_zero (position size : UInt32) :
    (ofWords position size).after 0 = ofWords position size := by
  simp only [after, Nat.zero_mod, Nat.zero_div]
  rfl

/-- Quotient and remainder of the next number. -/
theorem succ_divMod {n w : Nat} (hw : 0 < w) :
    ((n + 1) / w, (n + 1) % w) = if n % w + 1 = w then (n / w + 1, 0) else (n / w, n % w + 1) := by
  have hn := Nat.div_add_mod n w
  have hlt := Nat.mod_lt n hw
  by_cases hlast : n % w + 1 = w
  · have hsucc : n + 1 = w * (n / w + 1) := by
      rw [Nat.mul_add, Nat.mul_one]
      omega
    rw [if_pos hlast, hsucc, Nat.mul_div_cancel_left _ hw, Nat.mul_mod_right]
  · have hsucc : n + 1 = n % w + 1 + w * (n / w) := by omega
    rw [if_neg hlast, Prod.mk.injEq]
    constructor
    · rw [hsucc, Nat.add_mul_div_left _ _ hw, Nat.div_eq_of_lt (by omega), Nat.zero_add]
    · rw [hsucc, Nat.add_mul_mod_self_left, Nat.mod_eq_of_lt (by omega)]

/-- One step of the cursor is one pixel further, also from the end of a row to the next one. -/
theorem step_after {t : Transfer} (hw : 0 < t.width) (n : Nat) :
    (t.after n).step = t.after (n + 1) := by
  have hnext := succ_divMod (n := n) hw
  unfold step after
  by_cases hlast : n % t.width + 1 = t.width
  · rw [if_pos hlast, Prod.mk.injEq] at hnext
    rw [if_pos hlast, hnext.1, hnext.2]
  · rw [if_neg hlast, Prod.mk.injEq] at hnext
    rw [if_neg hlast, hnext.1, hnext.2]

/-- A transfer is done once all its pixels are behind it. -/
theorem isDone_after {t : Transfer} (hw : 0 < t.width) (n : Nat) :
    (t.after n).isDone = decide (t.pixelCount ≤ n) := by
  unfold isDone after pixelCount
  rw [decide_eq_decide, Nat.le_div_iff_mul_le hw, Nat.mul_comm]

/-- Every pixel word but the last has two pixels, and the last one has at least
one. -/
theorem lt_pixelCount {t : Transfer} {k : Nat} (hk : k < t.wordCount) :
    2 * k < t.pixelCount ∧ (k + 1 < t.wordCount → 2 * k + 1 < t.pixelCount) := by
  unfold wordCount at hk ⊢
  omega

/-- Every transfer has at least one word. -/
theorem ofWords_wordCount_pos (position size : UInt32) : 0 < (ofWords position size).wordCount := by
  have hpos : 0 < (ofWords position size).pixelCount :=
    Nat.mul_pos (ofWords_width_pos _ _) (ofWords_height_pos _ _)
  unfold wordCount
  omega

end Transfer

namespace Graphics

/-- **A pixel word is put where it belongs.**  Copying the `k`-th word of an upload
at the cursor puts its pixels, and unless it was the last word the cursor ends
up behind both. -/
theorem uploadPixels_after (v : Vram) {t : Transfer} (hw : 0 < t.width) {k : Nat}
    (hk : k < t.wordCount) (word : UInt32) :
    (uploadPixels v (t.after (2 * k)) (pixelsOf word)).1 =
        (v.putPixel t (2 * k) word.toUInt16).putPixel t (2 * k + 1) (word >>> 16).toUInt16 ∧
      (k + 1 < t.wordCount →
        (uploadPixels v (t.after (2 * k)) (pixelsOf word)).2 = t.after (2 * (k + 1))) := by
  obtain ⟨hfirst, hsecond⟩ := t.lt_pixelCount hk
  have hput (v : Vram) {n : Nat} (hn : n < t.pixelCount) (pixel : UInt16) :
      v.set (t.after n).position.1 (t.after n).position.2 pixel = v.putPixel t n pixel := by
    rw [Vram.putPixel, if_pos hn]
    rfl
  have hgo {n : Nat} (hn : n < t.pixelCount) : ¬ (t.after n).isDone = true := by
    rw [Transfer.isDone_after hw, decide_eq_true_eq]
    omega
  simp only [pixelsOf, uploadPixels, if_neg (hgo hfirst), hput v hfirst, Transfer.step_after hw]
  by_cases hn : 2 * k + 1 < t.pixelCount
  · simp only [if_neg (hgo hn), hput _ hn]
    exact ⟨trivial, fun _ => rfl⟩
  · have hdone : (t.after (2 * k + 1)).isDone = true := by
      rw [Transfer.isDone_after hw, decide_eq_true_eq]
      omega
    rw [if_pos hdone]
    exact ⟨(if_neg hn).symm, fun hmore => absurd (hsecond hmore) hn⟩

end Graphics
end PlayStation
