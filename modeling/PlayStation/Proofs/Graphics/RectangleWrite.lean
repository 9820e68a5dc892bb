import PlayStation.Proofs.Graphics.Reachable
import PlayStation.Proofs.Graphics.Rectangle

/-!
# Writing a rectangle of pixels

A rectangle given by sixteen-bit numbers and a list of pixels is written as a whole or not
at all (`Graphics.rectangle_written`).  Written, it holds the pixels row by row
(`Vram.Overwritten`), and although places wrap at the edges of the pixel store, none of its
places does: each row stands in the storage in one piece (`Vram.RowsStraight`).

The pixels are put one by one (`Vram.fold_set_eq_putPixels`), so all that is known of pixels
that are put into a rectangle is true of them.
-/

namespace PlayStation

namespace Vram

/-- `after` is `v` with other pixels in a rectangle, given row by row. -/
structure Overwritten (v after : Vram) (x y w h : Nat) (pixels : Array UInt16) : Prop where
  inside : ∀ i < w, ∀ j < h, pixels[j * w + i]? = some (after.get (x + i) (y + j))
  outside : ∀ column < width, ∀ row < height,
    ¬ (x ≤ column ∧ column < x + w ∧ y ≤ row ∧ row < y + h) →
      after.get column row = v.get column row

/-- A rectangle whose places do not wrap. -/
structure RowsStraight (x y w h : UInt16) : Prop where
  /-- The number of a row, counted in sixteen bits. -/
  row : ∀ j < h.toNat, (y + UInt16.ofNat j).toNat = y.toNat + j
  place : ∀ i < w.toNat, ∀ j < h.toNat,
    index (x.toNat + i) (y.toNat + j) = (y.toNat + j) * width + (x.toNat + i)
  /-- From its first place on a row ends inside the storage. -/
  inside : ∀ j < h.toNat, index x.toNat (y.toNat + j) + w.toNat ≤ size

/-! ## The pixels one by one -/

/-- Coordinates wrap. -/
theorem set_mod (v : Vram) (x y : Nat) (pixel : UInt16) :
    v.set (x % 1024) (y % 512) pixel = v.set x y pixel := by
  have hindex : index (x % 1024) (y % 512) = index x y := by
    simp only [index, width, height, Nat.mod_mod]
  simp only [set, hindex]

/-- The last of some pixels is put behind the others. -/
theorem putPixels_concat (v : Vram) (t : Transfer) (n : Nat) (pixels : List UInt16)
    (pixel : UInt16) :
    v.putPixels t n (pixels ++ [pixel]) =
      (v.putPixels t n pixels).putPixel t (n + pixels.length) pixel := by
  induction pixels generalizing v n with
  | nil => rfl
  | cons first rest ih =>
      rw [List.cons_append, putPixels, ih, putPixels, List.length_cons, Nat.add_right_comm,
        Nat.add_assoc]

/-- Setting the pixels of a rectangle in their order puts them into it. -/
theorem fold_set_eq_putPixels (v : Vram) (t : Transfer) {pixels : Array UInt16}
    (hsize : pixels.size = t.pixelCount) :
    pixels.size.fold (fun k _ v => v.set (t.x + k % t.width) (t.y + k / t.width) pixels[k]) v =
      v.putPixels t 0 pixels.toList := by
  have hfirst (n : Nat) (hn : n ≤ pixels.size) :
      n.fold (fun k _ v => v.set (t.x + k % t.width) (t.y + k / t.width) pixels[k]) v =
        v.putPixels t 0 (pixels.toList.take n) := by
    induction n with
    | zero => rfl
    | succ n ih =>
        have hlast : pixels.toList.take (n + 1) = pixels.toList.take n ++ [pixels[n]] :=
          List.take_succ_eq_append_getElem hn
        have hlength : (pixels.toList.take n).length = n := by
          rw [List.length_take, Array.length_toList]
          omega
        rw [Nat.fold_succ, ih (by omega), hlast, putPixels_concat, hlength, Nat.zero_add, putPixel,
          if_pos (by omega), set_mod]
  rw [hfirst pixels.size (Nat.le_refl _), ← Array.length_toList, List.take_length]

/-- Pixels that fill a rectangle inside the store overwrite it. -/
theorem overwritten_putPixels (v : Vram) {t : Transfer} (hx : t.x + t.width ≤ width)
    (hy : t.y + t.height ≤ height) {pixels : Array UInt16} (hsize : pixels.size = t.pixelCount) :
    v.Overwritten (v.putPixels t 0 pixels.toList) t.x t.y t.width t.height pixels where
  inside := by
    intro i hi j hj
    have ht : t.Fits := ⟨Nat.zero_lt_of_lt hi, by omega, by omega⟩
    have hplace : t.place (j * t.width + i) = (t.x + i, t.y + j) := by
      rw [Transfer.place_mul_add hi, Nat.mod_eq_of_lt (by omega), Nat.mod_eq_of_lt (by omega)]
    rw [← Array.getElem?_toList,
      getElem?_eq_pixelAt ht v (Nat.le_of_eq hsize.symm) (Transfer.mul_add_lt_pixelCount hi hj),
      hplace]
    rfl
  outside := by
    intro column hcolumn row hrow houtside
    change (v.putPixels t 0 pixels.toList).pixelAt (column, row) = v.pixelAt (column, row)
    refine pixelAt_putPixels_outside _ v 0 hcolumn hrow ?_
    intro n hn hplace
    have ht : t.Fits := ⟨Nat.pos_of_mul_pos_right (Nat.zero_lt_of_lt hn), by omega, by omega⟩
    have hi : n % t.width < t.width := Nat.mod_lt n ht.width_pos
    have hj : n / t.width < t.height := Transfer.div_lt_height ht hn
    obtain ⟨hcolumn', hrow'⟩ := Prod.mk.inj hplace
    rw [Nat.mod_eq_of_lt (by omega)] at hcolumn' hrow'
    subst hcolumn' hrow'
    exact houtside ⟨Nat.le_add_right _ _, by omega, Nat.le_add_right _ _, by omega⟩

/-- **A rectangle that fits** is overwritten. -/
theorem overwritten_of_fits (v : Vram) {x y w h : Nat} {pixels : Array UInt16}
    (hx : x + w ≤ width) (hy : y + h ≤ height) (hsize : pixels.size = w * h) :
    ∃ after, v.writeRect x y w h pixels = .ok after ∧ v.Overwritten after x y w h pixels := by
  have hholds : (holdsRect x y w h && pixels.size == w * h) = true := by
    simp [holdsRect, hx, hy, hsize]
  have hwrite : v.writeRect x y w h pixels =
      .ok (v.putPixels ⟨x, y, w, h, 0, 0⟩ 0 pixels.toList) := by
    rw [writeRect, if_pos hholds]
    exact congrArg Except.ok (v.fold_set_eq_putPixels ⟨x, y, w, h, 0, 0⟩ hsize)
  exact ⟨_, hwrite, v.overwritten_putPixels (t := ⟨x, y, w, h, 0, 0⟩) hx hy hsize⟩

/-- No place of a rectangle that fits wraps. -/
theorem rowsStraight_of_fits {x y w h : UInt16} (hx : x.toNat + w.toNat ≤ width)
    (hy : y.toNat + h.toNat ≤ height) : RowsStraight x y w h where
  row := by
    intro j hj
    rw [height] at hy
    rw [UInt16.toNat_add, UInt16.toNat_ofNat']
    omega
  place := by
    intro i hi j hj
    rw [index, Nat.mod_eq_of_lt (by omega), Nat.mod_eq_of_lt (by omega)]
  inside := by
    intro j hj
    simp only [index, width, height, size] at hx hy ⊢
    omega

end Vram

namespace Graphics

/-- **A rectangle is written as a whole or not at all.**  It is written exactly if it lies in
the pixel store and there is one pixel for each of its places.  Then its pixels are the new
ones, row by row, and nothing else has changed; no place of it wraps.  Otherwise its corner
is reported and nothing has changed. -/
theorem rectangle_written (g : Graphics) (x y w h : UInt16) (pixels : Array UInt16) :
    let fits := x.toNat + w.toNat ≤ Vram.width ∧ y.toNat + h.toNat ≤ Vram.height ∧
      pixels.size = w.toNat * h.toNat
    let written := g.perform (.writeRect x.toNat y.toNat w.toNat h.toNat pixels)
    (fits → ∃ vram, written = (.done, { g with vram }) ∧
      g.vram.Overwritten vram x.toNat y.toNat w.toNat h.toNat pixels ∧
      Vram.RowsStraight x y w h) ∧
    (¬ fits → written = (.refused ⟨x.toNat, y.toNat⟩, g)) := by
  intro fits written
  refine ⟨fun ⟨hx, hy, hsize⟩ => ?_, fun hno => ?_⟩
  · obtain ⟨vram, hwrite, hover⟩ := g.vram.overwritten_of_fits hx hy hsize
    refine ⟨vram, ?_, hover, Vram.rowsStraight_of_fits hx hy⟩
    dsimp only [written, perform, writeRect]
    rw [hwrite]
    rfl
  · have hrefused : ¬ (Vram.holdsRect x.toNat y.toNat w.toNat h.toNat &&
        pixels.size == w.toNat * h.toNat) = true := by
      simpa [Vram.holdsRect, fits, and_assoc] using hno
    dsimp only [written, perform, writeRect, Vram.writeRect]
    rw [if_neg hrefused]
    rfl

/-- Four pixels in the last corner of the store, no pixels behind it, and four pixels that
are one column too far right. -/
theorem rectangle_written_in_corner :
    let g := Graphics.initial .drop
    let pixels : Array UInt16 := #[1, 2, 3, 4]
    (∃ vram, g.perform (.writeRect 1022 510 2 2 pixels) = (.done, { g with vram }) ∧
      vram.get 1022 511 = 3 ∧ vram.get 0 0 = 0) ∧
    (∃ vram, g.perform (.writeRect 1024 512 0 0 #[]) = (.done, { g with vram }) ∧
      vram.get 0 0 = 0) ∧
    g.perform (.writeRect 1023 0 2 2 pixels) = (.refused ⟨1023, 0⟩, g) := by
  intro g pixels
  have hblank : g.vram.get 0 0 = 0 := Vector.getElem_replicate _
  refine ⟨?_, ?_, ?_⟩
  · obtain ⟨vram, hwritten, hover, -⟩ := (rectangle_written g 1022 510 2 2 pixels).1 (by decide)
    refine ⟨vram, hwritten, ?_, ?_⟩
    · exact (Option.some.inj (hover.inside 0 (by decide) 1 (by decide))).symm
    · rw [hover.outside 0 (by decide) 0 (by decide) (by decide), hblank]
  · obtain ⟨vram, hwritten, hover, -⟩ := (rectangle_written g 1024 512 0 0 #[]).1 (by decide)
    exact ⟨vram, hwritten, (hover.outside 0 (by decide) 0 (by decide) (by decide)).trans hblank⟩
  · exact (rectangle_written g 1023 0 2 2 pixels).2 (by decide)

end Graphics
end PlayStation
