import PlayStation.Proofs.Graphics.CommandGrammar

/-!
# Strokes and the mask bit

A polygon is drawn stroke by stroke, and a stroke changes at most one pixel.  It leaves a
pixel alone that has the mask bit if that is checked, and what it draws has the mask bit
exactly if that is set (`Canvas.maskRespected_draw`), whatever the colour comes from: a
palette, a page or a pixel behind that have mask bits of their own, since no colour has one
(`Color.toPixel_and_maskBit`).

`MaskRespected` says this of two pixel stores.  It composes, so it holds between any two
moments of drawing (`pairwise_stores`).
-/

namespace PlayStation

/-! ## The mask bit of a pixel -/

/-- Whether a pixel has the mask bit. -/
def isMasked (pixel : UInt16) : Bool :=
  pixel &&& maskBit != 0

/-- The mask bit of what two pixels make together is that of either. -/
theorem or_and_maskBit (a b : UInt16) :
    (a ||| b) &&& maskBit = (a &&& maskBit) ||| (b &&& maskBit) := by
  apply UInt16.toBitVec_inj.mp
  ext i hi
  simp only [UInt16.toBitVec_or, UInt16.toBitVec_and, BitVec.getElem_or, BitVec.getElem_and,
    Bool.and_or_distrib_right]

set_option maxRecDepth 2000 in
/-- No channel of a colour reaches up to the mask bit. -/
theorem channel_and_maskBit (channel : UInt8) :
    ((channel >>> 3).toUInt16 <<< 10) &&& maskBit = 0 ∧
      ((channel >>> 3).toUInt16 <<< 5) &&& maskBit = 0 ∧
      (channel >>> 3).toUInt16 &&& maskBit = 0 := by
  revert channel
  exact Bits.forall_byte (by decide)

/-- No colour has the mask bit. -/
theorem Color.toPixel_and_maskBit (c : Color) : c.toPixel &&& maskBit = 0 := by
  rw [toPixel, or_and_maskBit, or_and_maskBit, (channel_and_maskBit c.r).1,
    (channel_and_maskBit c.g).2.1, (channel_and_maskBit c.b).2.2]
  rfl

/-- So the mask bit of a stored colour is the one that is set on purpose. -/
theorem Color.isMasked_toPixel_or (c : Color) (set : Bool) :
    isMasked (c.toPixel ||| (if set then maskBit else 0)) = set := by
  unfold isMasked
  rw [or_and_maskBit, toPixel_and_maskBit]
  cases set <;> rfl

/-- The pixel that is drawn is masked exactly if the setting says so, blended or not. -/
theorem Canvas.isMasked_pixel (c : Canvas) (back : UInt16) (color : Color) (isOpaque : Bool) :
    isMasked (c.pixel back color isOpaque) = c.setMask :=
  Color.isMasked_toPixel_or _ _

/-! ## Strokes -/

/-- What drawing makes of a pixel store under two mask settings. -/
structure MaskRespected (check set : Bool) (before after : Vram) : Prop where
  /-- Pixels with the mask bit stay, if they are to be checked. -/
  kept : check = true → ∀ x y, isMasked (before.get x y) = true →
    after.get x y = before.get x y
  /-- Pixels that have changed show the setting. -/
  marked : ∀ x y, after.get x y ≠ before.get x y → isMasked (after.get x y) = set

namespace MaskRespected

variable {check set : Bool} {v v' v'' : Vram}

/-- A store respects itself. -/
theorem refl (v : Vram) : MaskRespected check set v v :=
  ⟨fun _ _ _ _ => rfl, fun _ _ hchanged => absurd rfl hchanged⟩

/-- What respects a store respects every store that this one respects. -/
theorem trans (h : MaskRespected check set v v') (h' : MaskRespected check set v' v'') :
    MaskRespected check set v v'' := by
  refine ⟨fun hcheck x y hmasked => ?_, fun x y hchanged => ?_⟩
  · have hfirst := h.kept hcheck x y hmasked
    rw [← hfirst] at hmasked ⊢
    exact h'.kept hcheck x y hmasked
  · by_cases hlater : v''.get x y = v'.get x y
    · rw [hlater] at hchanged ⊢
      exact h.marked x y hchanged
    · exact h'.marked x y hlater

end MaskRespected

namespace Canvas

/-- Drawing a pixel respects the mask bit: a masked pixel is left alone where it is checked, and
what is drawn has the bit that is set. -/
theorem maskRespected_plot (c : Canvas) (x y : Nat) (color : Color) (u v : UInt8) (vram : Vram) :
    MaskRespected c.checkMask c.setMask vram (c.plot x y color u v vram) := by
  unfold plot
  dsimp only
  split
  · exact .refl vram
  · rename_i hfree
    split
    · exact .refl vram
    · rename_i color isOpaque _
      refine ⟨fun hcheck x' y' hmasked => ?_, fun x' y' hchanged => ?_⟩
      · rw [Vram.get_set]
        refine if_neg fun hsame => hfree ?_
        have hback : vram.get x y = vram.get x' y' := by
          simp only [Vram.get, Vram.index, hsame]
        rw [hcheck, hback]
        exact hmasked
      · rw [Vram.get_set] at hchanged ⊢
        split
        · exact c.isMasked_pixel ..
        · rename_i hother
          rw [if_neg hother] at hchanged
          exact absurd rfl hchanged

/-- **One fragment** respects the mask. -/
theorem maskRespected_draw (c : Canvas) (vram : Vram) (f : Fragment) :
    MaskRespected c.checkMask c.setMask vram (c.draw vram f) := by
  unfold draw
  dsimp only
  split
  · exact c.maskRespected_plot ..
  · exact .refl vram

end Canvas

/-- A fragment and what it is drawn on. -/
structure Stroke where
  canvas : Canvas
  fragment : Fragment

namespace Stroke

/-- Draws a stroke. -/
def draw (vram : Vram) (s : Stroke) : Vram :=
  s.canvas.draw vram s.fragment

/-- Whether a stroke is drawn under two mask settings. -/
def Under (check set : Bool) (s : Stroke) : Prop :=
  s.canvas.checkMask = check ∧ s.canvas.setMask = set

theorem Under.maskRespected {check set : Bool} {s : Stroke} (h : s.Under check set)
    (vram : Vram) : MaskRespected check set vram (s.draw vram) := by
  obtain ⟨rfl, rfl⟩ := h
  exact s.canvas.maskRespected_draw vram s.fragment

end Stroke

/-- The pixel stores that strokes lead to: the one before the first stroke and those after
each. -/
def stores (vram : Vram) : List Stroke → List Vram
  | [] => [vram]
  | s :: later => vram :: stores (s.draw vram) later

section Stores

variable {check set : Bool} {strokes : List Stroke} {vram v : Vram}

/-- The last of the stores is the one that all strokes leave. -/
theorem getLast?_stores (vram : Vram) (strokes : List Stroke) :
    (stores vram strokes).getLast? = some (strokes.foldl Stroke.draw vram) := by
  induction strokes generalizing vram with
  | nil => rfl
  | cons s later ih =>
      rw [stores, List.getLast?_cons, ih]
      rfl

/-- **Every store on the way respects the first one,** not only the last one. -/
theorem MaskRespected.of_mem_stores (hstrokes : ∀ s ∈ strokes, s.Under check set)
    (h : v ∈ stores vram strokes) : MaskRespected check set vram v := by
  induction strokes generalizing vram with
  | nil =>
      rw [List.mem_singleton.mp h]
      exact .refl vram
  | cons s later ih =>
      rcases List.mem_cons.mp h with rfl | hlater
      · exact .refl v
      · have hfirst := (hstrokes s List.mem_cons_self).maskRespected vram
        exact hfirst.trans (ih (fun s hs => hstrokes s (List.mem_cons_of_mem _ hs)) hlater)

/-- **Strokes under the same settings** respect the mask from any moment to any later one. -/
theorem pairwise_stores (hstrokes : ∀ s ∈ strokes, s.Under check set) (vram : Vram) :
    (stores vram strokes).Pairwise (MaskRespected check set) := by
  induction strokes generalizing vram with
  | nil => exact List.pairwise_singleton _ _
  | cons s later ih =>
      have hlater : ∀ s ∈ later, s.Under check set :=
        fun s hs => hstrokes s (List.mem_cons_of_mem _ hs)
      have hfirst := (hstrokes s List.mem_cons_self).maskRespected vram
      exact .cons (fun v hv => hfirst.trans (.of_mem_stores hlater hv)) (ih hlater _)

end Stores

end PlayStation
