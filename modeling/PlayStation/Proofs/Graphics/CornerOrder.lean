import PlayStation.Proofs.Graphics.TriangleRows
import PlayStation.Graphics.Polygon

/-!
# The order of a triangle's corners

Sorting the corners of a triangle by their rows undoes any change of their order, save for
corners that share a row (`Triangle.arranged_of_perm`).  Two such corners are the feet of one
wedge, which is made from them in the order of their columns (`Wedge.ofCorners_comm`); and if
they share the column as well, its two edges are the same and its rows are empty
(`Wedge.Narrow.fragments`).

So a triangle has the same fragments in the same order, however its corners are given
(`corner_order_irrelevant`).
-/

namespace PlayStation

/-! ## The feet of a wedge -/

namespace Wedge

variable {w : Wedge} {s : Span} {a b : Corner}

/-- The columns of two feet decide which one is on the left. -/
theorem ofCorners_comm (apex : Corner) (h : a.x ≠ b.x) :
    ofCorners apex a b = ofCorners apex b a := by
  unfold ofCorners
  by_cases hless : b.x < a.x
  · rw [if_pos hless, if_neg (by omega)]
  · rw [if_neg hless, if_pos (by omega)]

/-- Both edges of a wedge lead to one point. -/
def Narrow (w : Wedge) : Prop :=
  w.left.x = w.right.x ∧ w.left.y = w.right.y

/-- A wedge to one point is narrow. -/
theorem narrow_ofCorners (apex : Corner) (hx : a.x = b.x) (hy : a.y = b.y) :
    (ofCorners apex a b).Narrow := by
  unfold ofCorners
  rw [if_neg (by omega)]
  exact ⟨hx, hy⟩

/-- Both edges of a narrow wedge have one slope, whatever it is rounded to. -/
theorem Narrow.slope_eq (h : w.Narrow) : slope w.apex w.left = slope w.apex w.right := by
  unfold slope
  rw [h.1, h.2]

/-- Edges that lead to one point never part, so there is nothing between them. -/
theorem Narrow.spansDown (h : w.Narrow) {y : Int} {x : Float32} {count : Nat}
    (hs : s ∈ w.spansDown y x x count) : s.x1 = s.x2 := by
  induction count generalizing y x with
  | zero => cases hs
  | succ count ih =>
      rw [Wedge.spansDown, h.slope_eq] at hs
      rcases List.mem_cons.mp hs with rfl | hs
      · rfl
      · exact ih hs

/-- Walked upward, the spans of a narrow wedge are empty. -/
theorem Narrow.spansUp (h : w.Narrow) {y : Int} {x : Float32} {count : Nat}
    (hs : s ∈ w.spansUp y x x count) : s.x1 = s.x2 := by
  induction count generalizing y x with
  | zero => cases hs
  | succ count ih =>
      rw [Wedge.spansUp, h.slope_eq] at hs
      rcases List.mem_cons.mp hs with rfl | hs
      · rfl
      · exact ih hs

/-- A narrow wedge has no fragments, in either direction. -/
theorem Narrow.fragments (h : w.Narrow) :
    w.downward.flatMap Span.fragments = [] ∧ w.upward.flatMap Span.fragments = [] := by
  simp only [List.flatMap_eq_nil_iff]
  exact ⟨fun _ hs => Span.fragments_eq_nil (h.spansDown hs),
    fun _ hs => Span.fragments_eq_nil (h.spansUp hs)⟩

/-- **The feet of a wedge may be given in either order.** -/
theorem fragments_ofCorners_comm (apex : Corner) (hy : a.y = b.y) :
    (ofCorners apex a b).downward.flatMap Span.fragments =
        (ofCorners apex b a).downward.flatMap Span.fragments ∧
      (ofCorners apex a b).upward.flatMap Span.fragments =
        (ofCorners apex b a).upward.flatMap Span.fragments := by
  by_cases hx : a.x = b.x
  · obtain ⟨hdown, hup⟩ := (narrow_ofCorners apex hx hy).fragments
    obtain ⟨hdown', hup'⟩ := (narrow_ofCorners apex hx.symm hy.symm).fragments
    exact ⟨hdown.trans hdown'.symm, hup.trans hup'.symm⟩
  · rw [ofCorners_comm apex hx]
    exact ⟨rfl, rfl⟩

end Wedge

/-! ## Sorting the corners -/

namespace Triangle

/-- The corners in their order. -/
def corners (t : Triangle) : List Corner :=
  [t.a, t.b, t.c]

variable {t t' : Triangle}

/-- A choice between two orders of the corners is such an order. -/
theorem corners_ite {p : Prop} [Decidable p] (h : t'.corners.Perm t.corners) :
    (if p then t' else t).corners.Perm t.corners := by
  split
  · exact h
  · exact .refl _

/-- Sorting changes the order of the corners only. -/
theorem sorted_perm (t : Triangle) : t.sorted.corners.Perm t.corners := by
  have hfirst (t : Triangle) : (⟨t.b, t.a, t.c⟩ : Triangle).corners.Perm t.corners := .swap ..
  have hlast (t : Triangle) : (⟨t.a, t.c, t.b⟩ : Triangle).corners.Perm t.corners :=
    .cons _ (.swap ..)
  have houter (t : Triangle) : (⟨t.c, t.b, t.a⟩ : Triangle).corners.Perm t.corners :=
    ((hfirst _).trans (hlast _)).trans (hfirst _)
  exact (corners_ite (hlast _)).trans ((corners_ite (houter _)).trans (corners_ite (hfirst _)))

/-- Two corners can be put into two orders. -/
theorem eq_or_swapped {a b c d : Corner} (h : [a, b].Perm [c, d]) :
    (a = c ∧ b = d) ∨ (a = d ∧ b = c) := by
  have hmem : a ∈ [c, d] := h.mem_iff.mp List.mem_cons_self
  rcases List.mem_cons.mp hmem with rfl | hmem
  · exact .inl ⟨rfl, List.singleton_inj.mp (List.perm_singleton.mp ((List.perm_cons a).mp h))⟩
  · obtain rfl := List.mem_singleton.mp hmem
    have hrest := (List.perm_cons a).mp (h.trans (.swap ..))
    exact .inr ⟨rfl, List.singleton_inj.mp (List.perm_singleton.mp hrest)⟩

/-- The six orders of three corners. -/
theorem eq_arrangement (h : t'.corners.Perm t.corners) :
    (t' = ⟨t.a, t.b, t.c⟩ ∨ t' = ⟨t.a, t.c, t.b⟩) ∨ (t' = ⟨t.b, t.a, t.c⟩ ∨ t' = ⟨t.b, t.c, t.a⟩) ∨
      (t' = ⟨t.c, t.a, t.b⟩ ∨ t' = ⟨t.c, t.b, t.a⟩) := by
  obtain ⟨a, b, c⟩ := t
  obtain ⟨a', b', c'⟩ := t'
  have hmem : a' ∈ [a, b, c] := h.mem_iff.mp List.mem_cons_self
  have hpair {c d : Corner} (hrest : [b', c'].Perm [c, d]) :
      (⟨a', b', c'⟩ : Triangle) = ⟨a', c, d⟩ ∨ (⟨a', b', c'⟩ : Triangle) = ⟨a', d, c⟩ := by
    rcases eq_or_swapped hrest with ⟨rfl, rfl⟩ | ⟨rfl, rfl⟩
    · exact .inl rfl
    · exact .inr rfl
  rcases List.mem_cons.mp hmem with rfl | hmem
  · exact .inl (hpair ((List.perm_cons a').mp h))
  · rcases List.mem_cons.mp hmem with rfl | hmem
    · exact .inr (.inl (hpair ((List.perm_cons a').mp (h.trans (.swap ..)))))
    · obtain rfl := List.mem_singleton.mp hmem
      have hfront : ([a, b] ++ [a']).Perm ([a'] ++ [a, b]) := List.perm_append_comm
      exact .inr (.inr (hpair ((List.perm_cons a').mp (h.trans hfront))))

/-- Corners that are sorted can only be put into another sorted order if two that stand
side by side share a row. -/
theorem arranged_of_perm (h : t'.corners.Perm t.corners) (ht : t.a.y ≤ t.b.y ∧ t.b.y ≤ t.c.y)
    (ht' : t'.a.y ≤ t'.b.y ∧ t'.b.y ≤ t'.c.y) :
    t' = t ∨ (t.a.y = t.b.y ∧ t' = ⟨t.b, t.a, t.c⟩) ∨ (t.b.y = t.c.y ∧ t' = ⟨t.a, t.c, t.b⟩) ∨
      (t.a.y = t.c.y ∧ t'.a.y = t'.c.y) := by
  rcases eq_arrangement h with (rfl | rfl) | (rfl | rfl) | (rfl | rfl) <;> dsimp only at ht' ⊢
  · exact .inl rfl
  · exact .inr (.inr (.inl ⟨by omega, rfl⟩))
  · exact .inr (.inl ⟨by omega, rfl⟩)
  · exact .inr (.inr (.inr (by omega)))
  · exact .inr (.inr (.inr (by omega)))
  · exact .inr (.inr (.inr (by omega)))

/-! ## The fragments -/

/-- Two highest corners are the feet of one wedge. -/
theorem fragments_of_level (hlevel : t.sorted.a.y = t.sorted.b.y) :
    t.fragments =
      (Wedge.ofCorners t.sorted.c t.sorted.a t.sorted.b).upward.flatMap Span.fragments := by
  obtain ⟨htop, -, -, hbottom⟩ := t.sorted_ordered
  rcases t.spans_cases with ⟨hflat, -⟩ | ⟨-, -, hspans⟩ | ⟨hupper, -, -⟩
  · -- All corners share a row, which is the row of the apex.
    rw [t.fragments_eq_nil (by omega), eq_comm, List.eq_nil_iff_forall_not_mem]
    intro f hf
    have hrows := Wedge.mem_fragments_upward hf
    rw [Wedge.apex_ofCorners, Wedge.left_y_ofCorners _ hlevel] at hrows
    omega
  · rw [fragments, hspans]
  · omega

/-- Two lowest corners are the feet of one wedge. -/
theorem fragments_of_flat (hflat : t.sorted.b.y = t.sorted.c.y) :
    t.fragments =
      (Wedge.ofCorners t.sorted.a t.sorted.b t.sorted.c).downward.flatMap Span.fragments := by
  rcases t.spans_cases with ⟨-, hspans⟩ | ⟨-, hlower, -⟩ | ⟨-, hlower, -⟩
  · rw [fragments, hspans]
  · omega
  · omega

/-- The order of its corners does not show in the fragments of a triangle. -/
theorem fragments_perm (h : t'.corners.Perm t.corners) : t'.fragments = t.fragments := by
  obtain ⟨htop, hab, hbc, hbottom⟩ := t.sorted_ordered
  obtain ⟨htop', hab', hbc', hbottom'⟩ := t'.sorted_ordered
  have hsorted : t'.sorted.corners.Perm t.sorted.corners :=
    (t'.sorted_perm.trans h).trans t.sorted_perm.symm
  -- Sorting leaves open only the order of corners in one row.
  rcases arranged_of_perm hsorted ⟨hab, hbc⟩ ⟨hab', hbc'⟩ with
    hsame | ⟨hlevel, hswap⟩ | ⟨hflat, hswap⟩ | ⟨hrow, hrow'⟩
  · have hspans : t'.spans = t.spans := by
      unfold spans
      rw [hsame]
    rw [fragments, fragments, hspans]
  · rw [fragments_of_level hlevel, fragments_of_level (by rw [hswap, hlevel]), hswap]
    exact (Wedge.fragments_ofCorners_comm _ hlevel.symm).2
  · rw [fragments_of_flat hflat, fragments_of_flat (by rw [hswap, hflat]), hswap]
    exact (Wedge.fragments_ofCorners_comm _ hflat.symm).1
  · rw [t.fragments_eq_nil (by omega), t'.fragments_eq_nil (by omega)]

end Triangle

/-- **The order of its corners does not change a triangle.**  Its fragments are the same and
in the same order, so it is drawn alike on every canvas and by every graphics unit. -/
theorem corner_order_irrelevant {t t' : Triangle} (h : t'.corners.Perm t.corners) :
    t'.fragments = t.fragments ∧
      (∀ (c : Canvas) (vram : Vram), c.drawTriangle vram t' = c.drawTriangle vram t) ∧
      ∀ (g : Graphics) (paint : Paint), g.drawTriangles paint [t'] = g.drawTriangles paint [t] := by
  have hfragments := Triangle.fragments_perm h
  have hdrawn (c : Canvas) (vram : Vram) : c.drawTriangle vram t' = c.drawTriangle vram t := by
    rw [c.drawTriangle_eq_foldl, c.drawTriangle_eq_foldl, hfragments]
  refine ⟨hfragments, hdrawn, fun g paint => ?_⟩
  unfold Graphics.drawTriangles
  simp only [List.foldl_cons, List.foldl_nil, hdrawn]

/-- Here the two lower corners of a shaded and textured triangle share their row and the
last corner has become the first one. -/
theorem corner_order_irrelevant_rotated :
    let a : Corner := .ofWords 0x000A0014 ⟨0xFF, 0, 0⟩ 0x0000
    let b : Corner := .ofWords 0x00280005 ⟨0, 0xFF, 0⟩ 0x2000
    let c : Corner := .ofWords 0x00280030 ⟨0, 0, 0xFF⟩ 0x2020
    let t : Triangle := ⟨a, b, c⟩
    let t' : Triangle := ⟨c, a, b⟩
    t'.corners.Perm t.corners ∧ t'.sorted ≠ t.sorted ∧ t'.fragments = t.fragments ∧
      (∀ (c : Canvas) (vram : Vram), c.drawTriangle vram t' = c.drawTriangle vram t) ∧
      ∀ (g : Graphics) (paint : Paint), g.drawTriangles paint [t'] = g.drawTriangles paint [t] := by
  intro a b c t t'
  have h : t'.corners.Perm t.corners := by decide
  exact ⟨h, by decide, corner_order_irrelevant h⟩

end PlayStation
