import PlayStation.Graphics.Canvas

/-!
# The rows of a triangle

A wedge is walked row by row (`Wedge.rows_spansDown`, `Wedge.rows_spansUp`) and a row from
left to right, so no two fragments of a triangle have the same position.  The two wedges of
a split triangle meet in the row of the middle corner, which is drawn with the lower one
alone, and the lowest row of a triangle is drawn with neither: there both edges start from
one point, and the row is empty (`Wedge.mem_upward`).

Nothing here looks at how far the edges run in a row.  Whatever single precision makes of
their slopes, a row has a first and a last column, and no row comes twice.

* `triangle_visits_once` — the positions of a triangle's fragments;
* `Canvas.places_nodup` — the pixels of the store that they are drawn in.
-/

namespace PlayStation

/-- Where a fragment lies. -/
def Fragment.position (f : Fragment) : Int × Int :=
  (f.x, f.y)

/-! ## One row -/

namespace Span

variable {s : Span} {f : Fragment}

/-- All fragments of a span lie in its row. -/
theorem y_of_mem (h : f ∈ s.fragments) : f.y = s.y := by
  obtain ⟨i, -, rfl⟩ := List.mem_map.mp h
  rfl

/-- A span is drawn from left to right. -/
theorem pairwise_fragments (s : Span) : s.fragments.Pairwise fun f f' => f.x < f'.x := by
  rw [fragments, List.pairwise_map]
  refine List.pairwise_lt_range.imp fun {i j} hless => ?_
  change s.x1 + i < s.x1 + j
  omega

/-- A span that ends where it starts is empty. -/
theorem fragments_eq_nil (h : s.x1 = s.x2) : s.fragments = [] := by
  have hwidth : s.width = 0 := by
    rw [width, h]
    omega
  rw [fragments, hwidth]
  rfl

/-- Spans of different rows have no position in common, and a span has no position
twice. -/
theorem positions_nodup {spans : List Span} (h : (spans.map Span.y).Nodup) :
    ((spans.flatMap fragments).map Fragment.position).Nodup := by
  rw [List.nodup_iff_pairwise_ne, List.pairwise_map] at h ⊢
  rw [List.pairwise_flatMap]
  refine ⟨fun s _ => ?_, h.imp fun {s s'} hrows f hf f' hf' hsame => ?_⟩
  · refine s.pairwise_fragments.imp fun hleft hsame => ?_
    have hcolumn := congrArg Prod.fst hsame
    exact Int.ne_of_lt hleft hcolumn
  · have hrow : f.y = f'.y := congrArg Prod.snd hsame
    rw [y_of_mem hf, y_of_mem hf'] at hrow
    exact hrows hrow

end Span

/-! ## One wedge -/

namespace Wedge

variable {w : Wedge} {s : Span} {f : Fragment} {apex a b : Corner}

/-- Walking downward takes the rows one after the other. -/
theorem rows_spansDown (w : Wedge) (y : Int) (leftX rightX : Float32) (count : Nat) :
    (w.spansDown y leftX rightX count).map Span.y =
      (List.range count).map fun i : Nat => y + i := by
  induction count generalizing y leftX rightX with
  | zero => rfl
  | succ count ih =>
      rw [spansDown, List.map_cons, ih, List.range_succ_eq_map, List.map_cons, List.map_map]
      congr 1
      · exact (Int.add_zero y).symm
      · refine List.map_congr_left fun i _ => ?_
        change y + 1 + (i : Int) = y + ((i + 1 : Nat) : Int)
        omega

/-- Walking upward, the rows go up one by one. -/
theorem rows_spansUp (w : Wedge) (y : Int) (leftX rightX : Float32) (count : Nat) :
    (w.spansUp y leftX rightX count).map Span.y = (List.range count).map fun i : Nat => y - i := by
  induction count generalizing y leftX rightX with
  | zero => rfl
  | succ count ih =>
      rw [spansUp, List.map_cons, ih, List.range_succ_eq_map, List.map_cons, List.map_map]
      congr 1
      · exact (Int.sub_zero y).symm
      · refine List.map_congr_left fun i _ => ?_
        change y - 1 - (i : Int) = y - ((i + 1 : Nat) : Int)
        omega

/-- Walked downward, no row comes twice. -/
theorem nodup_rows_downward (w : Wedge) : (w.downward.map Span.y).Nodup := by
  rw [downward, rows_spansDown, List.nodup_iff_pairwise_ne, List.pairwise_map]
  exact List.pairwise_lt_range.imp fun {i j} hless => by omega

theorem nodup_rows_upward (w : Wedge) : (w.upward.map Span.y).Nodup := by
  rw [upward, rows_spansUp, List.nodup_iff_pairwise_ne, List.pairwise_map]
  exact List.pairwise_lt_range.imp fun {i j} hless => by omega

/-- The rows of a wedge that widens downward: from its apex on, without the lowest. -/
theorem mem_downward (h : s ∈ w.downward) : w.apex.y ≤ s.y ∧ s.y < w.left.y := by
  have hrow := List.mem_map_of_mem (f := Span.y) h
  rw [downward, rows_spansDown] at hrow
  obtain ⟨i, hi, hy⟩ := List.mem_map.mp hrow
  have hi := List.mem_range.mp hi
  omega

/-- The rows of a wedge that widens upward: from its highest one on, and the row of the
apex without a pixel. -/
theorem mem_upward (h : s ∈ w.upward) : w.left.y ≤ s.y ∧ (s.y < w.apex.y ∨ s.x1 = s.x2) := by
  unfold upward at h
  dsimp only at h
  cases hcount : (w.apex.y - w.left.y + 1).toNat with
  | zero =>
      rw [hcount] at h
      cases h
  | succ count =>
      rw [hcount, spansUp] at h
      rcases List.mem_cons.mp h with rfl | hbelow
      · refine ⟨?_, .inr rfl⟩
        change w.left.y ≤ w.apex.y
        omega
      · have hrow := List.mem_map_of_mem (f := Span.y) hbelow
        rw [rows_spansUp] at hrow
        obtain ⟨i, hi, hy⟩ := List.mem_map.mp hrow
        have hi := List.mem_range.mp hi
        omega

/-- Downward, the rows run from the apex to above the base. -/
theorem mem_fragments_downward (h : f ∈ w.downward.flatMap Span.fragments) :
    w.apex.y ≤ f.y ∧ f.y < w.left.y := by
  obtain ⟨s, hs, hf⟩ := List.mem_flatMap.mp h
  rw [Span.y_of_mem hf]
  exact mem_downward hs

/-- Upward, the rows run from the base to above the apex. -/
theorem mem_fragments_upward (h : f ∈ w.upward.flatMap Span.fragments) :
    w.left.y ≤ f.y ∧ f.y < w.apex.y := by
  obtain ⟨s, hs, hf⟩ := List.mem_flatMap.mp h
  obtain ⟨htop, hbelow | hempty⟩ := mem_upward hs
  · rw [Span.y_of_mem hf]
    exact ⟨htop, hbelow⟩
  · rw [Span.fragments_eq_nil hempty] at hf
    cases hf

@[simp] theorem apex_ofCorners (apex a b : Corner) : (ofCorners apex a b).apex = apex := by
  unfold ofCorners
  split <;> rfl

/-- The feet of a wedge lie in one row. -/
theorem left_y_ofCorners (apex : Corner) (h : a.y = b.y) : (ofCorners apex a b).left.y = a.y := by
  unfold ofCorners
  split
  · exact h.symm
  · rfl

end Wedge

/-! ## One triangle -/

namespace Triangle

/-- The row of the highest corner. -/
def top (t : Triangle) : Int :=
  min t.a.y (min t.b.y t.c.y)

/-- The row of the lowest corner. -/
def bottom (t : Triangle) : Int :=
  max t.a.y (max t.b.y t.c.y)

variable (t : Triangle)

/-- The sorted corners go from the top of the triangle to its bottom. -/
theorem sorted_ordered :
    t.sorted.a.y = t.top ∧ t.sorted.a.y ≤ t.sorted.b.y ∧ t.sorted.b.y ≤ t.sorted.c.y ∧
      t.sorted.c.y = t.bottom := by
  unfold sorted top bottom
  grind

/-- The split lies in the row of the middle corner. -/
theorem left_y_ofSplit (apex : Corner) : (Wedge.ofCorners apex t.b t.split).left.y = t.b.y :=
  Wedge.left_y_ofCorners apex rfl

/-- The spans above the middle corner of a split triangle. -/
def upperSpans : List Span :=
  (Wedge.ofCorners t.sorted.a t.sorted.b t.sorted.split).downward

/-- The spans from the middle corner of a split triangle on. -/
def lowerSpans : List Span :=
  (Wedge.ofCorners t.sorted.c t.sorted.b t.sorted.split).upward

/-- A triangle is one wedge if two of its corners share a row, and two wedges if not. -/
theorem spans_cases :
    (t.sorted.b.y = t.sorted.c.y ∧
        t.spans = (Wedge.ofCorners t.sorted.a t.sorted.b t.sorted.c).downward) ∨
      (t.sorted.a.y = t.sorted.b.y ∧ t.sorted.b.y < t.sorted.c.y ∧
        t.spans = (Wedge.ofCorners t.sorted.c t.sorted.a t.sorted.b).upward) ∨
      (t.sorted.a.y < t.sorted.b.y ∧ t.sorted.b.y < t.sorted.c.y ∧
        t.spans = t.upperSpans ++ t.lowerSpans) := by
  obtain ⟨-, hupper, hlower, -⟩ := t.sorted_ordered
  unfold spans
  dsimp only
  by_cases hflat : t.sorted.b.y = t.sorted.c.y
  · exact .inl ⟨hflat, if_pos hflat⟩
  · rw [if_neg hflat]
    by_cases hlevel : t.sorted.a.y = t.sorted.b.y
    · exact .inr (.inl ⟨hlevel, by omega, if_pos hlevel⟩)
    · exact .inr (.inr ⟨by omega, by omega, if_neg hlevel⟩)

/-- The upper wedge keeps above the middle corner. -/
theorem mem_upperSpans {f : Fragment} (h : f ∈ t.upperSpans.flatMap Span.fragments) :
    t.sorted.a.y ≤ f.y ∧ f.y < t.sorted.b.y := by
  have hrows := Wedge.mem_fragments_downward h
  rwa [Wedge.apex_ofCorners, left_y_ofSplit] at hrows

/-- The lower wedge starts at the middle corner and keeps above the bottom one. -/
theorem mem_lowerSpans {f : Fragment} (h : f ∈ t.lowerSpans.flatMap Span.fragments) :
    t.sorted.b.y ≤ f.y ∧ f.y < t.sorted.c.y := by
  have hrows := Wedge.mem_fragments_upward h
  rwa [Wedge.apex_ofCorners, left_y_ofSplit] at hrows

/-- No row of a triangle comes twice. -/
theorem nodup_rows : (t.spans.map Span.y).Nodup := by
  rcases t.spans_cases with ⟨-, hspans⟩ | ⟨-, -, hspans⟩ | ⟨-, -, hspans⟩
  · rw [hspans]
    exact Wedge.nodup_rows_downward _
  · rw [hspans]
    exact Wedge.nodup_rows_upward _
  · rw [hspans, List.map_append, List.nodup_append]
    refine ⟨Wedge.nodup_rows_downward _, Wedge.nodup_rows_upward _, ?_⟩
    intro row hrow row' hrow' hsame
    obtain ⟨s, hs, rfl⟩ := List.mem_map.mp hrow
    obtain ⟨s', hs', rfl⟩ := List.mem_map.mp hrow'
    have hupper := (Wedge.mem_downward hs).2
    have hlower := (Wedge.mem_upward hs').1
    rw [left_y_ofSplit] at hupper hlower
    omega

/-- The fragments of a triangle lie below its highest corner, or level with it, and above
its lowest one. -/
theorem mem_fragments {f : Fragment} (h : f ∈ t.fragments) : t.top ≤ f.y ∧ f.y < t.bottom := by
  obtain ⟨htop, hupper, hlower, hbottom⟩ := t.sorted_ordered
  rw [fragments] at h
  rcases t.spans_cases with ⟨hflat, hspans⟩ | ⟨hlevel, -, hspans⟩ | ⟨-, -, hspans⟩
  · rw [hspans] at h
    have hrows := Wedge.mem_fragments_downward h
    rw [Wedge.apex_ofCorners, Wedge.left_y_ofCorners _ hflat] at hrows
    omega
  · rw [hspans] at h
    have hrows := Wedge.mem_fragments_upward h
    rw [Wedge.apex_ofCorners, Wedge.left_y_ofCorners _ hlevel] at hrows
    omega
  · rw [hspans, List.flatMap_append] at h
    rcases List.mem_append.mp h with h | h
    · have hrows := t.mem_upperSpans h
      omega
    · have hrows := t.mem_lowerSpans h
      omega

/-- A triangle whose corners share a row has no fragment. -/
theorem fragments_eq_nil (h : t.top = t.bottom) : t.fragments = [] := by
  rw [List.eq_nil_iff_forall_not_mem]
  intro f hf
  have hrows := t.mem_fragments hf
  omega

end Triangle

/-! ## Where the fragments are drawn -/

namespace Canvas

variable (c : Canvas)

/-- The point that a fragment is drawn at. -/
def point (f : Fragment) : Int × Int :=
  (f.x + c.offset.x, f.y + c.offset.y)

/-- Whether a fragment is drawn at all. -/
def admits (f : Fragment) : Bool :=
  c.area.contains (c.point f).1 (c.point f).2

/-- The pixel of the store that a point wraps to. -/
def place (f : Fragment) : Nat × Nat :=
  ((c.point f).1.toNat % 1024, (c.point f).2.toNat % 512)

/-- The drawing offset moves fragments at different positions to different points. -/
theorem points_nodup {fragments : List Fragment}
    (h : (fragments.map Fragment.position).Nodup) : (fragments.map c.point).Nodup := by
  rw [List.nodup_iff_pairwise_ne, List.pairwise_map] at h ⊢
  refine h.imp fun {f f'} hposition hpoint => hposition ?_
  have hx : f.x + c.offset.x = f'.x + c.offset.x := congrArg Prod.fst hpoint
  have hy : f.y + c.offset.y = f'.y + c.offset.y := congrArg Prod.snd hpoint
  rw [Fragment.position, Fragment.position, Prod.mk.injEq]
  omega

/-- A fragment that is drawn looks at the pixel of its place and changes no other. -/
theorem draw_eq_plot (vram : Vram) (f : Fragment) :
    c.draw vram f =
      if c.admits f then c.plot (c.place f).1 (c.place f).2 f.color f.u f.v vram else vram := by
  have hwrap (x y : Nat) : Vram.index (x % 1024) (y % 512) = Vram.index x y := by
    simp only [Vram.index, Vram.width, Vram.height, Nat.mod_mod]
  unfold draw plot place Vram.get Vram.set
  simp only [hwrap]
  rfl

/-- **A triangle is drawn at most once in each pixel of the store**, if the drawing area has
no more rows than the store.  The rows of a taller area wrap, so there two rows of a
triangle may fall on one. -/
theorem places_nodup (t : Triangle) (harea : c.area.right < 1024)
    (hrows : c.area.bottom < c.area.top + 512) :
    ((t.fragments.filter c.admits).map c.place).Nodup := by
  have hpoints := c.points_nodup (Span.positions_nodup t.nodup_rows)
  rw [List.nodup_iff_pairwise_ne, List.pairwise_map] at hpoints ⊢
  refine (hpoints.filter c.admits).imp_of_mem fun {f f'} hf hf' hpoint hplace => hpoint ?_
  have hin := (List.mem_filter.mp hf).2
  have hin' := (List.mem_filter.mp hf').2
  have hcolumn := congrArg Prod.fst hplace
  have hrow := congrArg Prod.snd hplace
  simp only [admits, DrawingArea.contains, Bool.and_eq_true, decide_eq_true_eq] at hin hin'
  simp only [place] at hcolumn hrow
  exact Prod.ext (by omega) (by omega)

end Canvas

/-- **A triangle visits no position twice.**  Whatever its corners are:

* the positions of its fragments are all different;
* they lie from the row of the highest corner down to the row above the lowest one;
* a triangle whose corners share a row has no fragments;
* the fragments of a triangle with corners in three rows are those of its two halves, one
  of which lies above the middle corner and the other one from there on;
* drawing it draws its fragments, one after the other and at different points, and in
  different pixels of the store if the drawing area has no more rows than the store. -/
theorem triangle_visits_once (t : Triangle) :
    (t.fragments.map Fragment.position).Nodup ∧
      (∀ f ∈ t.fragments, t.top ≤ f.y ∧ f.y < t.bottom) ∧
      (t.a.y = t.b.y → t.b.y = t.c.y → t.fragments = []) ∧
      (t.sorted.a.y < t.sorted.b.y → t.sorted.b.y < t.sorted.c.y →
        t.spans = t.upperSpans ++ t.lowerSpans ∧
          (∀ f ∈ t.upperSpans.flatMap Span.fragments, f.y < t.sorted.b.y) ∧
          ∀ f ∈ t.lowerSpans.flatMap Span.fragments, t.sorted.b.y ≤ f.y) ∧
      ∀ (c : Canvas) (vram : Vram),
        c.drawTriangle vram t = t.fragments.foldl c.draw vram ∧
          (t.fragments.map c.point).Nodup ∧
          (c.area.right < 1024 → c.area.bottom < c.area.top + 512 →
            ((t.fragments.filter c.admits).map c.place).Nodup) := by
  have hpositions := Span.positions_nodup t.nodup_rows
  refine ⟨hpositions, fun f => t.mem_fragments, fun hab hbc => ?_, fun hupper hlower => ?_,
    fun c vram => ⟨c.drawTriangle_eq_foldl vram t, c.points_nodup hpositions, c.places_nodup t⟩⟩
  · apply t.fragments_eq_nil
    simp only [Triangle.top, Triangle.bottom]
    omega
  · refine ⟨?_, fun f hf => (t.mem_upperSpans hf).2, fun f hf => (t.mem_lowerSpans hf).1⟩
    rcases t.spans_cases with ⟨hflat, -⟩ | ⟨hlevel, -, -⟩ | ⟨-, -, hspans⟩
    · omega
    · omega
    · exact hspans

end PlayStation
