import PlayStation.Proofs.Bits
import PlayStation.Proofs.Graphics.CornerOrder
import PlayStation.Proofs.SinglePrecision

/-!
# Fractions of edges and spans

The fractions that a triangle is interpolated by are quotients of computed lengths.  Between
positions of 16 bits none of them runs over (`Span.moderate_fraction`,
`Wedge.moderate_edgeFraction`, `Triangle.moderate_splitFraction`), and by such a fraction a
value between two equal ones is that value (`Interpolation.lerp_self`).
-/

namespace PlayStation

open SinglePrecision
open Float.Model (UnpackedFloat)
open Float.Model.UnpackedFloat (Sign)

/-! ## Interpolation -/

namespace Interpolation

variable {j k : Nat} {s : Sign} {dx dy x y f : Float32}

/-- A distance is the root of a sum of squares, also in words, for none of them runs over. -/
theorem unpacked_distance (hx : Moderate k (unpacked dx)) (hy : Moderate k (unpacked dy))
    (hk : k + k + 4 ≤ 125) :
    unpacked (distance dx dy) =
      .sqrt .binary32 (.add .binary32 (.mul .binary32 (unpacked dx) (unpacked dx))
        (.mul .binary32 (unpacked dy) (unpacked dy))) := by
  have hxx := hx.square (by omega)
  have hyy := hy.square (by omega)
  have hxx' := unpacked_mul (hxx.moderate.mono (by omega))
  have hyy' := unpacked_mul (hyy.moderate.mono (by omega))
  have hsum := hxx.add hyy hk
  have hroot := hsum.sqrt hk
  rw [← hxx', ← hyy'] at hsum hroot ⊢
  have hsum' := unpacked_add (hsum.moderate.mono hk)
  rw [← hsum'] at hroot ⊢
  exact unpacked_sqrt (hroot.moderate.mono (by omega))

/-- A distance of moderate values is moderate. -/
theorem moderate_distance (hx : Moderate k (unpacked dx)) (hy : Moderate k (unpacked dy))
    (hk : k + k + 4 ≤ 125) : Moderate (k + 3) (unpacked (distance dx dy)) := by
  have hsum := (hx.square (by omega)).add (hy.square (by omega)) hk
  rw [unpacked_distance hx hy hk]
  exact (hsum.sqrt hk).moderate.mono (by omega)

/-- A vector that is not level has a length. -/
theorem normal_distance (hx : Moderate k (unpacked dx)) (hy : IsNormal k s (unpacked dy))
    (hk : k + k + 4 ≤ 125) : IsNormal (k + 3) .positive (unpacked (distance dx dy)) := by
  have hsum := (hx.square (by omega)).add_normal (hy.square (by omega)) hk
  rw [unpacked_distance hx hy.moderate hk]
  exact (hsum.sqrt hk).mono (by omega)

theorem moderate_quotient (hx : Moderate j (unpacked x)) (hy : IsNormal k s (unpacked y))
    (hjk : j + k + 1 ≤ 125) : Moderate 125 (unpacked (x / y)) := by
  have hquotient := (hx.div hy hjk).mono hjk
  rwa [← unpacked_div hquotient] at hquotient

/-- The difference of a channel and itself is exactly zero. -/
theorem toFloat32_sub_self (a : UInt8) :
    unpacked (a.toFloat32 - a.toFloat32) = .zero .positive := by
  have hbits : (a.toFloat32 - a.toFloat32).toModel.toBits = 0 := by
    revert a
    exact Bits.forall_byte (by decide +kernel)
  rw [unpacked, Float32.Model.unpack, hbits]
  rfl

/-- Adding a zero to a channel gives the channel back. -/
theorem toUInt8_add_zero (a : UInt8) (s : Sign) :
    (a.toFloat32 + ⟨.pack (.zero s)⟩).toUInt8 = a := by
  revert a
  cases s with
  | negative => exact Bits.forall_byte (by decide +kernel)
  | positive => exact Bits.forall_byte (by decide +kernel)

/-- **Between a value and itself** there is no other value. -/
theorem lerp_self (h : Moderate 125 (unpacked f)) (a : UInt8) : lerp a a f = a := by
  obtain ⟨s, hzero⟩ := h.mul_zero .positive
  have hproduct : f * (a.toFloat32 - a.toFloat32) = ⟨.pack (.zero s)⟩ := by
    rw [← hzero, ← toFloat32_sub_self a]
    rfl
  rw [lerp, hproduct]
  exact toUInt8_add_zero a s

/-- A truncated number fits into sixteen bits, whatever it was. -/
theorem truncate_bounds (f : Float32) : -0x8000 ≤ truncate f ∧ truncate f ≤ 0x7FFF := by
  unfold truncate
  split
  · omega
  · omega

end Interpolation

/-- Between two equal colours every moderate fraction chooses that colour. -/
theorem Color.lerp_self {f : Float32} (h : Moderate 125 (unpacked f)) (c : Color) :
    c.lerp c f = c := by
  rw [lerp, zip, Interpolation.lerp_self h, Interpolation.lerp_self h, Interpolation.lerp_self h]

/-! ## Positions -/

/-- A corner whose position has 16 bits. -/
structure Corner.Fits (c : Corner) : Prop where
  left : -0x8000 ≤ c.x
  right : c.x ≤ 0x7FFF
  top : -0x8000 ≤ c.y
  bottom : c.y ≤ 0x7FFF

/-- A coordinate of eleven bits fits into sixteen. -/
theorem Bits.signExtend_eleven_bounds (word : UInt32) :
    -0x8000 ≤ (signExtend word 11).toInt ∧ (signExtend word 11).toInt ≤ 0x7FFF := by
  have hextend : (signExtend word 11).toBitVec = (word <<< 21).toBitVec.sshiftRight 21 :=
    Int32.toBitVec_shiftRight _ _
  have hlow := (word <<< 21).toBitVec.le_toInt
  have hhigh := (word <<< 21).toBitVec.toInt_lt
  rw [← Int32.toInt_toBitVec, hextend, BitVec.toInt_sshiftRight, Int.shiftRight_eq_div_pow]
  omega

/-- So the corners that words name fit. -/
theorem Corner.fits_ofWords (position : UInt32) (color : Color) (texture : UInt32) :
    (ofWords position color texture).Fits := by
  obtain ⟨hleft, hright⟩ := Bits.signExtend_eleven_bounds position
  obtain ⟨htop, hbottom⟩ := Bits.signExtend_eleven_bounds (position >>> 16)
  have hx : (ofWords position color texture).x = (Bits.signExtend position 11).toInt := by
    rw [ofWords, positionOfWord]
  have hy : (ofWords position color texture).y = (Bits.signExtend (position >>> 16) 11).toInt := by
    rw [ofWords, positionOfWord]
  rw [← hx] at hleft hright
  rw [← hy] at htop hbottom
  exact ⟨hleft, hright, htop, hbottom⟩

/-! ## Fractions -/

/-- How far a pixel is along its span is moderate. -/
theorem Span.moderate_fraction {s : Span} (hleft : -0x8000 ≤ s.x1) (hright : s.x2 ≤ 0x7FFF)
    {i : Nat} (hi : i < s.width) : Moderate 125 (unpacked (s.fraction i)) := by
  unfold width at hi
  obtain ⟨sign, hwidth⟩ := normal_ofInt (n := s.x2 - s.x1) (by omega) (by omega) (by omega)
  have hbefore := moderate_ofNat (n := i) (by omega)
  exact Interpolation.moderate_quotient hbefore hwidth (by decide)

/-- How far a row is along an edge is moderate, since the edge does not lie in one row. -/
theorem Wedge.moderate_edgeFraction {apex foot : Corner} (hapex : apex.Fits) (hfoot : foot.Fits)
    (hrow : foot.y ≠ apex.y) {x y : Int} (hleft : -0x8000 ≤ x) (hright : x ≤ 0x7FFF)
    (htop : -0x8000 ≤ y) (hbottom : y ≤ 0x7FFF) :
    Moderate 125 (unpacked (edgeFraction apex foot x y)) := by
  obtain ⟨hapexLeft, hapexRight, hapexTop, hapexBottom⟩ := hapex
  obtain ⟨hfootLeft, hfootRight, hfootTop, hfootBottom⟩ := hfoot
  have hapexX := moderate_ofInt (n := apex.x) (by omega) (by omega)
  have hx := moderate_ofInt (n := x) (by omega) (by omega)
  have hdx := hapexX.sub hx (by decide)
  rw [← unpacked_sub (hdx.mono (by decide))] at hdx
  have hdy := moderate_ofInt (n := apex.y - y) (by omega) (by omega)
  have hpart := Interpolation.moderate_distance hdx (hdy.mono (by decide)) (by decide)
  have hedgeX := moderate_ofInt (n := foot.x - apex.x) (by omega) (by omega)
  obtain ⟨sign, hedgeY⟩ := normal_ofInt (n := foot.y - apex.y) (by omega) (by omega) (by omega)
  have hlength := Interpolation.normal_distance hedgeX hedgeY (by decide)
  exact Interpolation.moderate_quotient hpart hlength (by decide)

/-- How far down the long edge of a triangle its middle corner lies. -/
theorem Triangle.moderate_splitFraction {t : Triangle} (ha : t.a.Fits) (hb : t.b.Fits)
    (hc : t.c.Fits) (hrow : t.a.y ≠ t.c.y) :
    Moderate 125 (unpacked (Float32.ofInt (t.b.y - t.a.y) / Float32.ofInt (t.c.y - t.a.y))) := by
  obtain ⟨-, -, haTop, haBottom⟩ := ha
  obtain ⟨-, -, hbTop, hbBottom⟩ := hb
  obtain ⟨-, -, hcTop, hcBottom⟩ := hc
  have hpart := moderate_ofInt (n := t.b.y - t.a.y) (by omega) (by omega)
  obtain ⟨sign, hheight⟩ := normal_ofInt (n := t.c.y - t.a.y) (by omega) (by omega) (by omega)
  exact Interpolation.moderate_quotient hpart hheight (by decide)

end PlayStation
