import PlayStation.Graphics.Interpolation

/-!
# Values of moderate size in single precision

A computation in single precision leaves the numbers when it runs over: a quotient becomes
an infinity, and that times zero is no number.  It cannot run over while every value on the
way is zero or has its leading bit near the point.  `Moderate k` says how near, and each
operation adds a constant to `k`; nothing here says which number a result is rounded to.

Up to 125 places from the point a mantissa has all its 24 bits, so a value is the same when
it has been packed into a word and unpacked again (`unpack_pack`).
-/

namespace PlayStation

namespace SinglePrecision

open Float.Model Float.Model.UnpackedFloat

/-- A value with the sign `s` that is not zero.  Its leading bit has a place from `-k` to
`k`, and is the highest one of a mantissa of 24 bits. -/
inductive IsNormal (k : Nat) (s : Sign) : UnpackedFloat → Prop
  | finite {m : Nat} {e : Int} (hpos : 0 < m) (hfull : 0x800000 ≤ m) (hfits : m < 0x1000000)
      (hlow : -(k : Int) ≤ e + 23) (hhigh : e + 23 ≤ k) : IsNormal k s (.finite s m e hpos)

/-- Zero, or a value with its leading bit at most `k` places from the point. -/
def Moderate (k : Nat) (u : UnpackedFloat) : Prop :=
  (∃ s, u = .zero s) ∨ ∃ s, IsNormal k s u

/-- A moderate value that is not below zero. -/
def NotNegative (k : Nat) (u : UnpackedFloat) : Prop :=
  (∃ s, u = .zero s) ∨ IsNormal k .positive u

variable {j k : Nat} {s t : Sign} {u v : UnpackedFloat}

/-- A leading bit near the point is near it by any wider measure. -/
theorem IsNormal.mono (h : IsNormal j s u) (hjk : j ≤ k) : IsNormal k s u := by
  obtain ⟨hpos, hfull, hfits, hlow, hhigh⟩ := h
  exact .finite hpos hfull hfits (by omega) (by omega)

/-- A normal value is moderate. -/
theorem IsNormal.moderate (h : IsNormal k s u) : Moderate k u :=
  .inr ⟨s, h⟩

theorem NotNegative.moderate (h : NotNegative k u) : Moderate k u := by
  rcases h with hzero | hnormal
  · exact .inl hzero
  · exact hnormal.moderate

/-- A moderate value is moderate by any wider measure. -/
theorem Moderate.mono (h : Moderate j u) (hjk : j ≤ k) : Moderate k u := by
  rcases h with hzero | ⟨s, hnormal⟩
  · exact .inl hzero
  · exact (hnormal.mono hjk).moderate

/-! ## The leading bit -/

/-- A mantissa that fills its 24 bits has its highest bit at place 23. -/
theorem log2_of_full {m : Nat} (hfull : 0x800000 ≤ m) (hfits : m < 0x1000000) : m.log2 = 23 :=
  (Nat.log2_eq_iff (by omega)).mpr ⟨hfull, hfits⟩

/-- The place of the highest bit grows with a number. -/
theorem log2_mono {m n : Nat} (hpos : 0 < m) (h : m ≤ n) : m.log2 ≤ n.log2 :=
  (Nat.le_log2 (by omega)).mpr (Nat.le_trans (Nat.log2_self_le (Nat.ne_of_gt hpos)) h)

/-- Shifting a number moves its highest bit. -/
theorem log2_shiftLeft {m : Nat} (hpos : 0 < m) (n : Nat) : (m <<< n).log2 = m.log2 + n := by
  have hlow := Nat.log2_self_le (Nat.ne_of_gt hpos)
  have hhigh := Nat.lt_log2_self (n := m)
  rw [Nat.shiftLeft_eq, Nat.log2_eq_iff (Nat.ne_of_gt (Nat.mul_pos hpos (Nat.two_pow_pos n))),
    Nat.add_right_comm, Nat.pow_add, Nat.pow_add 2 (m.log2 + 1)]
  exact ⟨Nat.mul_le_mul_right _ hlow, (Nat.mul_lt_mul_right (Nat.two_pow_pos n)).mpr hhigh⟩

/-- The highest bit of a product is at the sum of the places, or one above it. -/
theorem log2_mul {m n : Nat} (hm : 0 < m) (hn : 0 < n) :
    m.log2 + n.log2 ≤ (m * n).log2 ∧ (m * n).log2 ≤ m.log2 + n.log2 + 1 := by
  have hne : m * n ≠ 0 := Nat.ne_of_gt (Nat.mul_pos hm hn)
  have hlow := Nat.mul_le_mul (Nat.log2_self_le (Nat.ne_of_gt hm))
    (Nat.log2_self_le (Nat.ne_of_gt hn))
  have hhigh := Nat.mul_lt_mul'' (Nat.lt_log2_self (n := m)) (Nat.lt_log2_self (n := n))
  rw [← Nat.pow_add] at hlow hhigh
  have hlt := (Nat.log2_lt hne).mpr hhigh
  exact ⟨(Nat.le_log2 hne).mpr hlow, by omega⟩

/-- The highest bit of a sum is at most one above the higher of the two. -/
theorem log2_le_of_le_add {i m n : Nat} (hpos : 0 < i) (hi : i ≤ m + n) :
    i.log2 ≤ max m.log2 n.log2 + 1 := by
  have hm : m < 2 ^ (max m.log2 n.log2 + 1) :=
    Nat.lt_of_lt_of_le Nat.lt_log2_self (Nat.pow_le_pow_right (by decide) (by omega))
  have hn : n < 2 ^ (max m.log2 n.log2 + 1) :=
    Nat.lt_of_lt_of_le Nat.lt_log2_self (Nat.pow_le_pow_right (by decide) (by omega))
  have hlt : i < 2 ^ (max m.log2 n.log2 + 2) := by
    rw [Nat.pow_succ]
    omega
  exact Nat.le_of_lt_succ ((Nat.log2_lt (Nat.ne_of_gt hpos)).mpr hlt)

/-! ## Rounding -/

/-- Rounding aims at 24 bits of mantissa, but not below the smallest exponent. -/
theorem targetExponent_eq (t : Int) :
    Format.binary32.targetExponent t = max (t - 24) (-149) := rfl

/-- Shifting an extended mantissa shifts its mantissa; what falls off goes into the accuracy. -/
theorem mantissa_shiftRight (em : ExtendedMantissa) (n : Nat) :
    (em >>> n).mantissa = em.mantissa >>> n := by
  induction n with
  | zero => rfl
  | succ n ih =>
      rw [Nat.shiftRight_succ, ← ih]
      rfl

/-- The accuracy does not enter into the mantissa. -/
theorem mantissa_ofMantissaAndAccuracy (m : Nat) (accuracy : Accuracy) :
    (ExtendedMantissa.ofMantissaAndAccuracy m accuracy).mantissa = m := by
  cases accuracy with
  | exact => rfl
  | inexact half => cases half <;> rfl

/-- Rounding adds at most one to a mantissa. -/
theorem roundedMantissa_bounds (em : ExtendedMantissa) :
    em.mantissa ≤ em.roundedMantissa ∧ em.roundedMantissa ≤ em.mantissa + 1 := by
  rw [ExtendedMantissa.roundedMantissa]
  cases em.accuracy with
  | exact => exact ⟨Nat.le_refl _, Nat.le_succ _⟩
  | inexact half =>
      cases half with
      | lt => exact ⟨Nat.le_refl _, Nat.le_succ _⟩
      | eq =>
          change _ ≤ em.mantissa + em.mantissa % 2 ∧ em.mantissa + em.mantissa % 2 ≤ _
          omega
      | gt => exact ⟨Nat.le_succ _, Nat.le_refl _⟩

/-- A mantissa of 24 bits or more is cut down to 24. -/
theorem shiftToTargetExponent_wide {m : Nat} {e : Int} (hfull : 0x800000 ≤ m)
    (hlow : -125 ≤ m.log2 + e) (accuracy : Accuracy) :
    let shifted := shiftToTargetExponent .binary32 m e accuracy
    0x800000 ≤ shifted.1.mantissa ∧ shifted.1.mantissa < 0x1000000 ∧
      shifted.2 = m.log2 + e - 23 := by
  have hne : m ≠ 0 := by omega
  have hwide : 23 ≤ m.log2 := (Nat.le_log2 hne).mpr hfull
  have hbelow := Nat.log2_self_le hne
  have habove := Nat.lt_log2_self (n := m)
  obtain ⟨d, hd⟩ : ∃ d, m.log2 = 23 + d := ⟨m.log2 - 23, by omega⟩
  have hshift : (max ((m.log2 : Int) + 1 + e - 24) (-149) - e).toNat = d := by omega
  rw [hd, Nat.pow_add] at hbelow
  rw [hd, Nat.add_right_comm, Nat.pow_add] at habove
  dsimp only [shiftToTargetExponent, shiftToExponent]
  rw [targetExponent_eq, totalExponent, hshift, mantissa_shiftRight,
    mantissa_ofMantissaAndAccuracy, Nat.shiftRight_eq_div_pow]
  exact ⟨(Nat.le_div_iff_mul_le (Nat.two_pow_pos d)).mpr hbelow,
    (Nat.div_lt_iff_lt_mul (Nat.two_pow_pos d)).mpr habove, by omega⟩

/-- A mantissa that has been rounded up to 25 bits moves by one place. -/
theorem shiftToTargetExponent_carry {m : Nat} {e : Int} (hfull : 0x800000 ≤ m)
    (hfits : m ≤ 0x1000000) (hlow : -149 ≤ e) :
    let shifted := shiftToTargetExponent .binary32 m e .exact
    0x800000 ≤ shifted.1.mantissa ∧ shifted.1.mantissa < 0x1000000 ∧
      e ≤ shifted.2 ∧ shifted.2 ≤ e + 1 := by
  dsimp only [shiftToTargetExponent, shiftToExponent]
  rw [targetExponent_eq, totalExponent, mantissa_shiftRight, mantissa_ofMantissaAndAccuracy]
  by_cases hcarry : m = 0x1000000
  · have hlog : m.log2 = 24 := by
      rw [hcarry]
      decide
    have hshift : (max ((m.log2 : Int) + 1 + e - 24) (-149) - e).toNat = 1 := by omega
    rw [hshift, hcarry]
    exact ⟨by decide, by decide, by omega, by omega⟩
  · have hlog := log2_of_full hfull (by omega)
    have hshift : (max ((m.log2 : Int) + 1 + e - 24) (-149) - e).toNat = 0 := by omega
    rw [hshift]
    refine ⟨hfull, ?_, by omega, by omega⟩
    change m < 0x1000000
    omega

/-- **Rounding** moves the leading bit up by one place at most.  The mantissa must have 24
bits: a shorter one is not filled up. -/
theorem normal_roundWithAccuracy (hk : k ≤ 125) {m : Nat} {e : Int} (hfull : 0x800000 ≤ m)
    (hlow : -(k : Int) ≤ m.log2 + e) (hhigh : m.log2 + e < k) (s : Sign) (accuracy : Accuracy) :
    IsNormal k s (roundWithAccuracy .binary32 s m e accuracy) := by
  -- The mantissa is cut down and rounded, and then cut down again in case that carried.
  obtain ⟨hfirst, hfirst', hplace⟩ :=
    shiftToTargetExponent_wide (e := e) hfull (by omega) accuracy
  have hrounded := roundedMantissa_bounds (shiftToTargetExponent .binary32 m e accuracy).1
  obtain ⟨hsecond, hsecond', hplace', hplace''⟩ := shiftToTargetExponent_carry
    (m := (shiftToTargetExponent .binary32 m e accuracy).1.roundedMantissa)
    (e := (shiftToTargetExponent .binary32 m e accuracy).2) (by omega) (by omega) (by omega)
  rw [roundWithAccuracy]
  dsimp only
  rw [dif_neg (by omega)]
  exact .finite _ hsecond hsecond' (by omega) (by omega)

/-- Rounding an exact value: a short mantissa is filled up first. -/
theorem normal_round (hk : k ≤ 125) {m : Nat} {e : Int} (hpos : 0 < m)
    (hlow : -(k : Int) ≤ m.log2 + e) (hhigh : m.log2 + e < k) (s : Sign) :
    IsNormal k s (UnpackedFloat.round .binary32 s m e) := by
  rw [UnpackedFloat.round]
  dsimp only [decreaseExponent]
  rw [targetExponent_eq, totalExponent]
  generalize hshift : (e - max ((m.log2 : Int) + 1 + e - 24) (-149)).toNat = n
  have hlog := log2_shiftLeft hpos n
  have hfull : 23 ≤ (m <<< n).log2 := by omega
  have hne : m <<< n ≠ 0 := by
    intro hzero
    rw [hzero] at hfull
    exact absurd hfull (by decide)
  exact normal_roundWithAccuracy hk ((Nat.le_log2 hne).mp hfull) (by omega) (by omega) s _

/-- A number with its leading bit near the point is rounded to a normal value of its sign. -/
theorem normal_normalize (hk : k ≤ 125) {n e : Int} (hne : n ≠ 0)
    (hlow : -(k : Int) ≤ n.natAbs.log2 + e) (hhigh : n.natAbs.log2 + e < k) (t : Sign) :
    IsNormal k (if n < 0 then .negative else .positive)
      (UnpackedFloat.normalize .binary32 n e t) := by
  rw [UnpackedFloat.normalize]
  cases hcompare : compare n 0 with
  | lt =>
      rw [Int.compare_eq_lt] at hcompare
      have habs : (-n).toNat = n.natAbs := by omega
      rw [if_pos hcompare]
      dsimp only
      rw [habs]
      exact normal_round hk (by omega) hlow hhigh _
  | eq => exact absurd (Int.compare_eq_eq.mp hcompare) hne
  | gt =>
      rw [Int.compare_eq_gt] at hcompare
      have habs : n.toNat = n.natAbs := by omega
      rw [if_neg (by omega)]
      dsimp only
      rw [habs]
      exact normal_round hk (by omega) hlow hhigh _

/-! ## Packing -/

/-- The sign of a packed value is that of its parts. -/
theorem sign_packComponents (s : Sign) (exponent : BitVec 8) (mantissa : BitVec 23) :
    Sign.ofBitVec (unpackSign (packComponents .binary32 s exponent mantissa)) = s := by
  have htop : (s.toBitVec ++ exponent ++ mantissa).getLsbD 31 = s.toBitVec.getLsbD 0 := by
    rw [BitVec.getLsbD_append, BitVec.getLsbD_append]
    rfl
  have hfield : unpackSign (packComponents .binary32 s exponent mantissa) = s.toBitVec := by
    refine BitVec.eq_of_getLsbD_eq fun i hi => ?_
    obtain rfl : i = 0 := by omega
    unfold unpackSign
    rw [BitVec.getLsbD_cast, BitVec.getLsbD_extractLsb]
    exact (Bool.true_and _).trans htop
  rw [hfield]
  cases s <;> rfl

/-- The leading bit of a mantissa is not stored, and comes back when it is unpacked. -/
theorem toNat_leadingBit_append {m : Nat} (hfull : 0x800000 ≤ m) (hfits : m < 0x1000000) :
    (1#1 ++ BitVec.ofNat 23 m).toNat = m := by
  rw [BitVec.toNat_append, ← Nat.shiftLeft_add_eq_or_of_lt (BitVec.isLt _), BitVec.toNat_ofNat]
  change 0x800000 + m % 0x800000 = m
  omega

/-- A full mantissa and an exponent in range are packed into their fields as they are. -/
theorem pack_normal (s : Sign) {m b : Nat} {e : Int} (hpos : 0 < m) (hlog : m.log2 = 23)
    (hb : e + 150 = b) (hfits : b < 255) :
    UnpackedFloat.pack .binary32 (.finite s m e hpos) =
      packComponents .binary32 s (BitVec.ofNat 8 b) (BitVec.ofNat 23 m) := by
  have hbiased : (e + (Format.binary32.exponentBias : Int) +
      (Format.binary32.mantissaBitsWithoutImplicit : Int)).toNat = b := by
    change (e + 127 + 23).toNat = b
    omega
  have hroom : ¬ 2 ^ Format.binary32.exponentBits ≤ b + 1 := by
    change ¬ 256 ≤ b + 1
    omega
  unfold UnpackedFloat.pack
  dsimp only
  rw [hbiased, if_neg hroom, hlog]
  rfl

/-- The same value is unpacked from such fields. -/
theorem unpack_of_fields {bits : BitVec 32} {m b : Nat} (hpos : 0 < m) (hfull : 0x800000 ≤ m)
    (hfits : m < 0x1000000) (hlow : 0 < b) (hhigh : b < 255)
    (hsign : Sign.ofBitVec (@unpackSign .binary32 bits) = s)
    (hexponent : @unpackExponent .binary32 bits = BitVec.ofNat 8 b)
    (hmantissa : @unpackMantissa .binary32 bits = BitVec.ofNat 23 m) :
    UnpackedFloat.unpack .binary32 bits = .finite s m (b - 150) hpos := by
  have hplace : (@unpackExponent .binary32 bits).toNat = b := by
    rw [hexponent, BitVec.toNat_ofNat]
    exact Nat.mod_eq_of_lt (show b < 256 by omega)
  have hnotmax : @unpackExponent .binary32 bits ≠ -1#8 := by
    intro heq
    rw [heq] at hplace
    change 255 = b at hplace
    omega
  have hnotzero : @unpackExponent .binary32 bits ≠ 0#8 := by
    intro heq
    rw [heq] at hplace
    change 0 = b at hplace
    omega
  unfold UnpackedFloat.unpack
  dsimp only
  rw [if_neg hnotmax, if_neg hnotzero, hsign]
  congr 1
  · rw [hmantissa]
    exact toNat_leadingBit_append hfull hfits
  · rw [hplace]
    rfl

/-- **Packing a moderate value** loses nothing. -/
theorem unpack_pack (h : Moderate 125 u) : (Float32.Model.pack u).unpack = u := by
  rcases h with ⟨s, rfl⟩ | ⟨s, hpos, hfull, hfits, hlow, hhigh⟩
  · cases s <;> rfl
  · rename_i m e
    obtain ⟨b, hb⟩ : ∃ b : Nat, e + 150 = b := ⟨(e + 150).toNat, by omega⟩
    obtain rfl : e = b - 150 := by omega
    change UnpackedFloat.unpack .binary32 (UnpackedFloat.pack .binary32 _) = _
    rw [pack_normal s hpos (log2_of_full hfull hfits) hb (by omega)]
    exact unpack_of_fields hpos hfull hfits (by omega) (by omega)
      (sign_packComponents ..) unpackExponent_packComponents unpackMantissa_packComponents

/-! ## Products -/

/-- The places of the leading bits add up in a product. -/
theorem IsNormal.mul (hu : IsNormal j s u) (hv : IsNormal k t v) (hjk : j + k + 2 ≤ 125) :
    IsNormal (j + k + 2) (s * t) (UnpackedFloat.mul .binary32 u v) := by
  obtain ⟨hpos, hfull, hfits, hlow, hhigh⟩ := hu
  obtain ⟨hpos', hfull', hfits', hlow', hhigh'⟩ := hv
  have hlog := log2_mul hpos hpos'
  rw [log2_of_full hfull hfits, log2_of_full hfull' hfits'] at hlog
  have hwide := Nat.mul_le_mul hfull hfull'
  exact normal_roundWithAccuracy hjk (by omega) (by omega) (by omega) _ _

/-- A square is positive. -/
theorem IsNormal.square (h : IsNormal k s u) (hk : k + k + 2 ≤ 125) :
    IsNormal (k + k + 2) .positive (UnpackedFloat.mul .binary32 u u) := by
  have hsquare := h.mul h hk
  have hsign : s * s = .positive := by cases s <;> rfl
  rwa [hsign] at hsquare

/-- The square of a moderate value is not negative. -/
theorem Moderate.square (h : Moderate k u) (hk : k + k + 2 ≤ 125) :
    NotNegative (k + k + 2) (UnpackedFloat.mul .binary32 u u) := by
  rcases h with ⟨s, rfl⟩ | ⟨s, h⟩
  · exact .inl ⟨_, rfl⟩
  · exact .inr (h.square hk)

/-- Nothing but an infinity makes a product with zero other than zero. -/
theorem Moderate.mul_zero (h : Moderate k u) (t : Sign) :
    ∃ s, UnpackedFloat.mul .binary32 u (.zero t) = .zero s := by
  rcases h with ⟨s, rfl⟩ | ⟨s, h⟩
  · exact ⟨_, rfl⟩
  · cases h
    exact ⟨_, rfl⟩

/-! ## Sums and differences -/

/-- The leading bit stays where it is when a mantissa moves to a lower exponent. -/
theorem log2_aligned {m : Nat} {e place : Int} (hfull : 0x800000 ≤ m) (hfits : m < 0x1000000)
    (hplace : place ≤ e) :
    0 < m <<< (e - place).toNat ∧ ((m <<< (e - place).toNat).log2 : Int) + place = e + 23 := by
  have hlog := log2_shiftLeft (m := m) (by omega) (e - place).toNat
  rw [log2_of_full hfull hfits] at hlog
  refine ⟨?_, by omega⟩
  rw [Nat.shiftLeft_eq]
  exact Nat.mul_pos (by omega) (Nat.two_pow_pos _)

/-- Two positive values do not cancel, so their sum is normal. -/
theorem IsNormal.add (hu : IsNormal k .positive u) (hv : IsNormal k .positive v)
    (hk : k + 2 ≤ 125) : IsNormal (k + 2) .positive (UnpackedFloat.add .binary32 u v) := by
  obtain ⟨hpos, hfull, hfits, hlow, hhigh⟩ := hu
  obtain ⟨hpos', hfull', hfits', hlow', hhigh'⟩ := hv
  rename_i m e m' e'
  obtain ⟨hm, hplace⟩ := log2_aligned hfull hfits (Int.min_le_left e e')
  obtain ⟨hn, hplace'⟩ := log2_aligned hfull' hfits' (Int.min_le_right e e')
  -- Over the smaller of the two exponents both values are integers.
  change IsNormal _ _ (UnpackedFloat.normalize .binary32
    ((m <<< (e - min e e').toNat : Nat) + (m' <<< (e' - min e e').toNat : Nat)) (min e e')
    .positive)
  generalize m <<< (e - min e e').toNat = m at hm hplace ⊢
  generalize m' <<< (e' - min e e').toNat = n at hn hplace' ⊢
  have hmono := log2_mono (n := m + n) hm (by omega)
  have hlog := log2_le_of_le_add (i := m + n) (by omega) (Nat.le_refl _)
  have habs : ((m : Int) + n).natAbs = m + n := by omega
  have hnormal := normal_normalize hk (n := m + n) (e := min e e') (by omega)
    (by rw [habs]; omega) (by rw [habs]; omega) .positive
  rwa [if_neg (by omega)] at hnormal

/-- A difference may lose all but its last bit. -/
theorem IsNormal.sub (hu : IsNormal k s u) (hv : IsNormal k t v) (hk : k + 25 ≤ 125) :
    Moderate (k + 25) (UnpackedFloat.sub .binary32 u v) := by
  obtain ⟨hpos, hfull, hfits, hlow, hhigh⟩ := hu
  obtain ⟨hpos', hfull', hfits', hlow', hhigh'⟩ := hv
  rename_i m e m' e'
  obtain ⟨-, hplace⟩ := log2_aligned hfull hfits (Int.min_le_left e e')
  obtain ⟨-, hplace'⟩ := log2_aligned hfull' hfits' (Int.min_le_right e e')
  change Moderate _ (UnpackedFloat.normalize .binary32
    (s.apply (m <<< (e - min e e').toNat : Nat) - t.apply (m' <<< (e' - min e e').toNat : Nat))
    (min e e') .positive)
  generalize m <<< (e - min e e').toNat = m at hplace ⊢
  generalize m' <<< (e' - min e e').toNat = n at hplace' ⊢
  have habs : (s.apply m - t.apply n).natAbs ≤ m + n := by
    cases s <;> cases t <;> dsimp only [Sign.apply] <;> omega
  by_cases hzero : s.apply m - t.apply n = 0
  · exact .inl ⟨.positive, by rw [hzero]; rfl⟩
  · have hlog := log2_le_of_le_add (by omega) habs
    exact (normal_normalize hk hzero (by omega) (by omega) .positive).moderate

/-- Negation only turns the sign. -/
theorem IsNormal.neg (h : IsNormal k s u) : IsNormal k (-s) u.neg := by
  obtain ⟨hpos, hfull, hfits, hlow, hhigh⟩ := h
  exact .finite hpos hfull hfits hlow hhigh

/-- Adding a zero of either sign to a normal value leaves it as it is. -/
theorem IsNormal.add_zero (h : IsNormal k s u) (t : Sign) :
    UnpackedFloat.add .binary32 u (.zero t) = u := by
  cases h
  rfl

/-- A value that is not negative does not cancel a positive one. -/
theorem NotNegative.add_normal (hu : NotNegative k u) (hv : IsNormal k .positive v)
    (hk : k + 2 ≤ 125) : IsNormal (k + 2) .positive (UnpackedFloat.add .binary32 u v) := by
  rcases hu with ⟨s, rfl⟩ | hu
  · have hsame : UnpackedFloat.add .binary32 (.zero s) v = v := by
      cases hv
      rfl
    rw [hsame]
    exact hv.mono (by omega)
  · exact hu.add hv hk

/-- The sum of values that are not negative is not negative. -/
theorem NotNegative.add (hu : NotNegative k u) (hv : NotNegative k v) (hk : k + 2 ≤ 125) :
    NotNegative (k + 2) (UnpackedFloat.add .binary32 u v) := by
  rcases hv with ⟨t, rfl⟩ | hv
  · rcases hu with ⟨s, rfl⟩ | hu
    · cases s <;> cases t <;> exact .inl ⟨_, rfl⟩
    · rw [hu.add_zero]
      exact .inr (hu.mono (by omega))
  · exact .inr (hu.add_normal hv hk)

/-- A difference may cancel down to zero or to its lowest bit, which is at most 25 places away. -/
theorem Moderate.sub (hu : Moderate k u) (hv : Moderate k v) (hk : k + 25 ≤ 125) :
    Moderate (k + 25) (UnpackedFloat.sub .binary32 u v) := by
  rcases hu with ⟨s, rfl⟩ | ⟨s, hu⟩
  · rcases hv with ⟨t, rfl⟩ | ⟨t, hv⟩
    · cases s <;> cases t <;> exact .inl ⟨_, rfl⟩
    · have hsame : UnpackedFloat.sub .binary32 (.zero s) v = v.neg := by
        cases hv
        rfl
      rw [hsame]
      exact (hv.neg.mono (by omega)).moderate
  · rcases hv with ⟨t, rfl⟩ | ⟨t, hv⟩
    · have hsame : UnpackedFloat.sub .binary32 u (.zero t) = u := by
        cases hu
        rfl
      rw [hsame]
      exact (hu.mono (by omega)).moderate
    · exact hu.sub hv hk

/-! ## Quotients -/

/-- The quotient of two mantissas is taken with 24 bits or 25. -/
theorem divCore_eq {m m' : Nat} {e e' : Int} (hfull : 0x800000 ≤ m) (hfits : m < 0x1000000)
    (hfull' : 0x800000 ≤ m') (hfits' : m' < 0x1000000) (hlow : -125 ≤ e - e') :
    divCore .binary32 m e m' e' =
      (m <<< 24 / m', e - e' - 24, accuracyOfFraction (m <<< 24 % m') m') := by
  have hplace : min (e - e') (Format.binary32.targetExponent
      (totalExponent m e - totalExponent m' e')) = e - e' - 24 := by
    rw [targetExponent_eq, totalExponent, totalExponent, log2_of_full hfull hfits,
      log2_of_full hfull' hfits']
    omega
  have hshift : (e - e' - (e - e' - 24)).toNat = 24 := by omega
  rw [divCore, hplace, hshift]

/-- The places of the leading bits subtract in a quotient. -/
theorem IsNormal.div (hu : IsNormal j s u) (hv : IsNormal k t v) (hjk : j + k + 1 ≤ 125) :
    IsNormal (j + k + 1) (s / t) (UnpackedFloat.div .binary32 u v) := by
  obtain ⟨hpos, hfull, hfits, hlow, hhigh⟩ := hu
  obtain ⟨hpos', hfull', hfits', hlow', hhigh'⟩ := hv
  rename_i m e m' e'
  have hwide : 0x800000 ≤ m <<< 24 / m' := by
    rw [Nat.shiftLeft_eq]
    exact (Nat.le_div_iff_mul_le hpos').mpr (by omega)
  have hnarrow : m <<< 24 / m' < 0x2000000 := by
    rw [Nat.shiftLeft_eq]
    exact (Nat.div_lt_iff_lt_mul hpos').mpr (by omega)
  have hlog : 23 ≤ (m <<< 24 / m').log2 := (Nat.le_log2 (by omega)).mpr hwide
  have hlog' : (m <<< 24 / m').log2 < 25 := (Nat.log2_lt (by omega)).mpr hnarrow
  change IsNormal _ _ (roundWithAccuracy .binary32 (s / t) (divCore .binary32 m e m' e').1
    (divCore .binary32 m e m' e').2.1 (divCore .binary32 m e m' e').2.2)
  rw [divCore_eq hfull hfits hfull' hfits' (by omega)]
  exact normal_roundWithAccuracy hjk hwide (by dsimp only; omega) (by dsimp only; omega) _ _

/-- **A quotient stays moderate** unless it is taken by zero. -/
theorem Moderate.div (hu : Moderate j u) (hv : IsNormal k t v) (hjk : j + k + 1 ≤ 125) :
    Moderate (j + k + 1) (UnpackedFloat.div .binary32 u v) := by
  rcases hu with ⟨s, rfl⟩ | ⟨s, hu⟩
  · cases hv
    exact .inl ⟨_, rfl⟩
  · exact (hu.div hv hjk).moderate

/-! ## Square roots -/

/-- The root of a mantissa of 48 bits is a mantissa of 24 bits. -/
theorem sqrt_bounds {n : Nat} (hlow : 0x400000000000 ≤ n) (hhigh : n < 0x1000000000000) :
    0x800000 ≤ n.sqrt ∧ n.sqrt < 0x1000000 := by
  have hbelow := Nat.sqrt_le n
  have habove := Nat.lt_succ_sqrt n
  constructor
  · apply Decidable.byContradiction
    intro h
    have hsquare := Nat.mul_le_mul (show n.sqrt.succ ≤ 0x800000 by omega)
      (show n.sqrt.succ ≤ 0x800000 by omega)
    omega
  · apply Decidable.byContradiction
    intro h
    have hsquare := Nat.mul_le_mul (show 0x1000000 ≤ n.sqrt by omega)
      (show 0x1000000 ≤ n.sqrt by omega)
    omega

/-- A square root halves the place of the leading bit. -/
theorem IsNormal.sqrt (h : IsNormal k .positive u) (hk : k ≤ 125) :
    IsNormal (k / 2 + 1) .positive (UnpackedFloat.sqrt .binary32 u) := by
  obtain ⟨hpos, hfull, hfits, hlow, hhigh⟩ := h
  rename_i m e
  have hplace : min (e.ediv 2) (Format.binary32.targetExponent
      ((totalExponent m e + 1).ediv 2)) = (e + 25) / 2 - 24 := by
    rw [targetExponent_eq, totalExponent, log2_of_full hfull hfits]
    change min (e / 2) (max ((23 + 1 + e + 1) / 2 - 24) (-149)) = _
    omega
  have hroot : 0x800000 ≤ (m <<< (e - 2 * ((e + 25) / 2 - 24)).toNat).sqrt ∧
      (m <<< (e - 2 * ((e + 25) / 2 - 24)).toNat).sqrt < 0x1000000 := by
    -- The shift makes the exponent even.
    have hshift : (e - 2 * ((e + 25) / 2 - 24)).toNat = 23 ∨
        (e - 2 * ((e + 25) / 2 - 24)).toNat = 24 := by omega
    rcases hshift with hshift | hshift
    · rw [hshift, Nat.shiftLeft_eq]
      exact sqrt_bounds (by omega) (by omega)
    · rw [hshift, Nat.shiftLeft_eq]
      exact sqrt_bounds (by omega) (by omega)
  have hlog := log2_of_full hroot.1 hroot.2
  change IsNormal _ _ (roundWithAccuracy .binary32 .positive (sqrtCore .binary32 m e).1
    (sqrtCore .binary32 m e).2.1 (sqrtCore .binary32 m e).2.2)
  dsimp only [sqrtCore]
  rw [hplace]
  exact normal_roundWithAccuracy (by omega) hroot.1 (by omega) (by omega) _ _

/-- The square root of a value that is not negative is not negative. -/
theorem NotNegative.sqrt (h : NotNegative k u) (hk : k ≤ 125) :
    NotNegative (k / 2 + 1) (UnpackedFloat.sqrt .binary32 u) := by
  rcases h with ⟨s, rfl⟩ | h
  · exact .inl ⟨s, rfl⟩
  · exact .inr (h.sqrt hk)

/-! ## Operations on words -/

/-- The value that a word stands for. -/
def unpacked (x : Float32) : UnpackedFloat :=
  x.toModel.unpack

variable {x y : Float32}

/-- Numbers in words multiply as unpacked ones do, if the product is moderate. -/
theorem unpacked_mul (h : Moderate 125 (UnpackedFloat.mul .binary32 (unpacked x) (unpacked y))) :
    unpacked (x * y) = UnpackedFloat.mul .binary32 (unpacked x) (unpacked y) :=
  unpack_pack h

/-- Numbers in words add as unpacked ones do, if the sum is moderate. -/
theorem unpacked_add (h : Moderate 125 (UnpackedFloat.add .binary32 (unpacked x) (unpacked y))) :
    unpacked (x + y) = UnpackedFloat.add .binary32 (unpacked x) (unpacked y) :=
  unpack_pack h

/-- Numbers in words subtract as unpacked ones do, if the difference is moderate. -/
theorem unpacked_sub (h : Moderate 125 (UnpackedFloat.sub .binary32 (unpacked x) (unpacked y))) :
    unpacked (x - y) = UnpackedFloat.sub .binary32 (unpacked x) (unpacked y) :=
  unpack_pack h

/-- Numbers in words divide as unpacked ones do, if the quotient is moderate. -/
theorem unpacked_div (h : Moderate 125 (UnpackedFloat.div .binary32 (unpacked x) (unpacked y))) :
    unpacked (x / y) = UnpackedFloat.div .binary32 (unpacked x) (unpacked y) :=
  unpack_pack h

/-- The root of a number in a word is that of the unpacked one, if it is moderate. -/
theorem unpacked_sqrt (h : Moderate 125 (UnpackedFloat.sqrt .binary32 (unpacked x))) :
    unpacked x.sqrt = UnpackedFloat.sqrt .binary32 (unpacked x) :=
  unpack_pack h

/-- Turning the sign in a word turns that of the unpacked value. -/
theorem unpacked_neg (h : IsNormal 125 s (unpacked x)) : unpacked x.neg = (unpacked x).neg :=
  unpack_pack h.neg.moderate

/-! ## Integers -/

/-- A small number is converted as a word and multiplied by one. -/
theorem ofNat_eq {n : Nat} (hn : n < 0x800000) :
    Float32.ofNat n = n.toUInt64.toFloat32 * Float32.ofBits 0x3F800000 := by
  change Float32.ofScientific n false 0 = _
  rw [Float32.ofScientific, dif_pos ⟨hn, by decide⟩]
  rfl

/-- The number one is normal, with its leading bit right at the point. -/
theorem normal_one : IsNormal 0 .positive (unpacked (Float32.ofBits 0x3F800000)) := by
  have hone : unpacked (Float32.ofBits 0x3F800000) =
      .finite .positive 0x800000 (-23) (by decide) := rfl
  rw [hone]
  exact .finite _ (by decide) (by decide) (by decide) (by decide)

/-- A number below 2¹⁷ becomes the value that it is rounded to. -/
theorem unpacked_toFloat32 {n : Nat} (hn : n < 0x20000) :
    unpacked n.toUInt64.toFloat32 =
      (Float32.Model.pack (UnpackedFloat.normalize .binary32 n 0 .positive)).unpack := by
  have hnat : n.toUInt64.toNat = n := by
    change n % 18446744073709551616 = n
    omega
  change (Float32.Model.pack
    (UnpackedFloat.normalize .binary32 n.toUInt64.toNat 0 .positive)).unpack = _
  rw [hnat]

/-- A positive number below 2¹⁷ becomes a positive normal value. -/
theorem normal_ofNat {n : Nat} (hpos : 0 < n) (hn : n < 0x20000) :
    IsNormal 19 .positive (unpacked (Float32.ofNat n)) := by
  have hlog : n.log2 < 17 := (Nat.log2_lt (by omega)).mpr hn
  have habs : (n : Int).natAbs = n := by omega
  have hrounded := normal_normalize (k := 17) (n := n) (e := 0) (by decide) (by omega)
    (by rw [habs]; omega) (by rw [habs]; omega) .positive
  rw [if_neg (by omega)] at hrounded
  have hunpacked := unpacked_toFloat32 hn
  rw [unpack_pack (hrounded.mono (by decide)).moderate] at hunpacked
  rw [← hunpacked] at hrounded
  have hproduct := hrounded.mul normal_one (by decide)
  rw [← unpacked_mul (hproduct.mono (by decide)).moderate, ← ofNat_eq (by omega)] at hproduct
  exact hproduct

/-- A number below 2¹⁷ becomes a moderate value. -/
theorem moderate_ofNat {n : Nat} (hn : n < 0x20000) : Moderate 19 (unpacked (Float32.ofNat n)) := by
  rcases Nat.eq_zero_or_pos n with rfl | hpos
  · exact .inl ⟨.positive, rfl⟩
  · exact (normal_ofNat hpos hn).moderate

/-- An integer between -2¹⁷ and 2¹⁷ other than zero becomes a normal value. -/
theorem normal_ofInt {n : Int} (hne : n ≠ 0) (hlow : -0x20000 < n) (hhigh : n < 0x20000) :
    ∃ s, IsNormal 19 s (unpacked (Float32.ofInt n)) := by
  rcases Int.lt_or_gt_of_ne hne with hneg | hpos
  · obtain ⟨m, rfl⟩ := Int.eq_negSucc_of_lt_zero hneg
    have hnormal := normal_ofNat (n := m.succ) (by omega) (by omega)
    refine ⟨-.positive, ?_⟩
    change IsNormal 19 _ (unpacked (Float32.ofNat m.succ).neg)
    rw [unpacked_neg (hnormal.mono (by decide))]
    exact hnormal.neg
  · obtain ⟨m, rfl⟩ := Int.eq_ofNat_of_zero_le (Int.le_of_lt hpos)
    exact ⟨_, normal_ofNat (by omega) (by omega)⟩

/-- An integer between -2¹⁷ and 2¹⁷ becomes a moderate value. -/
theorem moderate_ofInt {n : Int} (hlow : -0x20000 < n) (hhigh : n < 0x20000) :
    Moderate 19 (unpacked (Float32.ofInt n)) := by
  by_cases hzero : n = 0
  · exact .inl ⟨.positive, by rw [hzero]; rfl⟩
  · exact .inr (normal_ofInt hzero hlow hhigh)

end SinglePrecision
end PlayStation
