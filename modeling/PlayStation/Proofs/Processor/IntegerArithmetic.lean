import PlayStation.Proofs.Processor.BranchDelay

/-!
# Integer arithmetic at its limits

What the trapping sums and differences, the long products and the divisions
compute, told in numbers.  `checked?` reads off an instruction word which
register it writes and the exact result, a number that need not fit into a
word; `long?` reads off which long operation it asks for, and
`LongOperation.Law` says what that operation owes to its operands.

The main result is `integer_arithmetic`: a tick traps on overflow exactly
when the exact result does not fit, and otherwise writes it; a tick with a
long operation never traps and leaves what the law demands, for all operands.
-/

namespace PlayStation

open Bits

/-- The numbers that a word can hold with a sign. -/
def FitsWord (value : Int) : Prop :=
  -0x80000000 ≤ value ∧ value ≤ 0x7FFFFFFF

instance (value : Int) : Decidable (FitsWord value) :=
  inferInstanceAs (Decidable (_ ∧ _))

/-- The number that the two result registers hold together. -/
def HiLo.toNat (result : HiLo) : Nat :=
  result.hi.toNat * 0x100000000 + result.lo.toNat

/-- What a long operation on `a` and `b` owes.  A product is the exact one, a
negative one modulo 2^64.  A division by any number splits the dividend; by a
number other than 0 it leaves a remainder closer to zero than the divisor, on the
side of the dividend. -/
def LongOperation.Law (a b : UInt32) (result : HiLo) : LongOperation → Prop
  | multiply =>
      (result.toNat : Int) = a.toInt32.toInt * b.toInt32.toInt % 0x10000000000000000
  | multiplyUnsigned => result.toNat = a.toNat * b.toNat
  | divide =>
      result.lo * b + result.hi = a ∧
        (b ≠ 0 →
          result.hi.toInt32.toInt.natAbs < b.toInt32.toInt.natAbs ∧
          (result.hi = 0 ∨ result.hi.toInt32.toInt.sign = a.toInt32.toInt.sign))
  | divideUnsigned => result.lo * b + result.hi = a ∧ (b ≠ 0 → result.hi < b)

namespace Arithmetic

/-! ## Sums and differences -/

/-- A number that fits is written as it is. -/
theorem ofSigned?_of_fits {value : Int} (h : FitsWord value) :
    ∃ word, ofSigned? value = some word ∧ word.toInt32.toInt = value := by
  refine ⟨_, if_pos h, ?_⟩
  rw [Int32.toInt32_toUInt32, Int32.toInt_ofInt_of_le h.1 (Int.lt_add_one_of_le h.2)]

/-- No word stands for a number that does not fit. -/
theorem ofSigned?_of_not_fits {value : Int} (h : ¬ FitsWord value) : ofSigned? value = none :=
  if_neg h

/-! ## Products -/

/-- The two halves of a product make it up. -/
theorem toNat_halves (product : UInt64) : (halves product).toNat = product.toNat := by
  have hhi : (product >>> 32).toUInt32.toNat = product.toNat / 0x100000000 := by
    have hlt := product.toNat_lt
    rw [UInt64.toNat_toUInt32, UInt64.toNat_shiftRight]
    change (product.toNat >>> 32) % 0x100000000 = _
    rw [Nat.shiftRight_eq_div_pow]
    omega
  rw [HiLo.toNat, halves, hhi, UInt64.toNat_toUInt32]
  omega

/-- The unsigned product is exact. -/
theorem toNat_multiplyUnsigned (a b : UInt32) :
    (multiplyUnsigned a b).toNat = a.toNat * b.toNat := by
  have hbound : a.toNat * b.toNat < 0x100000000 * 0x100000000 :=
    Nat.mul_lt_mul'' a.toNat_lt b.toNat_lt
  rw [multiplyUnsigned, toNat_halves, UInt64.toNat_mul, UInt32.toNat_toUInt64,
    UInt32.toNat_toUInt64]
  exact Nat.mod_eq_of_lt hbound

/-- The signed product is exact, as a number of 64 bits in two's complement. -/
theorem toNat_multiply (a b : UInt32) :
    ((multiply a b).toNat : Int) =
      a.toInt32.toInt * b.toInt32.toInt % 0x10000000000000000 := by
  have hsize : (0x10000000000000000 : Int) = (0x10000000000000000 : Nat) := rfl
  have hunsigned (x : Int64) : (x.toUInt64.toNat : Int) = x.toInt % 0x10000000000000000 := by
    have hlt : x.toUInt64.toNat < 0x10000000000000000 := x.toUInt64.toNat_lt
    have hsigned : x.toInt = Int.bmod (x.toUInt64.toNat : Int) 0x10000000000000000 :=
      BitVec.toInt_eq_toNat_bmod x.toBitVec
    rw [hsigned, hsize, Int.bmod_emod]
    omega
  have hproduct : (a.toInt32.toInt64 * b.toInt32.toInt64).toInt =
      Int.bmod (a.toInt32.toInt * b.toInt32.toInt) 0x10000000000000000 := by
    rw [Int64.toInt_mul, Int32.toInt_toInt64, Int32.toInt_toInt64]
  rw [multiply, toNat_halves, hunsigned, hproduct, hsize, Int.bmod_emod]

/-! ## Quotients -/

/-- Quotient and remainder give back the dividend.  The quotient of the least word
by -1 wraps, which the modulus of the words forgives. -/
theorem div_mul_add_mod (n d : Int32) : n / d * d + n % d = n := by
  have hsplit := Int.tdiv_mul_add_tmod n.toInt d.toInt
  have hquotient : n / d = Int32.ofInt (n.toInt.tdiv d.toInt) := by
    rw [Int32.ofInt_tdiv n.minValue_le_toInt n.toInt_le d.minValue_le_toInt d.toInt_le,
      Int32.ofInt_toInt, Int32.ofInt_toInt]
  have hremainder : n % d = Int32.ofInt (n.toInt.tmod d.toInt) := by
    rw [← Int32.toInt_mod, Int32.ofInt_toInt]
  calc n / d * d + n % d
      = Int32.ofInt (n.toInt.tdiv d.toInt) * Int32.ofInt d.toInt +
          Int32.ofInt (n.toInt.tmod d.toInt) := by rw [hquotient, hremainder, Int32.ofInt_toInt]
    _ = Int32.ofInt (n.toInt.tdiv d.toInt * d.toInt + n.toInt.tmod d.toInt) := by
        rw [Int32.ofInt_add, Int32.ofInt_mul]
    _ = n := by rw [hsplit, Int32.ofInt_toInt]

/-- A divisor that is not zero is not zero as a signed number. -/
theorem toInt_toInt32_ne_zero {d : UInt32} (hd : d ≠ 0) : d.toInt32.toInt ≠ 0 := by
  intro h
  have hzero : d.toInt32 = 0 := Int32.toInt_inj.mp h
  exact hd ((UInt32.toUInt32_toInt32 d).symm.trans (congrArg Int32.toUInt32 hzero))

/-- Signed division obeys its law, by zero and at the overflow too. -/
theorem law_divide (n d : UInt32) : LongOperation.divide.Law n d (divide n d) := by
  unfold divide
  by_cases hd : d = 0
  · rw [if_pos hd]
    refine ⟨?_, fun h => absurd hd h⟩
    rw [hd, UInt32.mul_zero, UInt32.zero_add]
  · have hremainder : (n.toInt32 % d.toInt32).toUInt32.toInt32.toInt =
        n.toInt32.toInt.tmod d.toInt32.toInt := by
      rw [Int32.toInt32_toUInt32, Int32.toInt_mod]
    rw [if_neg hd]
    dsimp only [LongOperation.Law]
    rw [hremainder]
    refine ⟨?_, fun _ => ⟨?_, ?_⟩⟩
    · have hsplit := congrArg Int32.toUInt32 (div_mul_add_mod n.toInt32 d.toInt32)
      rwa [Int32.toUInt32_add, Int32.toUInt32_mul, UInt32.toUInt32_toInt32,
        UInt32.toUInt32_toInt32] at hsplit
    · rw [Int.natAbs_tmod]
      exact Nat.mod_lt _ (Int.natAbs_pos.mpr (toInt_toInt32_ne_zero hd))
    · by_cases hdvd : d.toInt32.toInt ∣ n.toInt32.toInt
      · rw [Int.tmod_eq_zero_of_dvd hdvd] at hremainder
        exact Or.inl (Decidable.of_not_not fun hne => toInt_toInt32_ne_zero hne hremainder)
      · rw [Int.sign_tmod, if_neg hdvd]
        exact Or.inr rfl

theorem law_divideUnsigned (n d : UInt32) :
    LongOperation.divideUnsigned.Law n d (divideUnsigned n d) := by
  unfold divideUnsigned
  by_cases hd : d = 0
  · rw [if_pos hd]
    refine ⟨?_, fun h => absurd hd h⟩
    rw [hd, UInt32.mul_zero, UInt32.zero_add]
  · rw [if_neg hd]
    refine ⟨?_, fun _ => UInt32.mod_lt n (UInt32.pos_iff_ne_zero.mpr hd)⟩
    have hsplit := Nat.div_add_mod' n.toNat d.toNat
    have hlt := n.toNat_lt
    apply UInt32.toNat.inj
    rw [UInt32.toNat_add, UInt32.toNat_mul, UInt32.toNat_div, UInt32.toNat_mod, Nat.mod_add_mod,
      hsplit]
    exact Nat.mod_eq_of_lt hlt

/-- **Every long operation keeps its law**, for all operands. -/
theorem law_long (op : LongOperation) (a b : UInt32) : op.Law a b (Processor.long op a b) := by
  cases op with
  | multiply => exact toNat_multiply a b
  | multiplyUnsigned => exact toNat_multiplyUnsigned a b
  | divide => exact law_divide a b
  | divideUnsigned => exact law_divideUnsigned a b

/-- The quotient of the least word by -1 is the least word again. -/
example : Processor.long .divide 0x80000000 0xFFFFFFFF = ⟨0, 0x80000000⟩ := by decide

end Arithmetic

/-! ## What a word asks for -/

/-- The long operation that an instruction word asks for. -/
def longOperation? (word : UInt32) : Option LongOperation :=
  match (word >>> 26).toNat with
  | 0x00 =>
      match (slice word 0 6).toNat with
      | 0x18 => some .multiply
      | 0x19 => some .multiplyUnsigned
      | 0x1A => some .divide
      | 0x1B => some .divideUnsigned
      | _ => none
  | _ => none

/-- An immediate operand is the low half of the word, read with its sign. -/
theorem toInt_signedImmediate (word : UInt32) :
    (Instruction.signedImmediate word).toInt32.toInt = word.toUInt16.toInt16.toInt := by
  have hlow : (word <<< 16).toBitVec.toNat = word.toNat % 0x10000 * 0x10000 := by
    change (word <<< 16).toNat = _
    rw [UInt32.toNat_shiftLeft]
    change word.toNat <<< 16 % 0x100000000 = _
    rw [Nat.shiftLeft_eq]
    omega
  have hhalf : word.toUInt16.toBitVec.toNat = word.toNat % 0x10000 := UInt32.toNat_toUInt16 word
  have hextend : (signExtend word 16).toBitVec = (word <<< 16).toBitVec.sshiftRight 16 :=
    Int32.toBitVec_shiftRight _ _
  have hsigned : word.toUInt16.toInt16.toInt = word.toUInt16.toBitVec.toInt := rfl
  rw [Instruction.signedImmediate, Int32.toInt32_toUInt32, ← Int32.toInt_toBitVec, hextend,
    BitVec.toInt_sshiftRight, hsigned, Int.shiftRight_eq_div_pow, BitVec.toInt_eq_toNat_cond,
    BitVec.toInt_eq_toNat_cond, hlow, hhalf]
  omega

namespace Processor

variable {β : Type} [Bus β]

/-- The register that a trapping sum or difference is for, and its exact result. -/
def checked? (p : Processor) (word : UInt32) : Option (Register × Int) :=
  let rs := (p.reg (Instruction.registerAt word 21)).toInt32.toInt
  let rt := (p.reg (Instruction.registerAt word 16)).toInt32.toInt
  match (word >>> 26).toNat with
  | 0x00 =>
      match (slice word 0 6).toNat with
      | 0x20 => some (Instruction.registerAt word 11, rs + rt)
      | 0x22 => some (Instruction.registerAt word 11, rs - rt)
      | _ => none
  | 0x08 => some (Instruction.registerAt word 16, rs + word.toUInt16.toInt16.toInt)
  | _ => none

/-- The target of checked arithmetic is a register that there is. -/
theorem checked?_lt {p : Processor} {word : UInt32} {target : Register} {result : Int}
    (h : p.checked? word = some (target, result)) : target < 32 := by
  unfold checked? at h
  dsimp only at h
  split at h
  · split at h <;> cases h <;> exact registerAt_lt word 11
  · cases h
    exact registerAt_lt word 16
  · cases h

/-- A trapping sum or difference writes its exact result, if there is a word for it. -/
theorem effect_of_checked? {p : Processor} {word : UInt32} {target : Register} {result : Int}
    (h : p.checked? word = some (target, result)) (bus : β) :
    p.effect (.decode word) bus = (checkedEffect target (Arithmetic.ofSigned? result), bus) := by
  unfold checked? at h
  dsimp only at h
  split at h
  case h_1 hopcode =>
    split at h
    case h_1 hcode =>
      cases h
      simp only [Instruction.decode, hopcode, Instruction.decodeSpecial, hcode]
      rfl
    case h_2 hcode =>
      cases h
      simp only [Instruction.decode, hopcode, Instruction.decodeSpecial, hcode]
      rfl
    case h_3 => cases h
  case h_2 hopcode =>
    cases h
    rw [← toInt_signedImmediate]
    simp only [Instruction.decode, hopcode]
    rfl
  case h_3 => cases h

/-- A long operation writes its two results. -/
theorem effect_of_longOperation? (p : Processor) {word : UInt32} {op : LongOperation}
    (h : longOperation? word = some op) (bus : β) :
    p.effect (.decode word) bus =
      (.ok (.results (long op (p.reg (Instruction.registerAt word 21))
        (p.reg (Instruction.registerAt word 16)))), bus) := by
  unfold longOperation? at h
  split at h
  case h_1 hopcode =>
    split at h
    case h_5 => cases h
    all_goals
      rename_i hcode
      cases h
      simp only [Instruction.decode, hopcode, Instruction.decodeSpecial, hcode]
      rfl
  case h_2 => cases h

/-- What a tick comes to that fetches a trapping sum or difference. -/
theorem outcome_of_checked? {p : Processor} {bus : β} {fetched : Fetch}
    (hfetch : (p.fetch bus).1 = .ok fetched) (hinterrupt : p.control.interruptPending = false)
    {target : Register} {result : Int} (h : p.checked? fetched.word = some (target, result)) :
    (p.outcome bus).1 = checkedEffect target (Arithmetic.ofSigned? result) := by
  have hready : (p.ready bus).checked? fetched.word = some (target, result) := by
    rw [← h]
    unfold checked?
    simp only [reg_ready]
  rw [outcome_of_fetch hfetch hinterrupt, effect_of_checked? hready]

/-- What a tick comes to that fetches a long operation. -/
theorem outcome_of_longOperation? {p : Processor} {bus : β} {fetched : Fetch}
    (hfetch : (p.fetch bus).1 = .ok fetched) (hinterrupt : p.control.interruptPending = false)
    {op : LongOperation} (h : longOperation? fetched.word = some op) :
    (p.outcome bus).1 =
      .ok (.results (long op (p.reg (Instruction.registerAt fetched.word 21))
        (p.reg (Instruction.registerAt fetched.word 16)))) := by
  rw [outcome_of_fetch hfetch hinterrupt, effect_of_longOperation? _ h, reg_ready, reg_ready]

/-- **Integer arithmetic at its limits.**  Let a tick fetch a word, with no interrupt
pending, and let `q` be the processor after it.

* A trapping sum or difference takes an overflow trap exactly if its exact result
  does not fit into a word.  If it fits, it is written to the target, unless that is
  register 0, and nothing else happens to the registers but the due load.  If not,
  the due load alone reaches its register, and the handler is entered.
* A long operation takes no trap and leaves in the two result registers what its law
  demands. -/
theorem integer_arithmetic (p : Processor) (bus : β) {fetched : Fetch}
    (hfetch : (p.fetch bus).1 = .ok fetched) (hinterrupt : p.control.interruptPending = false)
    (hdue : ∀ load, p.pendingLoad = some load → load.reg < 32) :
    let q := (p.tick bus).2.1
    (∀ target result, p.checked? fetched.word = some (target, result) →
      p.trap? bus = (if FitsWord result then none else some (.plain .overflow)) ∧
      (FitsWord result → ∃ value, value.toInt32.toInt = result ∧
        q.regs = commit (written p.regs target value) (superseded p.pendingLoad target) ∧
        (target ≠ 0 → q.reg target = value)) ∧
      (¬ FitsWord result → q.regs = commit p.regs p.pendingLoad ∧
        q.control = p.entered (.plain .overflow))) ∧
    ∀ op, longOperation? fetched.word = some op →
      p.trap? bus = none ∧
      op.Law (p.reg (Instruction.registerAt fetched.word 21))
        (p.reg (Instruction.registerAt fetched.word 16)) ⟨q.hi, q.lo⟩ := by
  intro q
  refine ⟨fun target result h => ?_, fun op h => ?_⟩
  · have hout := outcome_of_checked? hfetch hinterrupt h
    by_cases hfits : FitsWord result
    · obtain ⟨value, hword, hvalue⟩ := Arithmetic.ofSigned?_of_fits hfits
      rw [hword, checkedEffect] at hout
      have htrap : p.trap? bus = none := by rw [trap?_eq, hout]
      have hregs : q.regs =
          commit (written p.regs target value) (superseded p.pendingLoad target) := by
        dsimp only [q]
        rw [tick_eq, hout]
        dsimp only [conclude]
        rw [settle_apply, ready_eq]
        rfl
      refine ⟨by rw [htrap, if_pos hfits], fun _ => ⟨value, hvalue, hregs, fun hne => ?_⟩,
        fun hnot => absurd hfits hnot⟩
      rw [reg_of_ne_zero _ hne, hregs]
      exact get_commit_superseded p.regs (checked?_lt h) hne value hdue
    · rw [Arithmetic.ofSigned?_of_not_fits hfits, checkedEffect] at hout
      have htrap : p.trap? bus = some (.plain .overflow) := trap?_eq_some_iff.mpr hout
      refine ⟨by rw [htrap, if_neg hfits], fun hyes => absurd hyes hfits, fun _ => ?_⟩
      dsimp only [q]
      rw [tick_of_trap?_eq_some htrap]
      exact ⟨rfl, rfl⟩
  · have hout := outcome_of_longOperation? hfetch hinterrupt h
    refine ⟨by rw [trap?_eq, hout], ?_⟩
    dsimp only [q]
    rw [tick_eq, hout]
    dsimp only [conclude]
    rw [settle_apply]
    exact Arithmetic.law_long op _ _

/-- The word `sub r3, r1, r2` at address 0, for the least number and 1: the exact
difference is one less than a word can hold. -/
theorem integer_arithmetic_of_least :
    let p := (((initial .ignore).setPc 0).setReg 1 0x80000000).setReg 2 1
    let ram : Memory := ⟨#[0x22, 0x18, 0x22, 0]⟩
    (p.fetch ram).1 = .ok ⟨0x00221822, 4⟩ ∧ p.control.interruptPending = false ∧
      (∀ load, p.pendingLoad = some load → load.reg < 32) ∧
      p.checked? 0x00221822 = some (3, -2147483649) ∧ ¬ FitsWord (-2147483649) ∧
      p.trap? ram = some (.plain .overflow) ∧ (p.tick ram).2.1.regs = p.regs := by
  intro p ram
  have hread : Bus.read ram .word (physicalAddress p.pc) = (.ok 0x00221822, ram) := by
    rw [show physicalAddress p.pc = 0 by decide]
    dsimp only [ram]
    rfl
  have hfetch : (p.fetch ram).1 = .ok ⟨0x00221822, 4⟩ :=
    congrArg Prod.fst (fetch_of_uncached (by decide) (by decide) hread)
  have hinterrupt : p.control.interruptPending = false := by decide
  have hdue : ∀ load, p.pendingLoad = some load → load.reg < 32 := nofun
  have hchecked : p.checked? 0x00221822 = some (3, -2147483649) := by decide
  have hfits : ¬ FitsWord (-2147483649) := by decide
  obtain ⟨htrap, -, hregs⟩ :=
    (integer_arithmetic p ram hfetch hinterrupt hdue).1 3 (-2147483649) hchecked
  rw [if_neg hfits] at htrap
  exact ⟨hfetch, hinterrupt, hdue, hchecked, hfits, htrap, (hregs hfits).1⟩

end Processor
end PlayStation
