import PlayStation.Proofs.Processor.CacheMirror
import PlayStation.Proofs.Processor.Outcome

/-!
# What loads and stores reach

An instruction reads or writes data at one physical address at most
(`Processor.loaded?`, `Processor.stored?`).  An instruction is harmless for the blocks
that code was fetched from if it keeps away from the cache control register, from the
isolated cache and from those blocks (`Processor.Harmless`).  The effect of a harmless
instruction does not depend on the cache (`effect_withCache`), does not change it
(`Harmless.sparesCache`), and leaves the code in memory (`Harmless.keepsCode`).
-/

namespace PlayStation

open InstructionCache (block)

/-! ## Addresses -/

/-- A physical address ends in the bits of the virtual one. -/
theorem toNat_physicalAddress_mod (address : UInt32) :
    (physicalAddress address).toNat % 16 = address.toNat % 16 := by
  unfold physicalAddress
  split
  · have hlow : (address &&& 0x1FFFFFFF).toNat = address.toNat % 0x20000000 :=
      Bits.toNat_and_low address 0x1FFFFFFF (n := 29) rfl
    omega
  · rfl

/-- An address is aligned if the place where it leads is. -/
theorem toNat_physicalAddress_mod_bytes (address : UInt32) (width : Width) :
    (physicalAddress address).toNat % width.bytes = address.toNat % width.bytes := by
  have hmod := toNat_physicalAddress_mod address
  cases width <;> simp only [Width.bytes] <;> omega

/-- The address of the surrounding word is aligned. -/
theorem toNat_and_not_three (address : UInt32) : (address &&& ~~~3).toNat % 4 = 0 := by
  have hsplit := Bits.toNat_and_not_add address 3
  have hlow : (address &&& 3).toNat = address.toNat % 4 :=
    Bits.toNat_and_low address 3 (n := 2) rfl
  omega

namespace Processor

/-- The address at which a load reads. -/
def LoadKind.place (address : UInt32) : LoadKind → UInt32
  | .wordLeft | .wordRight => address &&& ~~~3
  | _ => address

/-- The address at which a store writes. -/
def StoreKind.place (address : UInt32) : StoreKind → UInt32
  | .wordLeft | .wordRight => address &&& ~~~3
  | _ => address

/-- How much a store writes. -/
def StoreKind.width : StoreKind → Width
  | .byte => .byte
  | .half => .half
  | .word | .wordLeft | .wordRight => .word

/-- The physical address that an instruction loads from, unless that is misaligned. -/
def loaded? (p : Processor) : Instruction → Option UInt32
  | .load kind _ base offset =>
      if (p.reg base + offset) &&& LoadKind.misalignment kind ≠ 0 then none
      else some (physicalAddress (LoadKind.place (p.reg base + offset) kind))
  | _ => none

/-- The physical address that an instruction stores to, unless that is misaligned. -/
def stored? (p : Processor) : Instruction → Option UInt32
  | .store kind _ base offset =>
      if (p.reg base + offset) &&& StoreKind.misalignment kind ≠ 0 then none
      else some (physicalAddress (StoreKind.place (p.reg base + offset) kind))
  | _ => none

/-- An instruction that does not access the cache control register, and does not store
to the isolated cache or to one of the given blocks. -/
structure Harmless (p : Processor) (blocks : List UInt32) (instruction : Instruction) : Prop where
  load : p.loaded? instruction ≠ some CacheControl.address
  store : ∀ address, p.stored? instruction = some address →
    address ≠ CacheControl.address ∧ p.control.isolated = false ∧ block address ∉ blocks

end Processor

/-! ## Writes to memory -/

namespace Memory

/-- A load depends on nothing but the bytes that it reads. -/
theorem load_congr {m m' : Memory} {offset count : Nat}
    (h : ∀ i, offset ≤ i → i < offset + count → m'.byte i = m.byte i) :
    m'.load offset count = m.load offset count := by
  induction count generalizing offset with
  | zero => rfl
  | succ count ih =>
      rw [load, load, h offset (Nat.le_refl _) (by omega),
        ih fun i hfirst hlast => h i (by omega) (by omega)]

/-- What of a memory stays when no code is overwritten: its size, and the words of the
blocks that code was fetched from. -/
structure KeepsCode (blocks : List UInt32) (before after : Memory) : Prop where
  size : after.size = before.size
  read : ∀ address, address.toNat % 4 = 0 → block address ∈ blocks →
    after.read .word address = before.read .word address

/-- A memory that stays as it is keeps all code. -/
theorem KeepsCode.refl (blocks : List UInt32) (m : Memory) : KeepsCode blocks m m :=
  ⟨rfl, fun _ _ _ => rfl⟩

/-- An aligned write touches one block only. -/
theorem write_keepsCode {m : Memory} {width : Width} {place : UInt32} {blocks : List UInt32}
    (value : UInt32) (hplace : place.toNat % width.bytes = 0) (hblock : block place ∉ blocks) :
    KeepsCode blocks m (m.write width place value).2 := by
  unfold write
  split
  · refine ⟨size_store _ _ _ _, fun address haddress hmem => ?_⟩
    have hother : address.toNat / 16 ≠ place.toNat / 16 := fun hsame =>
      hblock (InstructionCache.block_eq_iff.mpr hsame ▸ hmem)
    rw [read_word, read_word, size_store]
    congr 2
    apply load_congr
    intro i hfirst hlast
    apply byte_store_of_outside
    cases width <;> simp only [Width.bytes] at hplace ⊢ <;> omega
  · exact .refl blocks m

end Memory

namespace Processor

/-- The processor with another cache control register and another cache. -/
def withCache (p : Processor) (cacheControl : UInt32) (cache : InstructionCache) : Processor :=
  { p with cacheControl, cache }

variable {β : Type} [Bus β] {p : Processor} {blocks : List UInt32} {instruction : Instruction}

/-! ## Effects that do not depend on the cache -/

/-- Apart from the cache register, what is read as data does not depend on the cache. -/
theorem readData_withCache (cc : UInt32) (c : InstructionCache) {address : UInt32}
    (h : physicalAddress address ≠ CacheControl.address) (width : Width) (bus : β) :
    (p.withCache cc c).readData width address bus = p.readData width address bus := by
  unfold readData
  dsimp only
  rw [if_neg h, if_neg h]

theorem loadValue_withCache (cc : UInt32) (c : InstructionCache) {kind : LoadKind}
    {address : UInt32} (h : physicalAddress (LoadKind.place address kind) ≠ CacheControl.address)
    (target : Register) (bus : β) :
    (p.withCache cc c).loadValue kind target address bus =
      p.loadValue kind target address bus := by
  have hread (width : Width) := readData_withCache (p := p) cc c h width bus
  cases kind with
  | byteUnsigned => exact hread .byte
  | halfUnsigned => exact hread .half
  | word => exact hread .word
  | _ =>
      exact congrArg (fun result : Except Trap UInt32 × β => (result.1.map _, result.2)) (hread _)

/-- While the cache is not isolated, a store does not depend on it. -/
theorem writeEffect_withCache (cc : UInt32) (c : InstructionCache) {address : UInt32}
    (h : physicalAddress address ≠ CacheControl.address) (hisolated : p.control.isolated = false)
    (width : Width) (value : UInt32) (bus : β) :
    (p.withCache cc c).writeEffect width address value bus =
      p.writeEffect width address value bus := by
  have hisolated' : (p.withCache cc c).control.isolated = false := hisolated
  unfold writeEffect
  dsimp only
  rw [if_neg h, if_neg h, hisolated, hisolated']
  rfl

theorem updateEffect_withCache (cc : UInt32) (c : InstructionCache) {address : UInt32}
    (h : physicalAddress address ≠ CacheControl.address) (hisolated : p.control.isolated = false)
    (change : UInt32 → UInt32) (bus : β) :
    (p.withCache cc c).updateEffect address change bus = p.updateEffect address change bus := by
  unfold updateEffect
  rw [readData_withCache cc c h]
  rcases p.readData .word address bus with ⟨trap | word, bus'⟩
  · rfl
  · exact writeEffect_withCache cc c h hisolated .word (change word) bus'

/-- A harmless load that is aligned does not read the cache control register. -/
theorem Harmless.of_load {kind : LoadKind} {target base : Register} {offset : UInt32}
    (h : p.Harmless blocks (.load kind target base offset))
    (haligned : ¬ (p.reg base + offset) &&& LoadKind.misalignment kind ≠ 0) :
    physicalAddress (LoadKind.place (p.reg base + offset) kind) ≠ CacheControl.address := by
  intro hplace
  apply h.load
  rw [loaded?, if_neg haligned, hplace]

/-- A harmless store that is aligned goes to memory, outside the given blocks. -/
theorem Harmless.of_store {kind : StoreKind} {source base : Register} {offset : UInt32}
    (h : p.Harmless blocks (.store kind source base offset))
    (haligned : ¬ (p.reg base + offset) &&& StoreKind.misalignment kind ≠ 0) :
    physicalAddress (StoreKind.place (p.reg base + offset) kind) ≠ CacheControl.address ∧
      p.control.isolated = false ∧
      block (physicalAddress (StoreKind.place (p.reg base + offset) kind)) ∉ blocks := by
  apply h.store
  rw [stored?, if_neg haligned]

/-- **The effect of a harmless instruction does not depend on the cache.** -/
theorem effect_withCache (h : p.Harmless blocks instruction) (cc : UInt32) (c : InstructionCache)
    (bus : β) : (p.withCache cc c).effect instruction bus = p.effect instruction bus := by
  cases instruction with
  | load kind target base offset =>
      change (p.withCache cc c).loadEffect kind target (p.reg base + offset) bus =
        p.loadEffect kind target (p.reg base + offset) bus
      unfold loadEffect
      split
      · rfl
      · rename_i haligned
        rw [loadValue_withCache cc c (h.of_load haligned)]
  | store kind source base offset =>
      change (p.withCache cc c).storeEffect kind (p.reg source) (p.reg base + offset) bus =
        p.storeEffect kind (p.reg source) (p.reg base + offset) bus
      unfold storeEffect
      split
      · rfl
      · rename_i haligned
        obtain ⟨hplace, hisolated, -⟩ := h.of_store haligned
        cases kind with
        | wordLeft => exact updateEffect_withCache cc c hplace hisolated _ bus
        | wordRight => exact updateEffect_withCache cc c hplace hisolated _ bus
        | _ => exact writeEffect_withCache cc c hplace hisolated _ _ bus
  | _ => rfl

/-! ## Effects that leave the cache alone -/

end Processor

/-- The effects on anything but the cache and its control register. -/
def Effect.sparesCache : Effect → Bool
  | .cacheControl _ | .cache _ => false
  | _ => true

namespace Processor

variable {β : Type} [Bus β] {p : Processor} {blocks : List UInt32} {instruction : Instruction}

/-- An instruction that works on registers spares the cache. -/
theorem localEffect_sparesCache {e : Effect} (h : p.localEffect instruction = .ok e) :
    e.sparesCache = true := by
  have hchecked {target : Register} {result : Option UInt32}
      (h : checkedEffect target result = .ok e) : e.sparesCache = true := by
    cases result <;> cases h
    rfl
  cases instruction with
  | addChecked target a b => exact hchecked h
  | subtractChecked target a b => exact hchecked h
  | addCheckedImmediate target a value => exact hchecked h
  | coprocessor unit =>
      simp only [localEffect] at h
      split at h <;> cases h
      rfl
  | unknown =>
      simp only [localEffect] at h
      split at h <;> cases h
      rfl
  | syscall => cases h
  | breakpoint => cases h
  | _ => cases h; rfl

/-- A store apart from the cache register spares the cache while it is not isolated. -/
theorem writeEffect_sparesCache {width : Width} {address value : UInt32} {bus : β} {e : Effect}
    (hplace : physicalAddress address ≠ CacheControl.address)
    (hisolated : p.control.isolated = false)
    (h : (p.writeEffect width address value bus).1 = .ok e) : e.sparesCache = true := by
  unfold writeEffect at h
  dsimp only at h
  rw [if_neg hplace, hisolated, if_neg Bool.false_ne_true] at h
  rcases hwrite : Bus.write bus width (physicalAddress address) (width.truncate value)
    with ⟨_ | _, bus'⟩
  · rw [hwrite] at h
    cases h
  · rw [hwrite] at h
    cases h
    rfl

theorem updateEffect_sparesCache {address : UInt32} {change : UInt32 → UInt32} {bus : β}
    {e : Effect} (hplace : physicalAddress address ≠ CacheControl.address)
    (hisolated : p.control.isolated = false)
    (h : (p.updateEffect address change bus).1 = .ok e) : e.sparesCache = true := by
  unfold updateEffect at h
  rcases hread : p.readData .word address bus with ⟨trap | word, bus'⟩
  · rw [hread] at h
    cases h
  · rw [hread] at h
    exact writeEffect_sparesCache hplace hisolated h

/-- A harmless instruction does not change the cache or its control register. -/
theorem Harmless.sparesCache (h : p.Harmless blocks instruction) {bus : β} {e : Effect}
    (heffect : (p.effect instruction bus).1 = .ok e) : e.sparesCache = true := by
  have hlocal : p.localEffect instruction = .ok e → e.sparesCache = true :=
    localEffect_sparesCache
  cases instruction with
  | load kind target base offset =>
      simp only [effect, loadEffect] at heffect
      split at heffect
      · cases heffect
      · rcases hvalue : (p.loadValue kind target (p.reg base + offset) bus).1 with trap | value
        · rw [hvalue] at heffect
          cases heffect
        · rw [hvalue] at heffect
          cases heffect
          rfl
  | store kind source base offset =>
      simp only [effect, storeEffect] at heffect
      split at heffect
      · cases heffect
      · rename_i haligned
        obtain ⟨hplace, hisolated, -⟩ := h.of_store haligned
        cases kind with
        | wordLeft => exact updateEffect_sparesCache hplace hisolated heffect
        | wordRight => exact updateEffect_sparesCache hplace hisolated heffect
        | _ => exact writeEffect_sparesCache hplace hisolated heffect
  | _ => exact hlocal heffect

/-! ## Effects that leave the code in memory -/

/-- Reading data leaves the memory. -/
theorem readData_memory (p : Processor) (width : Width) (address : UInt32) (m : Memory) :
    (p.readData width address m).2 = m := by
  unfold readData
  dsimp only [Bus.read]
  split
  · rfl
  · split <;> rename_i hread <;> exact (congrArg Prod.snd hread).symm

theorem loadEffect_memory (p : Processor) (kind : LoadKind) (target : Register) (address : UInt32)
    (m : Memory) : (p.loadEffect kind target address m).2 = m := by
  have hread (width : Width) (address : UInt32) := p.readData_memory width address m
  unfold loadEffect
  split
  · rfl
  · cases kind <;> exact hread _ _

/-- An aligned store outside some blocks keeps the code in them. -/
theorem writeEffect_keepsCode {width : Width} {address : UInt32} (value : UInt32) (m : Memory)
    (hwidth : (physicalAddress address).toNat % width.bytes = 0)
    (hblock : block (physicalAddress address) ∉ blocks) :
    Memory.KeepsCode blocks m (p.writeEffect width address value m).2 := by
  have hwrite := Memory.write_keepsCode (m := m) (width.truncate value) hwidth hblock
  unfold writeEffect
  dsimp only [Bus.write]
  split
  · exact .refl blocks m
  · split
    · split <;> exact .refl blocks m
    · rcases hresult : m.write width (physicalAddress address) (width.truncate value)
        with ⟨_ | _, m'⟩
      all_goals
        rw [hresult] at hwrite
        exact hwrite

theorem updateEffect_keepsCode {address : UInt32} (change : UInt32 → UInt32) (m : Memory)
    (hwidth : (physicalAddress address).toNat % Width.word.bytes = 0)
    (hblock : block (physicalAddress address) ∉ blocks) :
    Memory.KeepsCode blocks m (p.updateEffect address change m).2 := by
  have hsame := p.readData_memory .word address m
  unfold updateEffect
  rcases hread : p.readData .word address m with ⟨trap | word, m'⟩
  all_goals
    rw [hread] at hsame
    obtain rfl : m' = m := hsame
  · exact .refl blocks m'
  · exact writeEffect_keepsCode (change word) m' hwidth hblock

/-- A store that passes the alignment check is aligned to its width. -/
theorem toNat_storePlace_mod {kind : StoreKind} {address : UInt32}
    (h : ¬ address &&& StoreKind.misalignment kind ≠ 0) :
    (physicalAddress (StoreKind.place address kind)).toNat % (StoreKind.width kind).bytes = 0 := by
  have hlow (n : Nat) (hmask : (StoreKind.misalignment kind).toNat = 1 <<< n - 1) :
      address.toNat % 1 <<< n = 0 := by
    rw [← Bits.toNat_and_low address _ hmask, Decidable.not_not.mp h]
    rfl
  rw [toNat_physicalAddress_mod_bytes]
  cases kind with
  | byte => exact Nat.mod_one _
  | half => exact hlow 1 rfl
  | word => exact hlow 2 rfl
  | wordLeft => exact toNat_and_not_three address
  | wordRight => exact toNat_and_not_three address

/-- A harmless instruction leaves the code in memory. -/
theorem Harmless.keepsCode (h : p.Harmless blocks instruction) (m : Memory) :
    Memory.KeepsCode blocks m (p.effect instruction m).2 := by
  cases instruction with
  | load kind target base offset =>
      have hsame : (p.effect (.load kind target base offset) m).2 = m :=
        p.loadEffect_memory kind target (p.reg base + offset) m
      rw [hsame]
      exact .refl blocks m
  | store kind source base offset =>
      simp only [effect, storeEffect]
      split
      · exact .refl blocks m
      · rename_i haligned
        obtain ⟨-, -, hblock⟩ := h.of_store haligned
        have hwidth := toNat_storePlace_mod haligned
        cases kind with
        | wordLeft => exact updateEffect_keepsCode _ m hwidth hblock
        | wordRight => exact updateEffect_keepsCode _ m hwidth hblock
        | _ => exact writeEffect_keepsCode _ m hwidth hblock
  | _ => exact .refl blocks m

end Processor
end PlayStation
