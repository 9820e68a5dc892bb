import PlayStation.Proofs.Processor.BranchDelay
import PlayStation.Proofs.Processor.UnalignedBytes

/-!
# Unaligned words in two instructions

A word at any address is loaded or stored by two instructions, one for each half
(`Half.load`, `Half.store`).  The second load of a pair finds the value of the first one in
the load latch and merges into that, while its address still comes from the old register
(`tick_load`); the second store finds the memory that the first one left (`tick_store`).

* `unaligned_pair` — what the two instructions of a pair come to, in either order.
-/

namespace PlayStation

/-! ## Fetches from memory -/

namespace InstructionCache

variable {m m' : Memory}

/-- Reading the words of a block leaves the memory alone, and of the words in it one is
the same if it is the same in memory. -/
theorem readWords_memory (hsize : m'.size = m.size) (base : UInt32) (i : Fin 4)
    (hword : m'.read .word (base + 4 * UInt32.ofNat i.val) =
      m.read .word (base + 4 * UInt32.ofNat i.val)) (count : Nat) (hcount : count ≤ 4)
    (line line' : CacheLine) (hline : line'.words[i] = line.words[i]) :
    ∃ answer after after', readWords base count hcount line m = (answer, after, m) ∧
      readWords base count hcount line' m' = (answer, after', m') ∧
      after'.words[i] = after.words[i] := by
  induction count generalizing line line' with
  | zero => exact ⟨_, _, _, rfl, rfl, hline⟩
  | succ count ih =>
      let address := base + 4 * UInt32.ofNat (3 - count)
      have hread : m.read .word address =
          if address.toNat + 4 ≤ m.size then .ok (m.load address.toNat 4)
          else .error ⟨address⟩ := m.read_word address
      have hread' : m'.read .word address =
          if address.toNat + 4 ≤ m.size then .ok (m'.load address.toNat 4)
          else .error ⟨address⟩ := by
        rw [Memory.read_word, hsize]
      unfold readWords
      dsimp only [Bus.read]
      rw [hread, hread']
      by_cases hfits : address.toNat + 4 ≤ m.size
      · rw [if_pos hfits, if_pos hfits]
        refine ih (by omega) _ _ ?_
        simp only [CacheLine.put, Fin.getElem_fin, Vector.getElem_set]
        split
        · rename_i hindex
          rw [← hindex, Memory.read_word, Memory.read_word, hsize, if_pos hfits, if_pos hfits]
            at hword
          rw [Except.ok.inj hword]
        · exact hline
      · rw [if_neg hfits, if_neg hfits]
        exact ⟨_, _, _, rfl, rfl, hline⟩

/-- **A fetch leaves the memory alone**, and what it gives depends on no other word there
than the one at its address. -/
theorem fetch_memory (c : InstructionCache) {a : UInt32} (ha : a.toNat % 4 = 0)
    (hsize : m'.size = m.size) (hword : m'.read .word a = m.read .word a) (cached : Bool) :
    (c.fetch a cached m).2.2 = m ∧ (c.fetch a cached m').1 = (c.fetch a cached m).1 := by
  unfold fetch
  cases cached with
  | false =>
      simp only [Bool.false_eq_true, if_false, Bus.read]
      rw [hword]
      cases m.read .word a <;> exact ⟨rfl, rfl⟩
  | true =>
      rw [if_pos rfl, if_pos rfl]
      cases c.lookup a with
      | some word => exact ⟨rfl, rfl⟩
      | none =>
          have hsame := blockWord_wordIndex (a := a) ha rfl
          obtain ⟨answer, after, after', hread, hread', hwords⟩ :=
            readWords_memory hsize (a &&& ~~~0xF) (wordIndex a) (by rw [hsame]; exact hword)
              (4 - (wordIndex a).val) (by omega) ((c.line a).invalidate 0 (wordIndex a).val) _ rfl
          dsimp only [refill]
          rw [hread, hread']
          cases answer with
          | error e => exact ⟨rfl, rfl⟩
          | ok value =>
              dsimp only
              rw [hwords]
              exact ⟨rfl, rfl⟩

end InstructionCache

namespace Processor

variable {p : Processor} {m m' : Memory}

/-- A fetch leaves memory, and memories with the same word at the program counter answer it
alike. -/
theorem fetch_memory (p : Processor) (hsize : m'.size = m.size)
    (hword : m'.read .word (physicalAddress p.pc) = m.read .word (physicalAddress p.pc)) :
    (p.fetch m).2.2 = m ∧ (p.fetch m').1 = (p.fetch m).1 := by
  unfold fetch misalignedFetch
  by_cases haligned : p.pc &&& 3 = 0
  · have hlow := Unaligned.toNat_alignment p.pc
    have hmod := toNat_physicalAddress_mod p.pc
    rw [haligned] at hlow
    change 0 = _ at hlow
    obtain ⟨hsame, hanswer⟩ := p.cache.fetch_memory (a := physicalAddress p.pc) (by omega) hsize
      hword p.fetchCached
    rw [if_pos haligned]
    dsimp only
    rcases hfetch : p.cache.fetch (physicalAddress p.pc) p.fetchCached m with ⟨answer, c, left⟩
    rcases hfetch' : p.cache.fetch (physicalAddress p.pc) p.fetchCached m'
      with ⟨answer', c', left'⟩
    rw [hfetch] at hsame hanswer
    rw [hfetch'] at hanswer
    obtain rfl : answer' = answer := hanswer
    obtain rfl : left = m := hsame
    cases answer' <;> exact ⟨rfl, rfl⟩
  · rw [if_neg haligned]
    exact ⟨rfl, rfl⟩

/-- The word that the processor is about to fetch encodes the instruction. -/
def Fetches (p : Processor) (m : Memory) (instruction : Instruction) : Prop :=
  ∃ fetched, (p.fetch m).1 = .ok fetched ∧ Instruction.decode fetched.word = instruction

/-- A processor that fetches a word carries out what the word decodes to. -/
theorem fetches_of_word (word : UInt32)
    (h : (p.fetch m).1.toOption.map Fetch.word = some word) : p.Fetches m (.decode word) := by
  rcases hfetch : (p.fetch m).1 with trap | fetched
  · rw [hfetch] at h
    cases h
  · rw [hfetch] at h
    exact ⟨fetched, hfetch, congrArg Instruction.decode (Option.some.inj h)⟩

/-- A tick without an interrupt applies the effect of the fetched instruction. -/
theorem Fetches.tick {instruction : Instruction} (h : p.Fetches m instruction)
    (hinterrupt : p.control.interruptPending = false) {e : Effect}
    (heffect : (p.ready m).effect instruction m = (.ok e, m')) :
    (p.tick m).2 = (((p.ready m).apply e).settle, m') := by
  obtain ⟨fetched, hfetch, rfl⟩ := h
  have hmemory := (p.fetch_memory (m := m) rfl rfl).1
  have houtcome : p.outcome m = (.ok e, m') := by
    unfold outcome
    rw [hfetch, control_ready, hinterrupt, hmemory]
    exact heffect
  rw [tick_eq, houtcome]
  rfl

end Processor

/-! ## The instructions of a pair -/

namespace Half

/-- The instruction that loads a half of the word at an offset from a base. -/
def load (half : Half) (target base : Register) (offset : UInt32) : Instruction :=
  match half with
  | right => .load .wordRight target base offset
  | left => .load .wordLeft target base (offset + 3)

/-- The instruction that stores a half of the word at an offset from a base. -/
def store (half : Half) (source base : Register) (offset : UInt32) : Instruction :=
  match half with
  | right => .store .wordRight source base offset
  | left => .store .wordLeft source base (offset + 3)

/-- A half that lies in a memory and not at the cache control register. -/
structure InMemory (half : Half) (m : Memory) (a : UInt32) : Prop where
  fits : (half.place a).toNat + 4 ≤ m.size
  plain : half.place a ≠ CacheControl.address

variable {half : Half} {m : Memory} {p : Processor} {a : UInt32}

/-- The aligned word of the half is read from memory. -/
theorem InMemory.readData (h : half.InMemory m a) (p : Processor) :
    p.readData .word (half.address a &&& ~~~3) m =
      (.ok (m.load (half.place a).toNat 4), m) := by
  obtain ⟨hfits, hplain⟩ := h
  unfold place at hfits hplain ⊢
  unfold Processor.readData
  dsimp only [Bus.read]
  rw [if_neg hplain, Memory.read_word, if_pos hfits]
  rfl

/-- The aligned word of the half is written to memory, unless the cache is isolated. -/
theorem InMemory.writeEffect (h : half.InMemory m a) (hisolated : p.control.isolated = false)
    (value : UInt32) :
    p.writeEffect .word (half.address a &&& ~~~3) value m =
      (.ok .nothing, m.store (half.place a).toNat value 4) := by
  obtain ⟨hfits, hplain⟩ := h
  unfold place at hfits hplain ⊢
  unfold Processor.writeEffect
  dsimp only [Bus.write]
  have hwrite : m.write .word (physicalAddress (half.address a &&& ~~~3))
      (Width.word.truncate value) =
      (.ok (), m.store (physicalAddress (half.address a &&& ~~~3)).toNat value 4) :=
    (m.write_eq ..).trans (if_pos hfits)
  rw [if_neg hplain, hisolated, if_neg Bool.false_ne_true, hwrite]

/-- An access to a half is never misaligned. -/
theorem not_misaligned (address : UInt32) : ¬ address &&& (0 : UInt32) ≠ 0 :=
  fun hne => hne UInt32.and_zero

variable (register : Register) {base : Register} {offset : UInt32}

/-- The effect of loading a half. -/
theorem effect_load (h : half.InMemory m (p.reg base + offset)) :
    p.effect (half.load register base offset) m =
      (.ok (.schedule register
        (half.merged (p.reg base + offset) (p.mergeBase register)
          (m.load (half.place (p.reg base + offset)).toNat 4))), m) := by
  have hread := h.readData p
  cases half with
  | right =>
      refine (if_neg (not_misaligned _)).trans ?_
      dsimp only [address] at hread
      rw [Processor.loadValue, hread]
      rfl
  | left =>
      refine (if_neg (not_misaligned _)).trans ?_
      dsimp only [address] at hread
      rw [← UInt32.add_assoc, Processor.loadValue, hread]
      rfl

/-- The effect of storing a half. -/
theorem effect_store (h : half.InMemory m (p.reg base + offset))
    (hisolated : p.control.isolated = false) :
    p.effect (half.store register base offset) m =
      (.ok .nothing, m.store (half.place (p.reg base + offset)).toNat
        (half.updated (p.reg base + offset) (p.reg register)
          (m.load (half.place (p.reg base + offset)).toNat 4)) 4) := by
  have hread := h.readData p
  have hwrite := h.writeEffect hisolated
  cases half with
  | right =>
      refine (if_neg (not_misaligned _)).trans ?_
      dsimp only [address] at hread hwrite
      dsimp only [Processor.updateEffect]
      rw [hread]
      exact hwrite _
  | left =>
      refine (if_neg (not_misaligned _)).trans ?_
      dsimp only [address] at hread hwrite
      rw [← UInt32.add_assoc]
      dsimp only [Processor.updateEffect]
      rw [hread]
      exact hwrite _

end Half

namespace Processor

variable {p : Processor} {m : Memory} {half : Half} {rs rt : Register} {o : UInt32}

/-- The target of a load that is fetched is a register that there is. -/
theorem Fetches.target_lt (h : p.Fetches m (half.load rt rs o)) : rt < 32 := by
  obtain ⟨fetched, -, hdecode⟩ := h
  have htarget : (half.load rt rs o).target? = some rt := by cases half <;> rfl
  exact target?_lt_of_decode (hdecode ▸ htarget)

/-! ## One half after the other -/

/-- A merging load starts from the pending load when that is for its register. -/
theorem mergeBase_ready_of_some {r : Register} {value : UInt32}
    (h : p.pendingLoad = some ⟨r, value⟩) (m : Memory) : (p.ready m).mergeBase r = value := by
  have hsome : p.loads.next = some ⟨r, value⟩ := h
  rw [mergeBase, ready_eq, hsome]
  exact if_pos rfl

/-- **Loading a half** leaves a merged value pending.  A load that was pending for the
register is replaced. -/
theorem tick_load (hfetch : p.Fetches m (half.load rt rs o))
    (hinterrupt : p.control.interruptPending = false) (hrt : rt ≠ 0)
    (hmemory : half.InMemory m (p.reg rs + o)) :
    let value := half.merged (p.reg rs + o) ((p.ready m).mergeBase rt)
      (m.load (half.place (p.reg rs + o)).toNat 4)
    (p.tick m).2.2 = m ∧ (p.tick m).2.1.pendingLoad = some ⟨rt, value⟩ ∧
      (p.tick m).2.1.regs = commit p.regs (superseded p.pendingLoad rt) ∧
      (p.tick m).2.1.control = p.control := by
  intro value
  have haddress : (p.ready m).reg rs + o = p.reg rs + o := by rw [reg_ready]
  have hmemory' : half.InMemory m ((p.ready m).reg rs + o) := haddress ▸ hmemory
  have heffect : (p.ready m).effect (half.load rt rs o) m = (.ok (.schedule rt value), m) := by
    have hloaded := Half.effect_load rt hmemory'
    rw [haddress] at hloaded
    exact hloaded
  clear_value value
  rw [hfetch.tick hinterrupt heffect, settle_apply, ready_eq]
  refine ⟨rfl, ?_, rfl, rfl⟩
  dsimp only [pendingLoad, Effect.load?]
  rw [if_neg hrt, slot_toUInt8 hfetch.target_lt]
  rfl

/-- **Storing a half** changes memory only. -/
theorem tick_store (hfetch : p.Fetches m (half.store rt rs o))
    (hinterrupt : p.control.interruptPending = false) (hisolated : p.control.isolated = false)
    (hload : p.pendingLoad = none) (hmemory : half.InMemory m (p.reg rs + o)) :
    m.Takes (half.Covers (p.reg rs + o)) (p.reg rs + o) (p.reg rt) (p.tick m).2.2 ∧
      (p.tick m).2.1.pendingLoad = none ∧ (p.tick m).2.1.regs = p.regs ∧
      (p.tick m).2.1.control = p.control ∧
      (p.pendingBranch = none → (p.tick m).2.1.pc = p.pc + 4) := by
  have haddress : (p.ready m).reg rs + o = p.reg rs + o := by rw [reg_ready]
  have hmemory' : half.InMemory m ((p.ready m).reg rs + o) := haddress ▸ hmemory
  have hisolated' : (p.ready m).control.isolated = false := by rw [control_ready, hisolated]
  have heffect := Half.effect_store rt hmemory' hisolated'
  have hnone : p.loads.next = none := hload
  rw [haddress, reg_ready] at heffect
  rw [hfetch.tick hinterrupt heffect, settle_apply, ready_eq, hnone]
  refine ⟨half.takes_store _ _ hmemory.fits, rfl, rfl, rfl, fun hbranch => ?_⟩
  have hstays : p.branches.next = none := hbranch
  dsimp only [Effect.branch?]
  rw [hstays]
  rfl

/-- **Two loads.**  The second one merges into what the first one has loaded. -/
theorem pair_load (first : Half) (hload : p.pendingLoad = none)
    (hinterrupt : p.control.interruptPending = false)
    (hmemory : ∀ half : Half, half.InMemory m (p.reg rs + o)) (hrt : rt ≠ 0)
    (hfirst : p.Fetches m (first.load rt rs o))
    (hsecond : (p.tick m).2.1.Fetches (p.tick m).2.2 (first.other.load rt rs o)) :
    let after := ((p.tick m).2.1.tick (p.tick m).2.2).2
    after.1.pendingLoad =
        some ⟨rt, .ofNat (littleEndian (fun k => m.byte (byteAddress (p.reg rs + o) k)) 0 4)⟩ ∧
      after.1.regs = p.regs ∧ after.2 = m := by
  obtain ⟨hkept, hpending, hregs, hcontrol⟩ := tick_load hfirst hinterrupt hrt (hmemory first)
  rw [hload, superseded_none, commit_none] at hregs
  rw [hkept] at hsecond
  generalize hmiddle : (p.tick m).2.1 = middle at hpending hregs hcontrol hsecond
  have hsame (r : Register) : middle.reg r = p.reg r := by rw [reg, reg, hregs]
  have hmemory' : first.other.InMemory m (middle.reg rs + o) := by
    rw [hsame]
    exact hmemory first.other
  obtain ⟨hkept', hpending', hregs', -⟩ :=
    tick_load hsecond (by rw [hcontrol, hinterrupt]) hrt hmemory'
  rw [mergeBase_ready_of_some hpending, hsame] at hpending'
  rw [hkept]
  refine ⟨?_, ?_, hkept'⟩
  · rw [hpending', Option.some.injEq, LoadDelay.mk.injEq]
    refine ⟨rfl, eq_ofNat_littleEndian fun k hk => ?_⟩
    rw [Half.digit_merged _ _ _ _ hk]
    split
    · rfl
    · rename_i hother
      rw [Half.digit_merged _ _ _ _ hk,
        if_pos ((first.covers_or (p.reg rs + o) hk).resolve_right hother)]
  · rw [hregs', hpending, superseded_self]
    exact hregs

/-- **Two stores.** -/
theorem pair_store (first : Half) (hload : p.pendingLoad = none)
    (hinterrupt : p.control.interruptPending = false) (hisolated : p.control.isolated = false)
    (hmemory : ∀ half : Half, half.InMemory m (p.reg rs + o))
    (hfirst : p.Fetches m (first.store rt rs o))
    (hsecond : (p.tick m).2.1.Fetches (p.tick m).2.2 (first.other.store rt rs o)) :
    m.Takes (fun _ => True) (p.reg rs + o) (p.reg rt)
      ((p.tick m).2.1.tick (p.tick m).2.2).2.2 := by
  obtain ⟨htakes, hpending, hregs, hcontrol, -⟩ :=
    tick_store hfirst hinterrupt hisolated hload (hmemory first)
  generalize (p.tick m).2.1 = middle at hpending hregs hcontrol hsecond ⊢
  generalize (p.tick m).2.2 = m' at htakes hsecond ⊢
  have hsame (r : Register) : middle.reg r = p.reg r := by rw [reg, reg, hregs]
  have hmemory' : first.other.InMemory m' (middle.reg rs + o) := by
    obtain ⟨hfits, hplain⟩ := hmemory first.other
    rw [hsame]
    exact ⟨htakes.size.symm ▸ hfits, hplain⟩
  obtain ⟨htakes', -⟩ := tick_store hsecond (by rw [hcontrol, hinterrupt])
    (by rw [hcontrol, hisolated]) hpending hmemory'
  rw [hsame, hsame] at htakes'
  obtain ⟨hsize, htaken, hkept⟩ := htakes.trans htakes'
  refine ⟨hsize, fun k hk _ => htaken k hk (first.covers_or _ hk), fun i hother => ?_⟩
  exact hkept i fun k hk _ => hother k hk trivial

/-- Nothing is fetched from a misaligned address. -/
theorem Fetches.aligned {instruction : Instruction} (h : p.Fetches m instruction) :
    p.pc &&& 3 = 0 := by
  obtain ⟨fetched, hfetch, -⟩ := h
  unfold fetch misalignedFetch at hfetch
  refine Decidable.byContradiction fun hpc => ?_
  rw [if_neg hpc] at hfetch
  cases hfetch

/-- A store of a half does not touch an instruction outside the aligned word that it
changes. -/
theorem fetches_iff_of_takes {m' : Memory} {a value : UInt32}
    (h : m.Takes (half.Covers a) a value m')
    (hother : physicalAddress p.pc ≠ half.place a) (instruction : Instruction) :
    p.Fetches m' instruction ↔ p.Fetches m instruction := by
  have hsame (hpc : p.pc &&& 3 = 0) : (p.fetch m').1 = (p.fetch m).1 := by
    have hlow := Unaligned.toNat_alignment p.pc
    have hmod := toNat_physicalAddress_mod p.pc
    have hplace := toNat_physicalAddress_mod (half.address a &&& ~~~3)
    have hword := toNat_and_not_three (half.address a)
    rw [hpc] at hlow
    change 0 = _ at hlow
    have hdifferent : (physicalAddress p.pc).toNat ≠ (half.place a).toNat :=
      fun heq => hother (UInt32.toNat_inj.mp heq)
    change (half.place a).toNat % 16 = _ at hplace
    refine (p.fetch_memory h.size ?_).2
    rw [Memory.read_word, Memory.read_word, h.size, Memory.load_congr fun i hfirst hlast => ?_]
    refine h.kept i fun k hk hcovers => ?_
    obtain ⟨hindex, hbyte⟩ := half.byteAddress_eq a hk hcovers
    omega
  constructor
  · intro hfetches
    have haligned := hfetches.aligned
    obtain ⟨fetched, hfetch, hdecode⟩ := hfetches
    exact ⟨fetched, (hsame haligned).symm.trans hfetch, hdecode⟩
  · intro hfetches
    have haligned := hfetches.aligned
    obtain ⟨fetched, hfetch, hdecode⟩ := hfetches
    exact ⟨fetched, (hsame haligned).trans hfetch, hdecode⟩

/-- **Unaligned pairs.**  Let no load, branch or interrupt be pending, and let the aligned
words that hold the first and the last byte of the word at `a` lie in memory.  Let the two
halves of that word be loaded or stored in consecutive ticks, in either order: `first` says
which one comes first.

* After the loads the little-endian word of the four bytes is pending for the register,
  whatever that holds, and no register has changed yet.
* Unless the first store changes the word of the second instruction, that is executed as it
  stands in memory; and after both stores the four bytes are the little-endian bytes of the
  register, and every other byte is the old one. -/
theorem unaligned_pair (rt : Register) (hload : p.pendingLoad = none)
    (hbranch : p.pendingBranch = none) (hinterrupt : p.control.interruptPending = false)
    (hmemory : ∀ half : Half, half.InMemory m (p.reg rs + o)) (first : Half) :
    let a := p.reg rs + o
    let middle := (p.tick m).2
    let after := (middle.1.tick middle.2).2
    (rt ≠ 0 → p.Fetches m (first.load rt rs o) →
        middle.1.Fetches middle.2 (first.other.load rt rs o) →
        after.1.pendingLoad =
            some ⟨rt, .ofNat (littleEndian (fun k => m.byte (byteAddress a k)) 0 4)⟩ ∧
          after.1.regs = p.regs ∧ after.2 = m) ∧
      (p.control.isolated = false → p.Fetches m (first.store rt rs o) →
        (physicalAddress (p.pc + 4) ≠ first.place a →
          (middle.1.Fetches middle.2 (first.other.store rt rs o) ↔
            middle.1.Fetches m (first.other.store rt rs o))) ∧
        (middle.1.Fetches middle.2 (first.other.store rt rs o) →
          after.2.size = m.size ∧
            (∀ k < 4, after.2.byte (byteAddress a k) = digit (p.reg rt) k) ∧
            ∀ i, (∀ k < 4, i ≠ byteAddress a k) → after.2.byte i = m.byte i)) := by
  intro a middle after
  refine ⟨fun hrt hfirst hsecond => pair_load first hload hinterrupt hmemory hrt hfirst hsecond,
    fun hisolated hfirst => ⟨fun hother => ?_, fun hsecond => ?_⟩⟩
  · obtain ⟨htakes, -, -, -, hpc⟩ := tick_store hfirst hinterrupt hisolated hload (hmemory first)
    refine fetches_iff_of_takes htakes ?_ _
    rw [hpc hbranch]
    exact hother
  · obtain ⟨hsize, htaken, hkept⟩ :=
      pair_store first hload hinterrupt hisolated hmemory hfirst hsecond
    exact ⟨hsize, fun k hk => htaken k hk trivial, fun i hother =>
      hkept i fun k hk _ => hother k hk⟩

/-- A word at address 17, loaded right half first and stored left half first. -/
theorem unaligned_pair_of_program :
    let m : Memory := ⟨#[0x11, 0, 1, 0x98, 0x14, 0, 1, 0x88, 0x14, 0, 1, 0xA8, 0x11, 0, 1, 0xB8,
      0xFF, 0x11, 0x22, 0x33, 0x44, 0xFF, 0xFF, 0xFF]⟩
    let p := (Processor.initial .ignore).setPc 0
    let q := ((Processor.initial .ignore).setPc 8).setReg 1 0x04030201
    let loaded := ((p.tick m).2.1.tick (p.tick m).2.2).2
    let stored := ((q.tick m).2.1.tick (q.tick m).2.2).2
    loaded.1.pendingLoad = some ⟨1, 0x44332211⟩ ∧ loaded.2 = m ∧
      (∀ k < 4, stored.2.byte (17 + k) = UInt8.ofNat (k + 1)) ∧ stored.2.byte 16 = 0xFF := by
  intro m p q loaded stored
  have hmemory (half : Half) : half.InMemory m (p.reg 0 + 17) := by
    cases half
    · exact ⟨by decide, by decide⟩
    · exact ⟨by decide, by decide⟩
  have hfirst : p.Fetches m (Half.right.load 1 0 17) :=
    fetches_of_word 0x98010011 (by decide +kernel)
  have hsecond : (p.tick m).2.1.Fetches (p.tick m).2.2 (Half.left.load 1 0 17) :=
    fetches_of_word 0x88010014 (by decide +kernel)
  have hfirst' : q.Fetches m (Half.left.store 1 0 17) :=
    fetches_of_word 0xA8010014 (by decide +kernel)
  have hsecond' : (q.tick m).2.1.Fetches (q.tick m).2.2 (Half.right.store 1 0 17) :=
    fetches_of_word 0xB8010011 (by decide +kernel)
  obtain ⟨hload, -⟩ := unaligned_pair (p := p) (m := m) 1 rfl rfl (by decide +kernel)
    hmemory .right
  obtain ⟨hpending, -, hkept⟩ := hload (by decide) hfirst hsecond
  obtain ⟨-, hstore⟩ := unaligned_pair (p := q) (m := m) 1 rfl rfl (by decide +kernel)
    hmemory .left
  obtain ⟨-, htaken, hother⟩ := (hstore (by decide +kernel) hfirst').2 hsecond'
  have hplace : ∀ k < 4, byteAddress (q.reg 0 + 17) k = 17 + k := by decide +kernel
  have hdigit : ∀ k < 4, digit (q.reg 1) k = UInt8.ofNat (k + 1) := by decide +kernel
  refine ⟨hpending.trans (by decide +kernel), hkept, fun k hk => ?_, ?_⟩
  · rw [← hplace k hk, ← hdigit k hk]
    exact htaken k hk
  · refine (hother 16 fun k hk => ?_).trans (by decide)
    rw [hplace k hk]
    omega

end Processor

end PlayStation
