import PlayStation.Processor.InstructionCache
import PlayStation.Proofs.Bits
import PlayStation.Proofs.Memory

/-!
# The instruction cache mirrors memory

A word in the cache is the word of memory at its address, as long as nothing has
been written to its block (`InstructionCache.Mirrors`).  In a memory of whole
blocks a refill fails exactly when the read of the missed word fails, so a fetch
through a mirroring cache gives the word, or the failure, of a fetch past it, and
leaves a mirroring cache (`Mirrors.fetch`).
-/

namespace PlayStation

/-- Reading a word fails exactly behind the end of the memory. -/
theorem Memory.read_word (ram : Memory) (offset : UInt32) :
    ram.read .word offset =
      if offset.toNat + 4 ≤ ram.size then .ok (ram.load offset.toNat 4) else .error ⟨offset⟩ :=
  ram.read_eq .word offset

/-- The word at an address that a line holds, if it does. -/
def CacheLine.find? (line : CacheLine) (address : UInt32) : Option UInt32 :=
  let word := line.words.get (InstructionCache.wordIndex address)
  if line.tag = InstructionCache.tag address && word.valid then some word.value else none

namespace InstructionCache

/-! ## Blocks -/

/-- The 16-byte block that a physical address lies in. -/
def block (address : UInt32) : UInt32 :=
  address >>> 4

/-- The block of an address is the address without its low four bits. -/
theorem toNat_block (address : UInt32) : (block address).toNat = address.toNat / 16 := by
  rw [block, UInt32.toNat_shiftRight, Nat.shiftRight_eq_div_pow]
  rfl

/-- Two addresses are in one block if nothing but those bits tells them apart. -/
theorem block_eq_iff {a b : UInt32} : block a = block b ↔ a.toNat / 16 = b.toNat / 16 := by
  rw [← UInt32.toNat_inj, toNat_block, toNat_block]

/-- The place in the line comes from bits 2 and 3. -/
theorem val_wordIndex (address : UInt32) : (wordIndex address).val = address.toNat / 4 % 4 := by
  have hshift : (address >>> 2).toNat = address.toNat / 4 := by
    rw [UInt32.toNat_shiftRight, Nat.shiftRight_eq_div_pow]
    rfl
  rw [wordIndex, hshift]
  rfl

/-- The line comes from bits 4 to 11. -/
theorem val_lineIndex (address : UInt32) : (lineIndex address).val = address.toNat / 16 % 256 := by
  rw [← toNat_block]
  rfl

/-- The tag is what is above the bits that choose the line. -/
theorem toNat_tag (address : UInt32) : (tag address).toNat = address.toNat / 4096 := by
  rw [tag, UInt32.toNat_shiftRight, Nat.shiftRight_eq_div_pow]
  rfl

/-- A line and a tag make a block. -/
theorem block_eq_of_line_of_tag {a b : UInt32} (hline : lineIndex a = lineIndex b)
    (htag : tag a = tag b) : block a = block b := by
  have hline' := congrArg Fin.val hline
  have htag' := congrArg UInt32.toNat htag
  rw [val_lineIndex, val_lineIndex] at hline'
  rw [toNat_tag, toNat_tag] at htag'
  rw [block_eq_iff]
  omega

/-- Where the words of a block lie. -/
theorem toNat_blockWord (address : UInt32) {i : Nat} (hi : i < 4) :
    ((address &&& ~~~0xF) + 4 * UInt32.ofNat i).toNat = address.toNat / 16 * 16 + 4 * i := by
  have hsplit := Bits.toNat_and_not_add address 0xF
  have hlow : (address &&& 0xF).toNat = address.toNat % 16 :=
    Bits.toNat_and_low address 0xF (n := 4) rfl
  have hlt := address.toNat_lt
  simp only [UInt32.toNat_add, UInt32.toNat_mul, UInt32.toNat_ofNat, UInt32.toNat_ofNat']
  omega

/-- Addresses of one block differ in the word index. -/
theorem blockWord_wordIndex {a b : UInt32} (hb : b.toNat % 4 = 0) (hblock : block a = block b) :
    (a &&& ~~~0xF) + 4 * UInt32.ofNat (wordIndex b).val = b := by
  have hindex := val_wordIndex b
  have hsame := block_eq_iff.mp hblock
  apply UInt32.toNat_inj.mp
  rw [toNat_blockWord a (wordIndex b).isLt]
  omega

/-! ## Lines -/

/-- A word is looked up in the line of its address. -/
theorem lookup_eq (c : InstructionCache) (address : UInt32) :
    c.lookup address = (c.line address).find? address := rfl

/-- A line that is put is found at every address that leads to it. -/
theorem line_putLine (c : InstructionCache) (a b : UInt32) (line : CacheLine) :
    (c.putLine a line).line b = if lineIndex a = lineIndex b then line else c.line b := by
  simp only [InstructionCache.line, putLine, Fin.getElem_fin, Vector.getElem_set, Fin.val_inj]

/-- What a line finds is valid and under the tag of the address. -/
theorem find?_eq_some {line : CacheLine} {address word : UInt32}
    (h : line.find? address = some word) :
    line.tag = tag address ∧ line.words.get (wordIndex address) = ⟨word, true⟩ := by
  unfold CacheLine.find? at h
  dsimp only at h
  split at h
  · rename_i hfound
    rw [Bool.and_eq_true, decide_eq_true_eq] at hfound
    refine ⟨hfound.1, ?_⟩
    rw [← Option.some.inj h, ← hfound.2]
  · cases h

/-- The words from `first` on, but before `last`, are no longer valid. -/
theorem valid_invalidate {line : CacheLine} {first last : Nat} {i : Fin 4}
    (h : first ≤ i.val ∧ i.val < last) : (line.invalidate first last).words[i].valid = false := by
  simp only [CacheLine.invalidate, Fin.getElem_fin, Vector.getElem_mapFinIdx, if_pos h]

/-- A line that has been made invalid holds no word. -/
theorem find?_invalidate (line : CacheLine) (address : UInt32) :
    (line.invalidate 0 4).find? address = none := by
  cases hfind : (line.invalidate 0 4).find? address with
  | none => rfl
  | some word =>
      have hvalid := congrArg CachedWord.valid (find?_eq_some hfind).2
      change (line.invalidate 0 4).words[wordIndex address].valid = _ at hvalid
      rw [valid_invalidate ⟨Nat.zero_le _, (wordIndex address).isLt⟩] at hvalid
      cases hvalid

/-- Invalidating a line just put is putting it invalid. -/
theorem invalidateLine_putLine (c : InstructionCache) (address : UInt32) (line : CacheLine) :
    (c.putLine address line).invalidateLine address =
      c.putLine address (line.invalidate 0 4) := by
  rw [invalidateLine, line_putLine, if_pos rfl, putLine, putLine, putLine, Vector.set_set]

/-! ## Refills -/

variable {c : InstructionCache} {ram : Memory} {a : UInt32}

/-- A refill from readable memory puts the words that it reads into the line. -/
theorem readWords_eq {base : UInt32} {value : Nat → UInt32}
    (hreads : ∀ i < 4, ram.read .word (base + 4 * UInt32.ofNat i) = .ok (value i)) (count : Nat)
    (hcount : count ≤ 4) (line : CacheLine) :
    ∃ line', readWords base count hcount line ram = (.ok (), line', ram) ∧
      ∀ i : Fin 4, line'.words[i] =
        if 4 - count ≤ i.val then ⟨value i.val, true⟩ else line.words[i] := by
  induction count generalizing line with
  | zero =>
      refine ⟨line, rfl, fun i => ?_⟩
      rw [if_neg (by omega)]
  | succ count ih =>
      obtain ⟨line', hrest, hwords⟩ :=
        ih (by omega) (line.put ⟨3 - count, by omega⟩ ⟨value (3 - count), true⟩)
      refine ⟨line', ?_, fun i => ?_⟩
      · unfold readWords
        dsimp only [Bus.read]
        rw [hreads (3 - count) (by omega)]
        exact hrest
      · rw [hwords]
        by_cases hnew : 4 - (count + 1) = i.val
        · have hindex : 3 - count = i.val := by omega
          rw [if_neg (by omega), if_pos (by omega)]
          simp only [CacheLine.put, Fin.getElem_fin, hindex, Vector.getElem_set_self]
        · have hindex : 3 - count ≠ i.val := by omega
          have hsame : (4 - count ≤ i.val) ↔ (4 - (count + 1) ≤ i.val) := by omega
          simp only [CacheLine.put, Fin.getElem_fin, Vector.getElem_set_ne _ _ hindex, hsame]

/-- Every word in the cache is the word of memory at its address, and lies in one of
the given blocks. -/
def Mirrors (c : InstructionCache) (ram : Memory) (blocks : List UInt32) : Prop :=
  ∀ address word, address.toNat % 4 = 0 → c.lookup address = some word →
    ram.read .word address = .ok word ∧ block address ∈ blocks

/-- A cache that mirrors memory in some blocks does if more blocks are allowed. -/
theorem Mirrors.mono {blocks blocks' : List UInt32} (h : Mirrors c ram blocks)
    (hsub : ∀ b ∈ blocks, b ∈ blocks') : Mirrors c ram blocks' := by
  intro address word haddress hlookup
  obtain ⟨hfound, hmem⟩ := h address word haddress hlookup
  exact ⟨hfound, hsub _ hmem⟩

/-- A cache still mirrors memory with another line in it, if that line does. -/
theorem Mirrors.putLine {blocks : List UInt32} (h : Mirrors c ram blocks) {line : CacheLine}
    (hline : ∀ address word, address.toNat % 4 = 0 → lineIndex a = lineIndex address →
      line.find? address = some word →
        ram.read .word address = .ok word ∧ block address ∈ blocks) :
    Mirrors (c.putLine a line) ram blocks := by
  intro address word haddress hlookup
  rw [lookup_eq, line_putLine] at hlookup
  by_cases hindex : lineIndex a = lineIndex address
  · rw [if_pos hindex] at hlookup
    exact hline address word haddress hindex hlookup
  · rw [if_neg hindex, ← lookup_eq] at hlookup
    exact h address word haddress hlookup

/-- The blocks that instructions have been fetched from, after one more fetch. -/
def fetchedBlocks {ε α : Type} (address : UInt32) (blocks : List UInt32) :
    Except ε α → List UInt32
  | .ok _ => block address :: blocks
  | .error _ => blocks

/-- A fetch adds to the blocks that were fetched from. -/
theorem mem_fetchedBlocks {ε α : Type} {address b : UInt32} {blocks : List UInt32}
    (h : b ∈ blocks) (result : Except ε α) : b ∈ fetchedBlocks address blocks result := by
  cases result with
  | ok value => exact List.mem_cons_of_mem _ h
  | error e => exact h

/-- A refill of a readable block. -/
theorem Mirrors.refill_ok {blocks : List UInt32} (h : Mirrors c ram blocks)
    (hsize : ram.size % 16 = 0) (ha : a.toNat % 4 = 0) (hin : a.toNat + 4 ≤ ram.size) :
    ∃ cycles c', c.refill a ram = (.ok ⟨ram.load a.toNat 4, cycles⟩, c', ram) ∧
      Mirrors c' ram (block a :: blocks) := by
  have hreads : ∀ i < 4, ram.read .word ((a &&& ~~~0xF) + 4 * UInt32.ofNat i) =
      .ok (ram.load ((a &&& ~~~0xF) + 4 * UInt32.ofNat i).toNat 4) := by
    intro i hi
    rw [Memory.read_word, toNat_blockWord a hi, if_pos (by omega)]
  obtain ⟨line, hread, hwords⟩ := readWords_eq hreads (4 - (wordIndex a).val) (by omega)
    ((c.line a).invalidate 0 (wordIndex a).val)
  have hfirst : 4 - (4 - (wordIndex a).val) = (wordIndex a).val := by omega
  rw [hfirst] at hwords
  refine ⟨4 - (wordIndex a).val + 3, c.putLine a { line with tag := tag a }, ?_, ?_⟩
  · unfold refill
    dsimp only
    rw [hread]
    dsimp only
    rw [hwords, if_pos (Nat.le_refl _), blockWord_wordIndex ha rfl]
  · refine (h.mono fun _ => List.mem_cons_of_mem _).putLine fun b word hb hline hfind => ?_
    obtain ⟨htag, hword⟩ := find?_eq_some hfind
    have hblock := block_eq_of_line_of_tag hline htag
    have hsame := blockWord_wordIndex hb hblock
    have hfound := hreads _ (wordIndex b).isLt
    change line.words[wordIndex b] = _ at hword
    rw [hwords] at hword
    -- The words before the missed one are invalid now, so `b` is one that was read.
    by_cases hfilled : (wordIndex a).val ≤ (wordIndex b).val
    · rw [if_pos hfilled] at hword
      rw [hsame] at hfound hword
      have hvalue : ram.load b.toNat 4 = word := congrArg CachedWord.value hword
      rw [hfound, hvalue, ← hblock]
      exact ⟨rfl, List.mem_cons_self⟩
    · have hvalid := congrArg CachedWord.valid hword
      rw [if_neg hfilled, valid_invalidate ⟨Nat.zero_le _, by omega⟩] at hvalid
      cases hvalid

/-- A refill of a block behind the end of the memory. -/
theorem Mirrors.refill_error {blocks : List UInt32} (h : Mirrors c ram blocks)
    (ha : a.toNat % 4 = 0) (hout : ¬ a.toNat + 4 ≤ ram.size) :
    ∃ c', c.refill a ram = (.error ⟨a⟩, c', ram) ∧ Mirrors c' ram blocks := by
  have hfail {line : CacheLine} {count : Nat} (hcount : count ≤ 4)
      (hfirst : count = 3 - (wordIndex a).val + 1) :
      readWords (a &&& ~~~0xF) count hcount line ram = (.error ⟨a⟩, line, ram) := by
    subst hfirst
    have hindex : 3 - (3 - (wordIndex a).val) = (wordIndex a).val := by omega
    have hmissed : ram.read .word
        ((a &&& ~~~0xF) + 4 * UInt32.ofNat (3 - (3 - (wordIndex a).val))) = .error ⟨a⟩ := by
      rw [hindex, blockWord_wordIndex ha rfl, Memory.read_word, if_neg hout]
    unfold readWords
    dsimp only [Bus.read]
    rw [hmissed]
  refine ⟨c.putLine a (((c.line a).invalidate 0 (wordIndex a).val).invalidate 0 4), ?_, ?_⟩
  · unfold refill
    dsimp only
    rw [hfail (by omega) (by omega)]
    dsimp only
    rw [invalidateLine_putLine]
  · refine h.putLine fun b word _ _ hfind => ?_
    rw [find?_invalidate] at hfind
    cases hfind

/-- **A fetch through a mirroring cache** gives what a read of the word gives, and
leaves a mirroring cache. -/
theorem Mirrors.fetch {blocks : List UInt32} (h : Mirrors c ram blocks)
    (hsize : ram.size % 16 = 0) (ha : a.toNat % 4 = 0) (cached : Bool) :
    ∃ cycles c', c.fetch a cached ram = ((ram.read .word a).map (⟨·, cycles⟩), c', ram) ∧
      Mirrors c' ram (fetchedBlocks a blocks (ram.read .word a)) := by
  have hkeeps : Mirrors c ram (fetchedBlocks a blocks (ram.read .word a)) :=
    h.mono fun _ hmem => mem_fetchedBlocks hmem _
  cases cached with
  | false =>
      refine ⟨4, c, ?_, hkeeps⟩
      unfold InstructionCache.fetch
      dsimp only [Bus.read]
      rcases ram.read .word a with e | word <;> rfl
  | true =>
      unfold InstructionCache.fetch
      rw [if_pos rfl]
      cases hlookup : c.lookup a with
      | some word =>
          obtain ⟨hfound, -⟩ := h a word ha hlookup
          refine ⟨0, c, ?_, hkeeps⟩
          rw [hfound]
          rfl
      | none =>
          dsimp only
          rw [Memory.read_word]
          by_cases hin : a.toNat + 4 ≤ ram.size
          · rw [if_pos hin]
            exact h.refill_ok hsize ha hin
          · rw [if_neg hin]
            obtain ⟨c', hrefill, hmirrors⟩ := h.refill_error ha hin
            exact ⟨0, c', hrefill, hmirrors⟩

/-! ## Empty caches and writes -/

/-- An empty cache has no valid word. -/
theorem valid_eq_false_of_isEmpty (hempty : c.isEmpty = true) (line : Fin 256) (word : Fin 4) :
    ((c.lines.get line).words.get word).valid = false := by
  have hzero : (c.lines.toList.map lineValidWords).sum = 0 := by
    rw [List.sum_eq_foldl_nat, List.foldl_map]
    exact eq_of_beq hempty
  have hline : lineValidWords (c.lines.get line) = 0 := by
    apply List.sum_eq_zero_iff_forall_eq_nat.mp hzero
    exact List.mem_map_of_mem (Vector.mem_toList_iff.mpr (Vector.getElem_mem line.isLt))
  have hword : (c.lines.get line).words.get word ∈ (c.lines.get line).words.toList :=
    Vector.mem_toList_iff.mpr (Vector.getElem_mem word.isLt)
  exact Bool.eq_false_iff.mpr (List.countP_eq_zero.mp hline _ hword)

/-- An empty cache mirrors every memory. -/
theorem mirrors_of_isEmpty (hempty : c.isEmpty = true) (ram : Memory) : Mirrors c ram [] := by
  intro address word _ hlookup
  rw [lookup_eq] at hlookup
  have hvalid := congrArg CachedWord.valid (find?_eq_some hlookup).2
  have hinvalid := valid_eq_false_of_isEmpty hempty (lineIndex address) (wordIndex address)
  cases hvalid.symm.trans hinvalid

/-- Writes to other blocks leave a mirroring cache. -/
theorem Mirrors.of_reads {blocks : List UInt32} {ram' : Memory} (h : Mirrors c ram blocks)
    (hreads : ∀ address, address.toNat % 4 = 0 → block address ∈ blocks →
      ram'.read .word address = ram.read .word address) : Mirrors c ram' blocks := by
  intro address word haddress hlookup
  obtain ⟨hfound, hmem⟩ := h address word haddress hlookup
  exact ⟨(hreads address haddress hmem).trans hfound, hmem⟩

end InstructionCache
end PlayStation
