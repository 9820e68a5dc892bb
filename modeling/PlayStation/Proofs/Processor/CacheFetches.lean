import PlayStation.Proofs.Processor.CacheMirror

/-!
# What a fetch leaves in the instruction cache

A cached fetch hits, refills its line from the missed word on, or fails and leaves the
line invalid (`InstructionCache.fetch_cases`).  So the valid words of a line always go
on to its end (`CacheLine.ValidToEnd`), and with that a fetch costs and leaves what
`FetchLaw` says.  The lemmas on `lookup` say what the cache holds after each of its
operations.
-/

namespace PlayStation

namespace InstructionCache

/-- The aligned address of the word that an address lies in. -/
def wordAddress (address : UInt32) : UInt32 :=
  address &&& ~~~3

/-- Whether the whole block of an address lies in a memory. -/
def BlockFits (ram : Memory) (address : UInt32) : Prop :=
  address.toNat / 16 * 16 + 16 ≤ ram.size

instance (ram : Memory) (address : UInt32) : Decidable (BlockFits ram address) :=
  inferInstanceAs (Decidable (_ ≤ _))

/-- What a refill for an address leaves in its line: the words of memory from the
missed word on, and nothing valid before it. -/
structure FilledFrom (ram : Memory) (address : UInt32) (line : CacheLine) : Prop where
  tag : line.tag = tag address
  read : ∀ i : Fin 4, wordIndex address ≤ i →
    line.words.get i = ⟨ram.load ((address &&& ~~~0xF) + 4 * UInt32.ofNat i.val).toNat 4, true⟩
  dropped : ∀ i : Fin 4, i < wordIndex address → (line.words.get i).valid = false

variable {c : InstructionCache} {ram : Memory} {a b : UInt32} {line : CacheLine}

/-! ## Refills -/

/-- The address of a word has no bits below the word. -/
theorem toNat_wordAddress (address : UInt32) :
    (wordAddress address).toNat = address.toNat / 4 * 4 := by
  have hsplit := Bits.toNat_and_not_add address 3
  have hlow : (address &&& 3).toNat = address.toNat % 4 :=
    Bits.toNat_and_low address 3 (n := 2) rfl
  rw [wordAddress]
  omega

/-- Where the word of an address lies in its block. -/
theorem blockWord_eq_wordAddress (hline : lineIndex a = lineIndex b) (htag : tag a = tag b) :
    (a &&& ~~~0xF) + 4 * UInt32.ofNat (wordIndex b).val = wordAddress b := by
  have hsame := block_eq_iff.mp (block_eq_of_line_of_tag hline htag)
  have hindex := val_wordIndex b
  apply UInt32.toNat_inj.mp
  rw [toNat_blockWord a (wordIndex b).isLt, toNat_wordAddress]
  omega

/-- Each word of a block that fits into memory can be read. -/
theorem read_blockWord (hfits : BlockFits ram a) {i : Nat} (hi : i < 4) :
    ram.read .word ((a &&& ~~~0xF) + 4 * UInt32.ofNat i) =
      .ok (ram.load ((a &&& ~~~0xF) + 4 * UInt32.ofNat i).toNat 4) := by
  unfold BlockFits at hfits
  rw [Memory.read_word, toNat_blockWord a hi, if_pos (by omega)]

/-- A refill of a block that lies in memory. -/
theorem refill_of_fits (c : InstructionCache) (hfits : BlockFits ram a) :
    ∃ line, FilledFrom ram a line ∧ c.refill a ram =
      (.ok ⟨ram.load (wordAddress a).toNat 4, (4 - (wordIndex a).val) + 3⟩,
        c.putLine a line, ram) := by
  obtain ⟨line, hread, hwords⟩ := readWords_eq (fun i hi => read_blockWord hfits hi)
    (4 - (wordIndex a).val) (by omega) ((c.line a).invalidate 0 (wordIndex a).val)
  have hfirst : 4 - (4 - (wordIndex a).val) = (wordIndex a).val := by omega
  rw [hfirst] at hwords
  refine ⟨{ line with tag := tag a }, ⟨rfl, fun i hi => ?_, fun i hi => ?_⟩, ?_⟩
  · exact (hwords i).trans (if_pos hi)
  · have hkept := (hwords i).trans (if_neg (Nat.not_le.mpr hi))
    exact (congrArg CachedWord.valid hkept).trans (valid_invalidate ⟨Nat.zero_le _, hi⟩)
  · unfold refill
    dsimp only
    rw [hread]
    dsimp only
    rw [hwords, if_pos (Nat.le_refl _), blockWord_eq_wordAddress rfl rfl]

/-- Reading on to the end of a block fails if its end lies behind the memory. -/
theorem readWords_of_not_fits (hfits : ¬ BlockFits ram a) {count : Nat} (hpos : 0 < count)
    (hcount : count ≤ 4) (line : CacheLine) :
    ∃ e line', readWords (a &&& ~~~0xF) count hcount line ram = (.error e, line', ram) := by
  induction count generalizing line with
  | zero => omega
  | succ count ih =>
      unfold readWords
      dsimp only [Bus.read]
      rcases hread : ram.read .word ((a &&& ~~~0xF) + 4 * UInt32.ofNat (3 - count)) with e | value
      · exact ⟨e, line, rfl⟩
      · by_cases hlast : count = 0
        · -- The last word of the block was there, so the block fits.
          subst hlast
          rw [Memory.read_word, toNat_blockWord a (by omega)] at hread
          split at hread
          · unfold BlockFits at hfits
            omega
          · cases hread
        · exact ih (by omega) (by omega) _

/-- A refill of a block that reaches behind the memory leaves an invalid line. -/
theorem refill_of_not_fits (c : InstructionCache) (hfits : ¬ BlockFits ram a) :
    ∃ (e : AccessError) (line : CacheLine),
      c.refill a ram = (.error e, c.putLine a (line.invalidate 0 4), ram) := by
  have hpos : 0 < 4 - (wordIndex a).val := by omega
  obtain ⟨e, line, hread⟩ := readWords_of_not_fits hfits hpos (by omega)
    ((c.line a).invalidate 0 (wordIndex a).val)
  refine ⟨e, line, ?_⟩
  unfold refill
  dsimp only
  rw [hread]
  dsimp only
  rw [invalidateLine_putLine]

/-! ## Fetches -/

/-- **The three ways of a cached fetch**: a hit, a refill, and a refill that fails. -/
theorem fetch_cases (c : InstructionCache) (a : UInt32) (ram : Memory) :
    (∃ word, c.lookup a = some word ∧ c.fetch a true ram = (.ok ⟨word, 0⟩, c, ram)) ∨
    (c.lookup a = none ∧ BlockFits ram a ∧ ∃ line, FilledFrom ram a line ∧
      c.fetch a true ram = (.ok ⟨ram.load (wordAddress a).toNat 4, (4 - (wordIndex a).val) + 3⟩,
        c.putLine a line, ram)) ∨
    (c.lookup a = none ∧ ¬ BlockFits ram a ∧ ∃ (e : AccessError) (line : CacheLine),
      c.fetch a true ram = (.error e, c.putLine a (line.invalidate 0 4), ram)) := by
  unfold fetch
  rw [if_pos rfl]
  cases c.lookup a with
  | some word => exact .inl ⟨word, rfl, rfl⟩
  | none =>
      by_cases hfits : BlockFits ram a
      · exact .inr (.inl ⟨rfl, hfits, c.refill_of_fits hfits⟩)
      · exact .inr (.inr ⟨rfl, hfits, c.refill_of_not_fits hfits⟩)

/-- A hit is free and leaves the cache and the memory. -/
theorem fetch_of_lookup {word : UInt32} (h : c.lookup a = some word) :
    c.fetch a true ram = (.ok ⟨word, 0⟩, c, ram) := by
  unfold fetch
  rw [if_pos rfl, h]

/-- A fetch past the cache costs four cycles and leaves it alone. -/
theorem fetch_uncached (c : InstructionCache) (a : UInt32) (ram : Memory) :
    c.fetch a false ram = ((ram.read .word a).map (⟨·, 4⟩), c, ram) := by
  unfold fetch
  dsimp only [Bus.read]
  rw [if_neg Bool.false_ne_true]
  rcases ram.read .word a with e | word <;> rfl

/-- A miss succeeds exactly if its block lies in memory. -/
theorem fetch_ok_iff (h : c.lookup a = none) :
    (∃ fetched, (c.fetch a true ram).1 = .ok fetched) ↔ BlockFits ram a := by
  rcases c.fetch_cases a ram with ⟨word, hlookup, -⟩ | ⟨-, hfits, line, -, hfetch⟩ |
    ⟨-, hfits, e, line, hfetch⟩
  · cases h.symm.trans hlookup
  · rw [hfetch]
    exact iff_of_true ⟨_, rfl⟩ hfits
  · rw [hfetch]
    exact iff_of_false nofun hfits

/-! ## What the cache holds after an operation -/

/-- A refilled line holds the words from the missed one on, under its tag. -/
theorem find?_of_filledFrom (h : FilledFrom ram a line) (hline : lineIndex a = lineIndex b) :
    line.find? b =
      if tag a = tag b ∧ wordIndex a ≤ wordIndex b then
        some (ram.load (wordAddress b).toNat 4)
      else none := by
  unfold CacheLine.find?
  dsimp only
  rw [h.tag]
  by_cases htag : tag a = tag b
  · by_cases hindex : wordIndex a ≤ wordIndex b
    · have hword : line.words.get (wordIndex b) = _ := h.read (wordIndex b) hindex
      rw [hword, blockWord_eq_wordAddress hline htag, decide_eq_true htag, Bool.true_and,
        if_pos rfl, if_pos ⟨htag, hindex⟩]
    · have hword : (line.words.get (wordIndex b)).valid = false :=
        h.dropped (wordIndex b) (Fin.not_le.mp hindex)
      rw [hword, Bool.and_false, if_neg Bool.false_ne_true, if_neg fun h => hindex h.2]
  · rw [decide_eq_false htag, Bool.false_and, if_neg Bool.false_ne_true,
      if_neg fun h => htag h.1]

/-- The cache is empty at first. -/
theorem lookup_empty (a : UInt32) : InstructionCache.empty.lookup a = none := by
  simp [lookup, InstructionCache.line, InstructionCache.empty, CacheLine.empty]

/-- Invalidating a line hides its words and no others. -/
theorem lookup_invalidateLine (c : InstructionCache) (a b : UInt32) :
    (c.invalidateLine b).lookup a = if lineIndex b = lineIndex a then none else c.lookup a := by
  rw [lookup_eq, invalidateLine, line_putLine]
  split
  · exact find?_invalidate _ _
  · rfl

/-- A value written into a word of a line shows where the word is held. -/
theorem find?_put (line : CacheLine) (i : Fin 4) (value address : UInt32) :
    (line.put i { line.words.get i with value }).find? address =
      if i = wordIndex address then (line.find? address).map fun _ => value
      else line.find? address := by
  unfold CacheLine.find? CacheLine.put
  dsimp only
  change (if _ && (line.words.set i.val _)[(wordIndex address).val].valid then
    some (line.words.set i.val _)[(wordIndex address).val].value else none) = _
  by_cases hindex : i = wordIndex address
  · subst hindex
    rw [if_pos rfl, Vector.getElem_set_self]
    dsimp only
    change (if _ && (line.words.get (wordIndex address)).valid then _ else _) = _
    split <;> rfl
  · rw [if_neg hindex, Vector.getElem_set_ne _ _ fun h => hindex (Fin.ext h)]
    rfl

/-- A fill changes the value of a held word, whatever its tag, and holds no other. -/
theorem lookup_fillWord (c : InstructionCache) (a b value : UInt32) :
    (c.fillWord b value).lookup a =
      if lineIndex b = lineIndex a ∧ wordIndex b = wordIndex a then (c.lookup a).map fun _ => value
      else c.lookup a := by
  rw [lookup_eq, fillWord, line_putLine]
  by_cases hline : lineIndex b = lineIndex a
  · have hsame : c.line b = c.line a := congrArg (c.lines.get ·) hline
    rw [if_pos hline, hsame, lookup_eq]
    simp only [hline, true_and]
    exact find?_put (c.line a) (wordIndex b) value a
  · rw [if_neg hline, if_neg fun h => hline h.1, lookup_eq]

end InstructionCache

open InstructionCache

/-! ## Valid words and the cost of a fetch -/

/-- A line whose valid words go on to its end. -/
def CacheLine.ValidToEnd (line : CacheLine) : Prop :=
  ∀ i j : Fin 4, i ≤ j → (line.words.get i).valid = true → (line.words.get j).valid = true

/-- What a fetch costs and what it leaves, for a cache in front of a memory. -/
structure FetchLaw (c : InstructionCache) (ram : Memory) : Prop where
  /-- A hit is free and changes nothing. -/
  hit : ∀ address word, c.lookup address = some word →
    c.fetch address true ram = (.ok ⟨word, 0⟩, c, ram)
  /-- A miss costs the words from the missed one on, and three cycles more. -/
  miss : ∀ address fetched, c.lookup address = none →
    (c.fetch address true ram).1 = .ok fetched →
      fetched.cycles = (4 - (wordIndex address).val) + 3
  /-- A cached fetch leaves its word and all later ones of the line valid. -/
  valid : ∀ address fetched, (c.fetch address true ram).1 = .ok fetched →
    let line := (c.fetch address true ram).2.1.line address
    line.tag = tag address ∧ ∀ i, wordIndex address ≤ i → (line.words.get i).valid = true
  /-- The word that a cached fetch gives is the one held afterwards. -/
  word : ∀ address fetched, (c.fetch address true ram).1 = .ok fetched →
    (c.fetch address true ram).2.1.lookup address = some fetched.word
  /-- A refill that fails leaves its line invalid, and the other lines as they were. -/
  failed : ∀ address e, (c.fetch address true ram).1 = .error e →
    let after := (c.fetch address true ram).2.1
    (∀ i : Fin 4, ((after.line address).words.get i).valid = false) ∧
      ∀ line : Fin 256, line ≠ lineIndex address → after.lines.get line = c.lines.get line
  /-- A fetch past the cache costs four cycles and leaves the cache alone. -/
  uncached : ∀ address, (c.fetch address false ram).2.1 = c ∧
    ∀ fetched, (c.fetch address false ram).1 = .ok fetched → fetched.cycles = 4

namespace InstructionCache

variable {c : InstructionCache} {ram : Memory} {a : UInt32} {line : CacheLine}

/-- A line that is filled from a word on is valid from there to its end. -/
theorem FilledFrom.validToEnd (h : FilledFrom ram a line) : line.ValidToEnd := by
  intro i j hij hvalid
  by_cases hi : wordIndex a ≤ i
  · rw [h.read j (Fin.le_trans hi hij)]
  · rw [h.dropped i (Fin.not_le.mp hi)] at hvalid
    cases hvalid

theorem validToEnd_invalidate (line : CacheLine) : (line.invalidate 0 4).ValidToEnd := by
  intro i j _ hvalid
  have hdropped : ((line.invalidate 0 4).words.get i).valid = false :=
    valid_invalidate ⟨Nat.zero_le _, i.isLt⟩
  rw [hdropped] at hvalid
  cases hvalid

theorem validToEnd_empty (n : Fin 256) : (InstructionCache.empty.lines.get n).ValidToEnd := by
  have hline : InstructionCache.empty.lines.get n = CacheLine.empty := Vector.getElem_replicate _
  rw [hline]
  intro i j _ hvalid
  change ((Vector.replicate 4 ({} : CachedWord))[i.val]).valid = true at hvalid
  rw [Vector.getElem_replicate] at hvalid
  cases hvalid

/-- Other values in the same places make no difference. -/
theorem validToEnd_put (h : line.ValidToEnd) (i : Fin 4) (value : UInt32) :
    (line.put i { line.words.get i with value }).ValidToEnd := by
  have hsame (j : Fin 4) :
      ((line.put i { line.words.get i with value }).words.get j).valid =
        (line.words.get j).valid := by
    change ((line.words.set i.val _)[j.val]).valid = (line.words[j.val]).valid
    rw [Vector.getElem_set]
    split
    · rename_i hij
      rw [Fin.ext hij]
      rfl
    · rfl
  intro j k hjk hvalid
  rw [hsame] at hvalid ⊢
  exact h j k hjk hvalid

/-- Putting a line leaves the others. -/
theorem line_ne (c : InstructionCache) (line : CacheLine) {n : Fin 256} (h : n ≠ lineIndex a) :
    (c.putLine a line).lines.get n = c.lines.get n :=
  Vector.getElem_set_ne (lineIndex a).isLt n.isLt fun heq => h (Fin.ext heq.symm)

/-- Lines that are valid to their ends stay so when one such line is put. -/
theorem validToEnd_putLine (h : ∀ n : Fin 256, (c.lines.get n).ValidToEnd) (hline : line.ValidToEnd)
    (n : Fin 256) : ((c.putLine a line).lines.get n).ValidToEnd := by
  by_cases hn : n = lineIndex a
  · subst hn
    have hself : (c.putLine a line).lines.get (lineIndex a) = line := Vector.getElem_set_self _
    rw [hself]
    exact hline
  · rw [line_ne c line hn]
    exact h n

/-- **What a fetch costs and leaves**, if the valid words of every line go on to its
end. -/
theorem fetchLaw (h : ∀ n : Fin 256, (c.lines.get n).ValidToEnd) (ram : Memory) :
    FetchLaw c ram where
  hit address word hlookup := fetch_of_lookup hlookup
  miss address fetched hmiss hok := by
    rcases c.fetch_cases address ram with ⟨word, hlookup, -⟩ | ⟨-, -, line, -, hfetch⟩ |
      ⟨-, -, e, line, hfetch⟩
    · cases hmiss.symm.trans hlookup
    · rw [hfetch] at hok
      cases hok
      rfl
    · rw [hfetch] at hok
      cases hok
  valid address fetched hok := by
    rcases c.fetch_cases address ram with ⟨word, hlookup, hfetch⟩ |
      ⟨-, -, line, hfilled, hfetch⟩ | ⟨-, -, e, line, hfetch⟩
    · obtain ⟨htag, hword⟩ := find?_eq_some hlookup
      rw [hfetch]
      exact ⟨htag, fun i hi => h _ _ i hi (congrArg CachedWord.valid hword)⟩
    · rw [hfetch]
      dsimp only
      rw [line_putLine, if_pos rfl]
      exact ⟨hfilled.tag, fun i hi => by rw [hfilled.read i hi]⟩
    · rw [hfetch] at hok
      cases hok
  word address fetched hok := by
    rcases c.fetch_cases address ram with ⟨word, hlookup, hfetch⟩ |
      ⟨-, -, line, hfilled, hfetch⟩ | ⟨-, -, e, line, hfetch⟩
    · rw [hfetch] at hok ⊢
      cases hok
      exact hlookup
    · rw [hfetch] at hok ⊢
      cases hok
      dsimp only
      rw [lookup_eq, line_putLine, if_pos rfl, find?_of_filledFrom hfilled rfl,
        if_pos ⟨rfl, Nat.le_refl _⟩]
    · rw [hfetch] at hok
      cases hok
  failed address e hfailed := by
    rcases c.fetch_cases address ram with ⟨word, -, hfetch⟩ | ⟨-, -, line, -, hfetch⟩ |
      ⟨-, -, e, line, hfetch⟩
    · rw [hfetch] at hfailed
      cases hfailed
    · rw [hfetch] at hfailed
      cases hfailed
    · rw [hfetch]
      dsimp only
      refine ⟨fun i => ?_, fun n hn => line_ne c _ hn⟩
      rw [line_putLine, if_pos rfl]
      exact valid_invalidate ⟨Nat.zero_le _, i.isLt⟩
  uncached address := by
    rw [fetch_uncached]
    refine ⟨rfl, fun fetched hfetch => ?_⟩
    cases hread : ram.read .word address with
    | error e =>
        rw [hread] at hfetch
        cases hfetch
    | ok word =>
        rw [hread] at hfetch
        cases hfetch
        rfl

end InstructionCache

end PlayStation
