import PlayStation.Machine.Board
import PlayStation.Proofs.Processor.DataPlaces

/-!
# Stores to the isolated cache

While the cache is isolated, a store is meant for the instruction cache alone: it
overwrites the value in one slot or, in tag test mode, makes one line invalid
(`InstructionCache.Takes`, `OnlyCache`).

* A store of a byte, a half or a word never accesses the bus, whatever the bus and the
  address.
* A store of an unaligned half of a word does not write to the bus, but it reads the
  aligned word there first.  It stays off the devices, as it should, exactly when this
  read succeeds and changes nothing; where the read fails, the store raises a data bus
  error.

`isolated_store` says so, and `unaligned_store_reaches_bus` shows a read that fails.
-/

namespace PlayStation

namespace InstructionCache

/-- `after` is the cache `before` with `value` in the slot that `place` selects or, in
tag test mode, with every word of the line that `place` selects made invalid. -/
structure Takes (before : InstructionCache) (tagTest : Bool) (place value : UInt32)
    (after : InstructionCache) : Prop where
  /-- No tag changes. -/
  tag : ∀ line, (after.lines.get line).tag = (before.lines.get line).tag
  /-- Only the tag test changes what is valid, and only in the line of `place`. -/
  valid : ∀ line word,
    ((after.lines.get line).words.get word).valid =
      if tagTest = true ∧ line.val = place.toNat / 16 % 256 then false
      else ((before.lines.get line).words.get word).valid
  /-- Only without the tag test a value changes, and only that in the slot of `place`. -/
  value : ∀ line word,
    ((after.lines.get line).words.get word).value =
      if tagTest = false ∧ line.val = place.toNat / 16 % 256 ∧ word.val = place.toNat / 4 % 4
      then value else ((before.lines.get line).words.get word).value

variable (c : InstructionCache) (place value : UInt32)

/-- A line of the cache after the line that `place` selects was replaced. -/
theorem lines_putLine (new : CacheLine) (line : Fin 256) :
    (c.putLine place new).lines.get line =
      if line.val = place.toNat / 16 % 256 then new else c.lines.get line := by
  rw [← val_lineIndex]
  change (c.lines.set (lineIndex place).val new)[line.val] = if _ then new else c.lines[line.val]
  simp only [Vector.getElem_set, eq_comm]

/-- The line that `place` selects, by its number. -/
theorem line_eq {line : Fin 256} (h : line.val = place.toNat / 16 % 256) :
    c.line place = c.lines.get line := by
  have hindex : lineIndex place = line := Fin.ext ((val_lineIndex place).trans h.symm)
  subst hindex
  rfl

/-- Without the tag test, the cache takes the word that is stored. -/
theorem takes_fillWord : c.Takes false place value (c.fillWord place value) := by
  have hfill (line : Fin 256) (h : line.val = place.toNat / 16 % 256) (word : Fin 4) :
      ((c.fillWord place value).lines.get line).words.get word =
        if word.val = place.toNat / 4 % 4 then { (c.lines.get line).words.get word with value }
        else (c.lines.get line).words.get word := by
    rw [fillWord, lines_putLine, if_pos h, line_eq c place h, ← val_wordIndex]
    change ((c.lines.get line).words.set (wordIndex place).val _)[word.val] = _
    rw [Vector.getElem_set]
    by_cases hword : word.val = (wordIndex place).val
    · obtain rfl : word = wordIndex place := Fin.ext hword
      rw [if_pos rfl, if_pos rfl]
      rfl
    · rw [if_neg (Ne.symm hword), if_neg hword]
      rfl
  have hother (line : Fin 256) (h : ¬ line.val = place.toNat / 16 % 256) :
      (c.fillWord place value).lines.get line = c.lines.get line := by
    rw [fillWord, lines_putLine, if_neg h]
  refine ⟨fun line => ?_, fun line word => ?_, fun line word => ?_⟩
  · by_cases h : line.val = place.toNat / 16 % 256
    · rw [fillWord, lines_putLine, if_pos h, line_eq c place h]
      rfl
    · rw [hother line h]
  · rw [if_neg fun htest => Bool.false_ne_true htest.1]
    by_cases h : line.val = place.toNat / 16 % 256
    · rw [hfill line h]
      split <;> rfl
    · rw [hother line h]
  · by_cases h : line.val = place.toNat / 16 % 256
    · rw [hfill line h]
      by_cases hword : word.val = place.toNat / 4 % 4
      · rw [if_pos hword, if_pos ⟨rfl, h, hword⟩]
      · rw [if_neg hword, if_neg fun hall => hword hall.2.2]
    · rw [hother line h, if_neg fun hall => h hall.2.1]

/-- With the tag test, it makes the line invalid. -/
theorem takes_invalidateLine : c.Takes true place value (c.invalidateLine place) := by
  have hline (line : Fin 256) :
      (c.invalidateLine place).lines.get line =
        if line.val = place.toNat / 16 % 256 then (c.lines.get line).invalidate 0 4
        else c.lines.get line := by
    rw [invalidateLine, lines_putLine]
    by_cases h : line.val = place.toNat / 16 % 256
    · rw [if_pos h, if_pos h, line_eq c place h]
    · rw [if_neg h, if_neg h]
  refine ⟨fun line => ?_, fun line word => ?_, fun line word => ?_⟩
  · rw [hline]
    split <;> rfl
  · rw [hline]
    by_cases h : line.val = place.toNat / 16 % 256
    · rw [if_pos h, if_pos ⟨rfl, h⟩]
      exact valid_invalidate ⟨Nat.zero_le _, word.isLt⟩
    · rw [if_neg h, if_neg fun hall => h hall.2]
  · have hno : ¬ (true = false ∧ line.val = place.toNat / 16 % 256 ∧
        word.val = place.toNat / 4 % 4) := fun hall => Bool.noConfusion hall.1
    rw [if_neg hno, hline]
    split
    · change ((c.lines.get line).invalidate 0 4).words[word.val].value = _
      simp only [CacheLine.invalidate, Vector.getElem_mapFinIdx]
      split <;> rfl
    · rfl

end InstructionCache

namespace Processor

/-- The stores that change a part of an aligned word. -/
def StoreKind.merges : StoreKind → Bool
  | .wordLeft | .wordRight => true
  | _ => false

/-- What a store writes: the part of the register that its width carries or, for the
stores that merge, the aligned `word` with a part of the register in it. -/
def StoreKind.written (kind : StoreKind) (address register word : UInt32) : UInt32 :=
  match kind with
  | .wordLeft => Unaligned.storeLeft address word register
  | .wordRight => Unaligned.storeRight address word register
  | _ => (StoreKind.width kind).truncate register

/-- `after` is `before` but for the cache, which took `value` at `place`. -/
structure OnlyCache (before : Processor) (place value : UInt32) (after : Processor) : Prop where
  rest : after = { before with cache := after.cache }
  cache : before.cache.Takes (Bits.flag before.cacheControl CacheControl.tagTest) place value
    after.cache

variable {p : Processor} {kind : StoreKind} {source base : Register} {offset place : UInt32}

/-- The processor after an isolated write. -/
def cacheWrite (p : Processor) (place value : UInt32) : Processor :=
  { p with cache :=
      if Bits.flag p.cacheControl CacheControl.tagTest then p.cache.invalidateLine place
      else p.cache.fillWord place value }

/-- A store that goes to the cache changes the cache alone. -/
theorem onlyCache_cacheWrite (p : Processor) (place value : UInt32) :
    p.OnlyCache place value (p.cacheWrite place value) := by
  refine ⟨rfl, ?_⟩
  unfold cacheWrite
  dsimp only
  cases Bits.flag p.cacheControl CacheControl.tagTest with
  | true => exact p.cache.takes_invalidateLine place value
  | false => exact p.cache.takes_fillWord place value

section Stores

variable {β : Type} [Bus β]

/-- A write goes to the isolated cache and leaves the bus alone. -/
theorem writeData_isolated (hisolated : p.control.isolated = true) {address : UInt32}
    (hplace : physicalAddress address ≠ CacheControl.address) (width : Width) (value : UInt32)
    (bus : β) :
    p.writeData width address value bus =
      (.ok (p.cacheWrite (physicalAddress address) (width.truncate value)), bus) := by
  unfold writeData cacheWrite
  dsimp only
  rw [if_neg hplace, if_pos hisolated]
  split <;> rfl

/-- A change of an aligned word reads it from the bus and writes it to the isolated
cache. -/
theorem updateWord_isolated (hisolated : p.control.isolated = true) {address : UInt32}
    (hplace : physicalAddress address ≠ CacheControl.address) (change : UInt32 → UInt32)
    (bus : β) :
    p.updateWord address change bus =
      match Bus.read bus .word (physicalAddress address) with
      | (.ok word, bus) => (.ok (p.cacheWrite (physicalAddress address) (change word)), bus)
      | (.error _, bus) => (.error (.plain .busErrorData), bus) := by
  unfold updateWord readData
  dsimp only
  rw [if_neg hplace]
  rcases Bus.read bus .word (physicalAddress address) with ⟨e | word, bus'⟩
  · rfl
  · exact writeData_isolated hisolated hplace .word (change word) bus'

/-- Where an aligned store goes. -/
theorem place_of_stored (h : p.stored? (.store kind source base offset) = some place) :
    ¬ (p.reg base + offset) &&& StoreKind.misalignment kind ≠ 0 ∧
      physicalAddress (StoreKind.place (p.reg base + offset) kind) = place := by
  by_cases haligned : (p.reg base + offset) &&& StoreKind.misalignment kind ≠ 0
  · rw [stored?, if_pos haligned] at h
    cases h
  · rw [stored?, if_neg haligned] at h
    exact ⟨haligned, Option.some.inj h⟩

/-- An isolated store that does not merge leaves the bus alone. -/
theorem execute_store_isolated (hisolated : p.control.isolated = true)
    (hstored : p.stored? (.store kind source base offset) = some place)
    (hplace : place ≠ CacheControl.address) (hkind : StoreKind.merges kind = false) (word : UInt32)
    (bus : β) :
    p.execute (.store kind source base offset) bus =
      (.ok (p.cacheWrite place
        (StoreKind.written kind (p.reg base + offset) (p.reg source) word)), bus) := by
  obtain ⟨haligned, rfl⟩ := place_of_stored hstored
  unfold execute executeStore
  dsimp only
  rw [if_neg haligned]
  cases kind with
  | byte => exact writeData_isolated hisolated hplace .byte (p.reg source) bus
  | half => exact writeData_isolated hisolated hplace .half (p.reg source) bus
  | word => exact writeData_isolated hisolated hplace .word (p.reg source) bus
  | wordLeft => cases hkind
  | wordRight => cases hkind

/-- An isolated store that merges reads the aligned word from the bus. -/
theorem execute_store_isolated_of_merges (hisolated : p.control.isolated = true)
    (hstored : p.stored? (.store kind source base offset) = some place)
    (hplace : place ≠ CacheControl.address) (hkind : StoreKind.merges kind = true) (bus : β) :
    p.execute (.store kind source base offset) bus =
      match Bus.read bus .word place with
      | (.ok word, bus) =>
          (.ok (p.cacheWrite place
            (StoreKind.written kind (p.reg base + offset) (p.reg source) word)), bus)
      | (.error _, bus) => (.error (.plain .busErrorData), bus) := by
  obtain ⟨haligned, rfl⟩ := place_of_stored hstored
  unfold execute executeStore
  dsimp only
  rw [if_neg haligned]
  cases kind with
  | byte => cases hkind
  | half => cases hkind
  | word => cases hkind
  | wordLeft => exact updateWord_isolated hisolated hplace _ bus
  | wordRight => exact updateWord_isolated hisolated hplace _ bus

end Stores

/-- **Isolated stores.**  Let the cache be isolated and let a store be aligned and go to
`place`, which is not the cache control register.

* A store of a byte, a half or a word completes without an access to the bus, whichever
  bus that is.  It changes the cache alone.
* A store that merges reads the aligned word from the bus, once.  If the read succeeds,
  the store changes the cache alone and leaves the bus as the read left it; if it fails,
  a data bus error is raised.
* So a store that merges completes without a change on the bus exactly if the read
  succeeds without one. -/
theorem isolated_store (hisolated : p.control.isolated = true)
    (hstored : p.stored? (.store kind source base offset) = some place)
    (hplace : place ≠ CacheControl.address) :
    let written := StoreKind.written kind (p.reg base + offset) (p.reg source)
    (StoreKind.merges kind = false → ∃ after, p.OnlyCache place (written 0) after ∧
      ∀ {β : Type} [Bus β] (bus : β),
        p.execute (.store kind source base offset) bus = (.ok after, bus)) ∧
    (StoreKind.merges kind = true → ∀ {β : Type} [Bus β] (bus : β),
      (match Bus.read bus .word place with
        | (.ok word, left) => ∃ after, p.OnlyCache place (written word) after ∧
            p.execute (.store kind source base offset) bus = (.ok after, left)
        | (.error _, left) =>
            p.execute (.store kind source base offset) bus =
              (.error (.plain .busErrorData), left)) ∧
      ((∃ after, p.execute (.store kind source base offset) bus = (.ok after, bus)) ↔
        ∃ word, Bus.read bus .word place = (.ok word, bus))) := by
  refine ⟨fun hkind => ?_, fun hkind β _ bus => ?_⟩
  · refine ⟨_, p.onlyCache_cacheWrite _ _, fun bus => ?_⟩
    exact execute_store_isolated hisolated hstored hplace hkind 0 bus
  · rw [execute_store_isolated_of_merges hisolated hstored hplace hkind]
    rcases Bus.read bus .word place with ⟨e | word, left⟩
    · exact ⟨rfl, by simp⟩
    · exact ⟨⟨_, p.onlyCache_cacheWrite _ _, rfl⟩, by simp⟩

/-- A processor with an isolated cache and an address in register 5. -/
def isolatedAt (address : UInt32) : Processor :=
  { (initial .ignore).putReg 5 address with
    control := Control.initial.put Control.status Status.isolateCache }

/-- A word for an address that nothing answers goes to the cache, on every board. -/
theorem isolated_store_of_unmapped :
    let p := isolatedAt 0x1F000000
    p.control.isolated = true ∧ p.stored? (.store .word 4 5 0) = some 0x1F000000 ∧
      0x1F000000 ≠ CacheControl.address ∧
      ∃ after, p.OnlyCache 0x1F000000 0 after ∧
        ∀ board : Board, p.execute (.store .word 4 5 0) board = (.ok after, board) := by
  have hisolated : (isolatedAt 0x1F000000).control.isolated = true := by decide
  have hstored : (isolatedAt 0x1F000000).stored? (.store .word 4 5 0) = some 0x1F000000 := by
    decide
  have hplace : 0x1F000000 ≠ CacheControl.address := by decide
  obtain ⟨after, hcache, hexecute⟩ := (isolated_store hisolated hstored hplace).1 rfl
  exact ⟨hisolated, hstored, hplace, after, hcache, fun board => hexecute board⟩

/-- Not every isolated store stays off the bus: the left half of an unaligned word for an
address that nothing answers raises a data bus error. -/
theorem unaligned_store_reaches_bus :
    ¬ ∀ (p : Processor) (kind : StoreKind) (source base : Register) (offset place : UInt32),
      p.control.isolated = true →
      p.stored? (.store kind source base offset) = some place →
      place ≠ CacheControl.address →
      ∀ board : Board,
        ∃ after, p.execute (.store kind source base offset) board = (.ok after, board) := by
  intro hall
  have hisolated : (isolatedAt 0x1F000003).control.isolated = true := by decide
  have hstored : (isolatedAt 0x1F000003).stored? (.store .wordLeft 4 5 0) = some 0x1F000000 := by
    decide
  have hplace : 0x1F000000 ≠ CacheControl.address := by decide
  obtain ⟨after, hexecute⟩ :=
    hall (isolatedAt 0x1F000003) .wordLeft 4 5 0 0x1F000000 hisolated hstored hplace
      (.initial .drop)
  have hregion : Region.of 0x1F000000 = .unmapped := by decide
  rw [execute_store_isolated_of_merges hisolated hstored hplace rfl] at hexecute
  simp only [Bus.read, Board.read, hregion, Prod.mk.injEq, reduceCtorEq, false_and] at hexecute

end Processor
end PlayStation
