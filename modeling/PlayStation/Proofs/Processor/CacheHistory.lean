import Mathlib.Data.List.Induction
import PlayStation.Proofs.Processor.CacheFetches

/-!
# What the instruction cache holds, told from its history

A cache and the memory behind it go through fetches, fills of single words,
invalidations, clearings and changes of the memory, in any order
(`CachedMemory.Event`).  Validity belongs to a word, the tag to its line, and a fill
looks at neither.  Still what the cache holds can be read off the history
(`cache_history`): a word is held exactly if the last renewal of its line was a refill
under its tag that reached it, and its value is the last one filled into its slot
since, or else the word that the refill found in memory.

The proof takes one event at a time.  `lookup_next` says how an event changes what is
held, `held_concat` how it changes the history, and the two agree.
-/

namespace PlayStation

open InstructionCache

/-- A cache and the memory behind it. -/
structure CachedMemory where
  cache : InstructionCache
  ram : Memory

namespace CachedMemory

/-- What happens to a cache and its memory. -/
inductive Event where
  | fetch (address : UInt32) (cached : Bool)
  | fill (address value : UInt32)
  | invalidate (address : UInt32)
  | clear
  /-- The memory is written to, in any way, and is `ram` from then on. -/
  | rewrite (ram : Memory)

/-- What an event leaves. -/
def next (s : CachedMemory) : Event → CachedMemory
  | .fetch address cached =>
      ⟨(s.cache.fetch address cached s.ram).2.1, (s.cache.fetch address cached s.ram).2.2⟩
  | .fill address value => { s with cache := s.cache.fillWord address value }
  | .invalidate address => { s with cache := s.cache.invalidateLine address }
  | .clear => { s with cache := .empty }
  | .rewrite ram => { s with ram }

/-- Events one after another. -/
def run (s : CachedMemory) (events : List Event) : CachedMemory :=
  events.foldl next s

/-- Whether an event renews the whole line of an address: refills it, for whatever tag
and with whatever success, makes it invalid, or clears the cache. -/
def Renews (s : CachedMemory) (address : UInt32) : Event → Prop
  | .fetch other true => s.cache.lookup other = none ∧ lineIndex other = lineIndex address
  | .invalidate other => lineIndex other = lineIndex address
  | .clear => True
  | _ => False

/-- The value that an event fills into the slot of an address. -/
def Event.filled? (address : UInt32) : Event → Option UInt32
  | .fill other value =>
      if lineIndex other = lineIndex address ∧ wordIndex other = wordIndex address then some value
      else none
  | _ => none

/-- The value that was filled into the slot of an address last. -/
def lastFilled (address : UInt32) (events : List Event) : Option UInt32 :=
  (events.filterMap (Event.filled? address)).getLast?

/-- A fetch of `other` is a refill that succeeds and brings in the word of `address`
under its tag. -/
structure Brings (s : CachedMemory) (other address : UInt32) : Prop where
  miss : s.cache.lookup other = none
  success : ∃ fetched, (s.cache.fetch other true s.ram).1 = .ok fetched
  line : lineIndex other = lineIndex address
  tag : tag other = tag address
  reaches : wordIndex other ≤ wordIndex address

/-- From `start`, the events `earlier` led to a fetch of `other`, which brought in the
word of `address`, and the line was not renewed in `later`.  The last value filled into
the slot since, or else the word that was in memory at the refill, is `value`. -/
structure Held (start : CachedMemory) (earlier : List Event) (other : UInt32)
    (later : List Event) (address value : UInt32) : Prop where
  brought : (start.run earlier).Brings other address
  kept : ∀ done event rest, later = done ++ event :: rest →
    ¬ (start.run (earlier ++ .fetch other true :: done)).Renews address event
  value : ∃ word, (start.run earlier).ram.read .word (wordAddress address) = .ok word ∧
    value = (lastFilled address later).getD word

variable {s start : CachedMemory} {address value : UInt32}

/-- The last event of a run comes after the others. -/
theorem run_concat (s : CachedMemory) (events : List Event) (event : Event) :
    s.run (events ++ [event]) = (s.run events).next event := by
  rw [run, List.foldl_append]
  rfl

/-- One event more is the last to have filled a word, if it fills it. -/
theorem lastFilled_concat (address : UInt32) (events : List Event) (event : Event) (word : UInt32) :
    (lastFilled address (events ++ [event])).getD word =
      (event.filled? address).getD ((lastFilled address events).getD word) := by
  rw [lastFilled, List.filterMap_append]
  cases hfilled : event.filled? address with
  | none =>
      rw [List.filterMap_cons_none hfilled, List.filterMap_nil, List.append_nil]
      rfl
  | some new =>
      rw [List.filterMap_cons_some hfilled, List.filterMap_nil, List.getLast?_concat]
      rfl

/-! ## One event -/

/-- A fetch that misses holds the words from the missed one on, if the block lies in
memory, and no other word of the line. -/
theorem lookup_fetch_of_miss {other : UInt32} (hmiss : s.cache.lookup other = none) :
    (s.cache.fetch other true s.ram).2.1.lookup address =
      if lineIndex other = lineIndex address then
        if BlockFits s.ram other ∧ tag other = tag address ∧
            wordIndex other ≤ wordIndex address then
          some (s.ram.load (wordAddress address).toNat 4)
        else none
      else s.cache.lookup address := by
  rcases s.cache.fetch_cases other s.ram with ⟨word, hlookup, -⟩ |
    ⟨-, hfits, line, hfilled, hfetch⟩ | ⟨-, hfits, e, line, hfetch⟩
  · cases hmiss.symm.trans hlookup
  · rw [hfetch]
    dsimp only
    rw [lookup_eq, line_putLine]
    by_cases hline : lineIndex other = lineIndex address
    · rw [if_pos hline, if_pos hline, find?_of_filledFrom hfilled hline]
      simp only [hfits, true_and]
    · rw [if_neg hline, if_neg hline, lookup_eq]
  · rw [hfetch]
    dsimp only
    rw [lookup_eq, line_putLine]
    by_cases hline : lineIndex other = lineIndex address
    · rw [if_pos hline, if_pos hline, find?_invalidate, if_neg fun h => hfits h.1]
    · rw [if_neg hline, if_neg hline, lookup_eq]

/-- The word of an address can be read where its block lies in memory. -/
theorem read_wordAddress {other : UInt32} {ram : Memory} (hfits : BlockFits ram other)
    (hline : lineIndex other = lineIndex address) (htag : tag other = tag address) :
    ram.read .word (wordAddress address) = .ok (ram.load (wordAddress address).toNat 4) := by
  have hword := read_blockWord hfits (wordIndex address).isLt
  rwa [blockWord_eq_wordAddress hline htag] at hword

/-- A fetch that misses brings in the words of its block from the missed one on, if the
block lies in memory. -/
theorem brings_iff {other : UInt32} (hmiss : s.cache.lookup other = none) :
    s.Brings other address ↔ lineIndex other = lineIndex address ∧
      BlockFits s.ram other ∧ tag other = tag address ∧ wordIndex other ≤ wordIndex address := by
  constructor
  · rintro ⟨-, hsuccess, hline, htag, hreaches⟩
    exact ⟨hline, (fetch_ok_iff hmiss).mp hsuccess, htag, hreaches⟩
  · rintro ⟨hline, hfits, htag, hreaches⟩
    exact ⟨hmiss, (fetch_ok_iff hmiss).mpr hfits, hline, htag, hreaches⟩

/-- A fetch that misses. -/
theorem lookup_next_of_miss {other : UInt32} (hmiss : s.cache.lookup other = none) :
    (s.next (.fetch other true)).cache.lookup address = some value ↔
      (s.Brings other address ∧ s.ram.read .word (wordAddress address) = .ok value) ∨
      (¬ lineIndex other = lineIndex address ∧ s.cache.lookup address = some value) := by
  change (s.cache.fetch other true s.ram).2.1.lookup address = some value ↔ _
  rw [lookup_fetch_of_miss hmiss, brings_iff hmiss]
  by_cases hline : lineIndex other = lineIndex address
  · rw [if_pos hline]
    by_cases hbrings : BlockFits s.ram other ∧ tag other = tag address ∧
        wordIndex other ≤ wordIndex address
    · have hread := read_wordAddress hbrings.1 hline hbrings.2.1
      rw [if_pos hbrings, hread]
      simp [hline, hbrings]
    · rw [if_neg hbrings]
      simp [hline, hbrings]
  · rw [if_neg hline]
    simp [hline]

/-- **What one event does to a held word.**  It is held afterwards if the event brings it
in, or if it was held before and the event does not renew its line. -/
theorem lookup_next (s : CachedMemory) (event : Event) :
    (s.next event).cache.lookup address = some value ↔
      (∃ other, event = .fetch other true ∧ s.Brings other address ∧
        s.ram.read .word (wordAddress address) = .ok value) ∨
      (¬ s.Renews address event ∧ ∃ old, s.cache.lookup address = some old ∧
        value = (event.filled? address).getD old) := by
  cases event with
  | fetch other cached =>
      cases cached with
      | false =>
          have hsame : (s.next (.fetch other false)).cache = s.cache := by
            rw [next, fetch_uncached]
          rw [hsame]
          simp [Renews, Event.filled?]
      | true =>
          cases hlookup : s.cache.lookup other with
          | some word =>
              have hsame : (s.next (.fetch other true)).cache = s.cache := by
                rw [next, fetch_of_lookup hlookup]
              have hno : ¬ s.Brings other address := by
                intro h
                rw [h.miss] at hlookup
                cases hlookup
              rw [hsame]
              simp [Renews, Event.filled?, hlookup, hno]
          | none =>
              rw [lookup_next_of_miss hlookup]
              simp [Renews, Event.filled?, hlookup]
  | fill other new =>
      change (s.cache.fillWord other new).lookup address = some value ↔ _
      rw [lookup_fillWord]
      by_cases hslot : lineIndex other = lineIndex address ∧ wordIndex other = wordIndex address
      · cases s.cache.lookup address <;> simp [Renews, Event.filled?, hslot, eq_comm]
      · simp [Renews, Event.filled?, hslot]
  | invalidate other =>
      change (s.cache.invalidateLine other).lookup address = some value ↔ _
      rw [lookup_invalidateLine]
      by_cases hline : lineIndex other = lineIndex address
      · simp [Renews, hline]
      · simp [Renews, Event.filled?, hline]
  | clear =>
      change InstructionCache.empty.lookup address = some value ↔ _
      simp [Renews, lookup_empty]
  | rewrite ram =>
      change s.cache.lookup address = some value ↔ _
      simp [Renews, Event.filled?]

/-! ## The history -/

/-- **What one more event does to the history of a word.** -/
theorem held_concat (start : CachedMemory) (events : List Event) (event : Event) :
    (∃ earlier other later, events ++ [event] = earlier ++ .fetch other true :: later ∧
        Held start earlier other later address value) ↔
      (∃ other, event = .fetch other true ∧ (start.run events).Brings other address ∧
        (start.run events).ram.read .word (wordAddress address) = .ok value) ∨
      (¬ (start.run events).Renews address event ∧ ∃ old,
        (∃ earlier other later, events = earlier ++ .fetch other true :: later ∧
          Held start earlier other later address old) ∧
        value = (event.filled? address).getD old) := by
  constructor
  · rintro ⟨earlier, other, later, hevents, hbrought, hkept, word, hword, rfl⟩
    -- The fetch that brought the word is the new event itself or one of those before it.
    rcases List.eq_nil_or_concat later with rfl | ⟨later, last, rfl⟩
    · obtain ⟨rfl, hevent⟩ := List.append_inj' hevents rfl
      cases hevent
      exact .inl ⟨other, rfl, hbrought, hword⟩
    · rw [List.concat_eq_append, ← List.cons_append, ← List.append_assoc] at hevents
      obtain ⟨rfl, hevent⟩ := List.append_inj' hevents rfl
      cases hevent
      rw [List.concat_eq_append] at hkept ⊢
      refine .inr ⟨hkept later event [] rfl, _, ⟨earlier, other, later, rfl, hbrought, ?_, word,
        hword, rfl⟩, lastFilled_concat address later event word⟩
      rintro done middle rest rfl
      exact hkept done middle (rest ++ [event]) (List.append_assoc ..)
  · rintro (⟨other, rfl, hbrings, hread⟩ | ⟨hkept, old, ⟨earlier, other, later, rfl, hheld⟩, rfl⟩)
    · exact ⟨events, other, [], rfl, hbrings, by simp, value, hread, rfl⟩
    · obtain ⟨hbrought, hkeptBefore, word, hword, rfl⟩ := hheld
      refine ⟨earlier, other, later ++ [event], (List.append_assoc ..), hbrought, ?_, word, hword,
        (lastFilled_concat address later event word).symm⟩
      intro done middle rest hlater
      rcases List.eq_nil_or_concat rest with rfl | ⟨rest, last, rfl⟩
      · obtain ⟨rfl, hmiddle⟩ := List.append_inj' hlater rfl
        cases hmiddle
        exact hkept
      · rw [List.concat_eq_append, ← List.cons_append, ← List.append_assoc] at hlater
        obtain ⟨rfl, -⟩ := List.append_inj' hlater rfl
        exact hkeptBefore done middle rest rfl

/-- **A word is held exactly if its history says so.** -/
theorem lookup_run (start : CachedMemory) (hempty : ∀ a, start.cache.lookup a = none)
    (events : List Event) :
    (start.run events).cache.lookup address = some value ↔
      ∃ earlier other later, events = earlier ++ .fetch other true :: later ∧
        Held start earlier other later address value := by
  induction events using List.reverseRecOn generalizing value with
  | nil => simp [run, hempty]
  | append_singleton events event ih =>
      rw [run_concat, lookup_next, held_concat]
      simp only [ih]

/-! ## Runs -/

/-- **One event** keeps the valid words going on to the end of every line. -/
theorem validToEnd_next (h : ∀ n : Fin 256, (s.cache.lines.get n).ValidToEnd) (event : Event)
    (n : Fin 256) : ((s.next event).cache.lines.get n).ValidToEnd := by
  cases event with
  | fetch address cached =>
      change ((s.cache.fetch address cached s.ram).2.1.lines.get n).ValidToEnd
      cases cached with
      | false =>
          rw [fetch_uncached]
          exact h n
      | true =>
          rcases s.cache.fetch_cases address s.ram with ⟨word, -, hfetch⟩ |
            ⟨-, -, line, hfilled, hfetch⟩ | ⟨-, -, e, line, hfetch⟩
          · rw [hfetch]
            exact h n
          · rw [hfetch]
            exact validToEnd_putLine h hfilled.validToEnd n
          · rw [hfetch]
            exact validToEnd_putLine h (validToEnd_invalidate line) n
  | fill address value => exact validToEnd_putLine h (validToEnd_put (h _) _ value) n
  | invalidate address => exact validToEnd_putLine h (validToEnd_invalidate _) n
  | clear => exact validToEnd_empty n
  | rewrite ram => exact h n

/-- All lines stay valid to their ends over a run. -/
theorem validToEnd_run (h : ∀ n : Fin 256, (s.cache.lines.get n).ValidToEnd) (events : List Event)
    (n : Fin 256) : ((s.run events).cache.lines.get n).ValidToEnd := by
  induction events generalizing s with
  | nil => exact h n
  | cons event later ih => exact ih (validToEnd_next h event)

/-- **The history of the instruction cache.**  A cache starts empty in front of any
memory, and anything happens to it and to the memory.

* In every line the valid words go on to its end.
* The cache holds a value for an address exactly if at some time a refill succeeded that
  reached the word of the address under its tag, the line was not refilled, made invalid
  or cleared since, and the value is the last one filled into the slot since, or else the
  word that was in memory at the refill.
* The next fetch costs and leaves what `FetchLaw` says. -/
theorem cache_history (ram : Memory) (events : List Event) :
    let s := run ⟨.empty, ram⟩ events
    (∀ n : Fin 256, (s.cache.lines.get n).ValidToEnd) ∧
      (∀ address value, s.cache.lookup address = some value ↔
        ∃ earlier other later, events = earlier ++ .fetch other true :: later ∧
          Held ⟨.empty, ram⟩ earlier other later address value) ∧
      FetchLaw s.cache s.ram := by
  intro s
  have hvalid : ∀ n : Fin 256, (s.cache.lines.get n).ValidToEnd :=
    validToEnd_run validToEnd_empty events
  exact ⟨hvalid, fun address value => lookup_run ⟨.empty, ram⟩ lookup_empty events,
    fetchLaw hvalid s.ram⟩

/-- A fill for another block of the line shows where the word is held. -/
example :
    (run ⟨.empty, .blank 32⟩ [.fetch 0x10 true, .fill 0x1010 7]).cache.lookup 0x10 = some 7 := by
  decide +kernel

end CachedMemory
end PlayStation
