import PlayStation.Proofs.Processor.DataPlaces

/-!
# The instruction cache is transparent

Two processors that differ only in whether the instruction cache is enabled
(`Twins`) run side by side over equal memories, through the same ticks and the same
changes of the interrupt lines (`Session.run`).  As long as the instructions that
execute are harmless (`Session.Harmless`), they stay twins over equal memories, and
fetch the same words (`cache_transparent`).

The invariant is `Tracks`: both caches mirror the memory.  Then a fetch gives the word
at the program counter whatever the cache holds (`fetch_of_mirrors`), so the same
instruction runs on both sides, to the same effect.
-/

namespace PlayStation

open InstructionCache (Mirrors fetchedBlocks)

namespace Processor

variable {p : Processor} {ram : Memory} {blocks : List UInt32}

/-! ## Ticks apart from the cache -/

/-- The end of a tick that leaves the cache alone does not look at it. -/
theorem settle_conclude_withCache {result : Except Trap Effect}
    (h : ∀ e, result = .ok e → e.sparesCache = true) (cc : UInt32) (c : InstructionCache) :
    ((p.withCache cc c).conclude result).settle = ((p.conclude result).settle).withCache cc c := by
  cases result with
  | error trap =>
      dsimp only [conclude]
      rw [raise_eq, settle_eq, raise_eq, settle_eq]
      rfl
  | ok e =>
      have hspares := h e rfl
      dsimp only [conclude]
      rw [settle_apply, settle_apply]
      cases e with
      | cacheControl value => cases hspares
      | cache lines => cases hspares
      | _ => rfl

/-- The end of such a tick keeps the cache and its control register. -/
theorem settle_conclude_cache {result : Except Trap Effect}
    (h : ∀ e, result = .ok e → e.sparesCache = true) :
    ((p.conclude result).settle).cache = p.cache ∧
      ((p.conclude result).settle).cacheControl = p.cacheControl := by
  have hsame : (p.conclude result).settle =
      ((p.conclude result).settle).withCache p.cacheControl p.cache :=
    settle_conclude_withCache h p.cacheControl p.cache
  rw [hsame]
  exact ⟨rfl, rfl⟩

/-! ## Fetches through a mirroring cache -/

/-- The word at the program counter, or the trap of an attempt to fetch it. -/
def codeWord (p : Processor) (ram : Memory) : Except Trap UInt32 :=
  match p.misalignedFetch with
  | some trap => .error trap
  | none => (ram.read .word (physicalAddress p.pc)).mapError fun _ => .plain .busErrorInstruction

/-- The next fetch gives the word at the program counter and leaves `c` as the cache. -/
def FetchesInto (p : Processor) (ram : Memory) (c : InstructionCache) : Prop :=
  ∃ cycles, p.fetch ram =
    ((p.codeWord ram).map (⟨·, cycles⟩), p.withCache p.cacheControl c, ram)

/-- **A fetch through a mirroring cache** gives the word at the program counter. -/
theorem fetch_of_mirrors (h : Mirrors p.cache ram blocks) (hsize : ram.size % 16 = 0) :
    ∃ c, p.FetchesInto ram c ∧
      Mirrors c ram (fetchedBlocks (physicalAddress p.pc) blocks (p.codeWord ram)) := by
  unfold FetchesInto fetch codeWord misalignedFetch
  by_cases haligned : p.pc &&& 3 = 0
  · rw [if_pos haligned]
    dsimp only
    have hlow : p.pc.toNat % 4 = 0 :=
      (Bits.toNat_and_low p.pc 3 (n := 2) rfl).symm.trans (congrArg UInt32.toNat haligned)
    have hphysical := toNat_physicalAddress_mod p.pc
    obtain ⟨cycles, c, hfetch, hmirrors⟩ :=
      h.fetch (a := physicalAddress p.pc) hsize (by omega) p.fetchCached
    refine ⟨c, ⟨cycles, ?_⟩, ?_⟩
    · rw [hfetch]
      cases ram.read .word (physicalAddress p.pc) <;> rfl
    · cases hread : ram.read .word (physicalAddress p.pc) <;>
        (rw [hread] at hmirrors; exact hmirrors)
  · rw [if_neg haligned]
    exact ⟨p.cache, ⟨0, rfl⟩, h⟩

variable {cc : UInt32} {c₀ c c' : InstructionCache}

/-- With the cache or without it, the processor decodes the word that memory holds. -/
theorem FetchesInto.fetchedWord (h : p.FetchesInto ram c) :
    Processor.fetchedWord (p.fetch ram).1 =
      Processor.fetchedWord ((p.codeWord ram).map (⟨·, 0⟩)) := by
  obtain ⟨cycles, hfetch⟩ := h
  rw [hfetch]
  cases p.codeWord ram <;> rfl

/-- And a fetch brings that word, or fails as memory does. -/
theorem FetchesInto.fetch_word (h : p.FetchesInto ram c) :
    (p.fetch ram).1.map Fetch.word = p.codeWord ram := by
  obtain ⟨cycles, hfetch⟩ := h
  rw [hfetch]
  cases p.codeWord ram <;> rfl

/-- What a fetch leaves in the cache stays there while the instruction is made ready. -/
theorem FetchesInto.ready_cache (h : p.FetchesInto ram c) : (p.ready ram).cache = c := by
  obtain ⟨cycles, hfetch⟩ := h
  rw [ready_eq, hfetch]
  rfl

/-- The instruction at the program counter finds the same processor, apart from the
cache. -/
theorem FetchesInto.ready_withCache (h : p.FetchesInto ram c)
    (h' : (p.withCache cc c₀).FetchesInto ram c') :
    (p.withCache cc c₀).ready ram = (p.ready ram).withCache cc c' := by
  have hcache : ((p.withCache cc c₀).fetch ram).2.1.cache = c' := by
    obtain ⟨cycles, hfetch⟩ := h'
    rw [hfetch]
    rfl
  rw [ready_eq, ready_eq, h.fetchedWord, h'.fetchedWord, hcache]
  rfl

/-- The outcome of a tick, from the word at the program counter. -/
theorem FetchesInto.outcome (h : p.FetchesInto ram c) :
    p.outcome ram =
      match p.codeWord ram with
      | .error trap => (.error trap, ram)
      | .ok word =>
          if p.control.interruptPending then (.error (.plain .interrupt), ram)
          else (p.ready ram).effect (.decode word) ram := by
  obtain ⟨cycles, hfetch⟩ := h
  unfold Processor.outcome
  rw [control_ready, hfetch]
  cases p.codeWord ram <;> rfl

/-- An instruction is as harmless when it executes as it was before the tick. -/
theorem Harmless.ready {instruction : Instruction} (h : p.Harmless blocks instruction) :
    (p.ready ram).Harmless blocks instruction := by
  refine ⟨?_, ?_⟩
  · have hload := h.load
    cases instruction with
    | load kind target base offset =>
        unfold loaded? at hload ⊢
        dsimp only at hload ⊢
        rwa [reg_ready]
    | _ => exact hload
  · have hstore := h.store
    rw [control_ready]
    cases instruction with
    | store kind source base offset =>
        unfold stored? at hstore ⊢
        dsimp only at hstore ⊢
        rwa [reg_ready]
    | _ => exact hstore

end Processor

/-! ## Runs -/

/-- A processor running from a memory, with the blocks that it has fetched
instructions from. -/
structure Session where
  processor : Processor
  ram : Memory
  fetched : List UInt32

namespace Session

/-- What happens in a session: a tick, or a change of the interrupt lines. -/
inductive Event where
  | tick
  | lines (value : UInt32)

/-- The blocks fetched from, once the next fetch is made. -/
def fetchedNext (s : Session) : List UInt32 :=
  fetchedBlocks (physicalAddress s.processor.pc) s.fetched (s.processor.fetch s.ram).1

/-- The instruction that the next tick executes, unless its fetch fails or an interrupt
comes first. -/
def executed? (s : Session) : Option Instruction :=
  match (s.processor.fetch s.ram).1 with
  | .ok fetched =>
      if s.processor.control.interruptPending then none else some (.decode fetched.word)
  | .error _ => none

/-- The next instruction does not access the cache control register, and does not store
to the isolated cache or to a block that instructions were fetched from, its own one
included. -/
def Harmless (s : Session) : Prop :=
  ∀ instruction, s.executed? = some instruction →
    s.processor.Harmless s.fetchedNext instruction

/-- What an event makes of a session. -/
def next (s : Session) : Event → Session
  | .tick => ⟨(s.processor.tick s.ram).2.1, (s.processor.tick s.ram).2.2, s.fetchedNext⟩
  | .lines value => { s with processor := s.processor.setInterruptLines value }

/-- Events one after another. -/
def run (s : Session) (events : List Event) : Session :=
  events.foldl next s

/-- Every instruction that the events execute is harmless. -/
def HarmlessRun (s : Session) : List Event → Prop
  | [] => True
  | .tick :: later => s.Harmless ∧ (s.next .tick).HarmlessRun later
  | .lines value :: later => (s.next (.lines value)).HarmlessRun later

/-- The beginning of a harmless run is one. -/
theorem HarmlessRun.of_append {s : Session} {events later : List Event}
    (h : s.HarmlessRun (events ++ later)) : s.HarmlessRun events := by
  induction events generalizing s with
  | nil => trivial
  | cons event events ih =>
      cases event with
      | tick => exact ⟨h.1, ih h.2⟩
      | lines value => exact ih (s := s.next (.lines value)) h

/-! ## One tick -/

variable {s : Session} {c : InstructionCache}

/-- A tick adds the block of its program counter, if the fetch succeeds. -/
theorem fetchedNext_eq (hfetch : s.processor.FetchesInto s.ram c) :
    s.fetchedNext =
      fetchedBlocks (physicalAddress s.processor.pc) s.fetched (s.processor.codeWord s.ram) := by
  obtain ⟨cycles, hfetch⟩ := hfetch
  unfold fetchedNext
  rw [hfetch]
  cases s.processor.codeWord s.ram <;> rfl

/-- The next tick executes the word at the program counter, if it executes at all. -/
theorem Harmless.of_codeWord (h : s.Harmless) (hfetch : s.processor.FetchesInto s.ram c)
    {word : UInt32} (hword : s.processor.codeWord s.ram = .ok word)
    (hpending : s.processor.control.interruptPending = false) :
    (s.processor.ready s.ram).Harmless s.fetchedNext (.decode word) := by
  apply Processor.Harmless.ready
  apply h
  obtain ⟨cycles, hfetch⟩ := hfetch
  unfold executed?
  rw [hfetch, hword]
  exact if_neg (by rw [hpending]; decide)

/-- The outcome of a harmless tick does not depend on the cache. -/
theorem Harmless.outcome_withCache (h : s.Harmless) (hfetch : s.processor.FetchesInto s.ram c)
    {cc : UInt32} {c₀ c' : InstructionCache}
    (hfetch' : (s.processor.withCache cc c₀).FetchesInto s.ram c') :
    (s.processor.withCache cc c₀).outcome s.ram = s.processor.outcome s.ram := by
  have hsame : (s.processor.withCache cc c₀).codeWord s.ram = s.processor.codeWord s.ram := rfl
  rw [hfetch'.outcome, hfetch.outcome, hsame, hfetch.ready_withCache hfetch']
  cases hword : s.processor.codeWord s.ram with
  | error trap => rfl
  | ok word =>
      dsimp only
      cases hpending : s.processor.control.interruptPending with
      | true =>
          have hpending' : (s.processor.withCache cc c₀).control.interruptPending = true :=
            hpending
          rw [hpending', if_pos rfl, if_pos rfl]
      | false =>
          have hpending' : (s.processor.withCache cc c₀).control.interruptPending = false :=
            hpending
          rw [hpending', if_neg Bool.false_ne_true, if_neg Bool.false_ne_true]
          exact Processor.effect_withCache (h.of_codeWord hfetch hword hpending) cc c' s.ram

/-- A harmless tick leaves the cache and the code alone. -/
theorem Harmless.outcome (h : s.Harmless) (hfetch : s.processor.FetchesInto s.ram c) :
    (∀ e, (s.processor.outcome s.ram).1 = .ok e → e.sparesCache = true) ∧
      Memory.KeepsCode s.fetchedNext s.ram (s.processor.outcome s.ram).2 := by
  rw [hfetch.outcome]
  cases hword : s.processor.codeWord s.ram with
  | error trap => exact ⟨nofun, .refl _ _⟩
  | ok word =>
      dsimp only
      cases hpending : s.processor.control.interruptPending with
      | true => exact ⟨nofun, .refl _ _⟩
      | false =>
          have hharmless := h.of_codeWord hfetch hword hpending
          rw [if_neg Bool.false_ne_true]
          exact ⟨fun e he => hharmless.sparesCache he, hharmless.keepsCode s.ram⟩

/-- A harmless tick leaves in the cache what its fetch put there, and leaves the code in
memory. -/
theorem Harmless.tick (h : s.Harmless) (hfetch : s.processor.FetchesInto s.ram c) :
    (s.processor.tick s.ram).2.1.cache = c ∧
      (s.processor.tick s.ram).2.1.cacheControl = s.processor.cacheControl ∧
      Memory.KeepsCode s.fetchedNext s.ram (s.processor.tick s.ram).2.2 := by
  obtain ⟨hspares, hkeeps⟩ := h.outcome hfetch
  obtain ⟨hcache, hcontrol⟩ :=
    Processor.settle_conclude_cache (p := s.processor.ready s.ram) hspares
  rw [Processor.tick_eq]
  refine ⟨hcache.trans hfetch.ready_cache, hcontrol.trans ?_, hkeeps⟩
  rw [Processor.ready_eq]

/-- A harmless tick comes to the same with another cache, apart from that cache. -/
theorem Harmless.tick_withCache (h : s.Harmless) (hfetch : s.processor.FetchesInto s.ram c)
    {cc : UInt32} {c₀ c' : InstructionCache}
    (hfetch' : (s.processor.withCache cc c₀).FetchesInto s.ram c') :
    ((s.processor.withCache cc c₀).tick s.ram).2 =
      ((s.processor.tick s.ram).2.1.withCache cc c', (s.processor.tick s.ram).2.2) := by
  have hspares := (h.outcome hfetch).1
  rw [Processor.tick_eq, Processor.tick_eq, h.outcome_withCache hfetch hfetch',
    hfetch.ready_withCache hfetch', Processor.settle_conclude_withCache hspares cc c']

end Session

/-- Two sessions whose processors differ only in the cache and in its control register,
with caches that mirror their common memory. -/
structure Tracks (control control' : UInt32) (s t : Session) : Prop where
  same : t.processor = s.processor.withCache control' t.processor.cache
  control : s.processor.cacheControl = control
  ram : t.ram = s.ram
  fetched : t.fetched = s.fetched
  size : s.ram.size % 16 = 0
  mirrors : Mirrors s.processor.cache s.ram s.fetched
  mirrors' : Mirrors t.processor.cache s.ram s.fetched

namespace Tracks

variable {s t : Session} {control control' : UInt32}

/-- Both sessions fetch the same word next. -/
theorem fetch_word (h : Tracks control control' s t) :
    (t.processor.fetch t.ram).1.map Fetch.word = (s.processor.fetch s.ram).1.map Fetch.word := by
  have hsame : t.processor.codeWord t.ram = s.processor.codeWord s.ram := by
    rw [h.same, h.ram]
    rfl
  obtain ⟨c, hfetch, -⟩ := Processor.fetch_of_mirrors h.mirrors h.size
  obtain ⟨c', hfetch', -⟩ := Processor.fetch_of_mirrors h.mirrors' h.size
  rw [h.ram] at hsame ⊢
  rw [hfetch.fetch_word, hfetch'.fetch_word, hsame]

/-- **A tick keeps two sessions together**, if its instruction is harmless. -/
theorem tick (h : Tracks control control' s t) (hharmless : s.Harmless) :
    Tracks control control' (s.next .tick) (t.next .tick) := by
  obtain ⟨p, ram, blocks⟩ := s
  obtain ⟨q, ram', blocks'⟩ := t
  obtain ⟨hsame, hcontrol, hram, hfetched, hsize, hmirrors, hmirrors'⟩ := h
  dsimp only at hsame hcontrol hram hfetched hsize hmirrors hmirrors'
  subst hram hfetched
  obtain ⟨c₀, rfl⟩ : ∃ c₀, q = p.withCache control' c₀ := ⟨_, hsame⟩
  obtain ⟨c, hfetch, hafter⟩ := Processor.fetch_of_mirrors hmirrors hsize
  obtain ⟨c', hfetch', hafter'⟩ := Processor.fetch_of_mirrors hmirrors' hsize
  obtain ⟨hcache, hcacheControl, hkeeps⟩ := hharmless.tick hfetch
  have htwin := hharmless.tick_withCache hfetch hfetch'
  have hprocessor := congrArg Prod.fst htwin
  have hram := congrArg Prod.snd htwin
  have hblocks := Session.fetchedNext_eq (s := ⟨p, ram', blocks'⟩) hfetch
  have hblocks' := Session.fetchedNext_eq (s := ⟨p.withCache control' c₀, ram', blocks'⟩) hfetch'
  refine ⟨?_, hcacheControl.trans hcontrol, hram, hblocks'.trans hblocks.symm, ?_, ?_, ?_⟩
  all_goals dsimp only [Session.next] at hprocessor ⊢
  · rw [hprocessor]
    rfl
  · rw [hkeeps.size]
    exact hsize
  · rw [hcache]
    exact (hblocks ▸ hafter).of_reads hkeeps.read
  · rw [hprocessor]
    exact (hblocks ▸ hafter').of_reads hkeeps.read

/-- A change of the interrupt lines keeps two sessions together. -/
theorem lines (h : Tracks control control' s t) (value : UInt32) :
    Tracks control control' (s.next (.lines value)) (t.next (.lines value)) := by
  obtain ⟨hsame, hcontrol, hram, hfetched, hsize, hmirrors, hmirrors'⟩ := h
  refine ⟨?_, hcontrol, hram, hfetched, hsize, hmirrors, hmirrors'⟩
  dsimp only [Session.next]
  rw [hsame]
  rfl

/-- **Harmless runs stay together.** -/
theorem run {events : List Session.Event} (h : Tracks control control' s t)
    (hharmless : s.HarmlessRun events) :
    Tracks control control' (s.run events) (t.run events) := by
  induction events generalizing s t with
  | nil => exact h
  | cons event later ih =>
      cases event with
      | tick => exact ih (h.tick hharmless.1) hharmless.2
      | lines value => exact ih (h.lines value) hharmless

end Tracks

namespace Processor

/-- Two processors that differ in their caches, and in that the second has its cache
enabled and the first has not. -/
structure Twins (plain cached : Processor) : Prop where
  same : cached =
    plain.withCache (Bits.setFlag plain.cacheControl CacheControl.enable true) cached.cache
  disabled : Bits.flag plain.cacheControl CacheControl.enable = false

/-- **The instruction cache is transparent.**  Twins with empty caches run from equal
memories of whole blocks.  If every instruction that executes is harmless, they are
still twins with equal memories after every event, and a fetch gives both of them the
same word or the same trap. -/
theorem cache_transparent {plain cached : Processor} (htwins : Twins plain cached)
    (hplain : plain.cache.isEmpty = true) (hcached : cached.cache.isEmpty = true)
    {ram : Memory} (hsize : ram.size % 16 = 0) {events : List Session.Event}
    (hharmless : (Session.mk plain ram []).HarmlessRun events) :
    ∀ done later, done ++ later = events →
      let s := (Session.mk plain ram []).run done
      let t := (Session.mk cached ram []).run done
      Twins s.processor t.processor ∧ t.ram = s.ram ∧
        (t.processor.fetch t.ram).1.map Fetch.word =
          (s.processor.fetch s.ram).1.map Fetch.word := by
  rintro done later rfl s t
  -- An empty cache mirrors every memory, so the twins track each other at the start.
  have hstart : Tracks plain.cacheControl
      (Bits.setFlag plain.cacheControl CacheControl.enable true)
      ⟨plain, ram, []⟩ ⟨cached, ram, []⟩ :=
    ⟨htwins.same, rfl, rfl, rfl, hsize, InstructionCache.mirrors_of_isEmpty hplain ram,
      InstructionCache.mirrors_of_isEmpty hcached ram⟩
  have htracks := hstart.run hharmless.of_append
  refine ⟨⟨?_, ?_⟩, htracks.ram, htracks.fetch_word⟩
  · rw [htracks.control]
    exact htracks.same
  · rw [htracks.control]
    exact htwins.disabled

/-- The word `sw $1, 16($0)` at address 0, and zeros behind it: the second fetch hits the
cache, and the store has reached the memory of both processors. -/
theorem cache_transparent_of_store :
    let plain := ((initial .ignore).setPc 0).setReg 1 7
    let cached := plain.withCache
      (Bits.setFlag plain.cacheControl CacheControl.enable true) .empty
    let ram : Memory := ⟨#[0x10, 0, 1, 0xAC] ++ Array.replicate 28 0⟩
    let s := (Session.mk plain ram []).run [.tick, .lines 4, .tick]
    let t := (Session.mk cached ram []).run [.tick, .lines 4, .tick]
    Twins plain cached ∧ plain.cache.isEmpty = true ∧ cached.cache.isEmpty = true ∧
      (Session.mk plain ram []).HarmlessRun [.tick, .lines 4, .tick] ∧
      Twins s.processor t.processor ∧ t.ram = s.ram ∧ t.ram.load 16 4 = 7 ∧
      t.processor.cache.lookup 4 = some 0 := by
  intro plain cached ram s t
  have htwins : Twins plain cached := ⟨rfl, by decide⟩
  have hstore : (Session.mk plain ram []).executed? = some (.store .word 1 0 16) := by
    decide +kernel
  have hnop : (((Session.mk plain ram []).next .tick).next (.lines 4)).executed? =
      some (.shift .left 0 0 0) := by
    decide +kernel
  have hharmless : (Session.mk plain ram []).HarmlessRun [.tick, .lines 4, .tick] := by
    refine ⟨fun instruction hexecuted => ?_, fun instruction hexecuted => ?_, trivial⟩
    · obtain rfl := Option.some.inj (hstore.symm.trans hexecuted)
      have hplace : plain.stored? (.store .word 1 0 16) = some 16 := by decide +kernel
      refine ⟨nofun, fun address haddress => ?_⟩
      obtain rfl : 16 = address := Option.some.inj (hplace.symm.trans haddress)
      decide +kernel
    · obtain rfl := Option.some.inj (hnop.symm.trans hexecuted)
      exact ⟨nofun, nofun⟩
  have hsize : ram.size % 16 = 0 := by decide
  obtain ⟨hsame, hram, -⟩ := cache_transparent htwins (by decide +kernel) (by decide +kernel) hsize
    hharmless [.tick, .lines 4, .tick] [] rfl
  exact ⟨htwins, by decide +kernel, by decide +kernel, hharmless, hsame, hram,
    by decide +kernel, by decide +kernel⟩

end Processor
end PlayStation
