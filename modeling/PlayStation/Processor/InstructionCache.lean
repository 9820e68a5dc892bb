import PlayStation.Bus
import PlayStation.Bits

/-!
# The instruction cache

256 lines of four words, direct-mapped.  The tag belongs to the line, validity
to the word: a miss fills its line from the missed word to the end and makes
the words before it invalid.  A hit is free; a miss costs the words it reads
and three cycles more; an uncached fetch costs four cycles.
-/

namespace PlayStation

/-! Masks of the cache control register, which answers at a fixed address. -/
namespace CacheControl

/-- Where loads and stores find the register. -/
def address : UInt32 := 0xFFFE0130

def tagTest : UInt32 := 0x4
def enable : UInt32 := 0x800

/-- The named fields. -/
def fields : List Bits.Field := [
  ⟨"LOCK", 0x1⟩, ⟨"INV", 0x2⟩, ⟨"TAG", tagTest⟩, ⟨"RAM", 0x8⟩, ⟨"DBLKSZ", 0x30⟩, ⟨"DS", 0x80⟩,
  ⟨"IBLKSZ", 0x300⟩, ⟨"IS0", 0x400⟩, ⟨"IS1", enable⟩, ⟨"INTP", 0x1000⟩, ⟨"RDPRI", 0x2000⟩,
  ⟨"NOPAD", 0x4000⟩, ⟨"BGNT", 0x8000⟩, ⟨"LDSCH", 0x10000⟩, ⟨"NOSTR", 0x20000⟩]

end CacheControl

/-- A word of a line. -/
structure CachedWord where
  value : UInt32 := 0
  valid : Bool := false
  deriving DecidableEq, Repr

/-- Four words of one 16-byte block. -/
structure CacheLine where
  tag : UInt32
  words : Vector CachedWord 4
  deriving DecidableEq

namespace CacheLine

/-- The line of tag 0 with no valid word. -/
def empty : CacheLine :=
  ⟨0, Vector.replicate 4 {}⟩

/-- Makes every word from `first` up to, but not including, `last` invalid. -/
def invalidate (line : CacheLine) (first last : Nat) : CacheLine :=
  { line with words := line.words.mapFinIdx fun i word _ =>
      if first ≤ i ∧ i < last then { word with valid := false } else word }

/-- Overwrites a word, and its validity. -/
def put (line : CacheLine) (index : Fin 4) (word : CachedWord) : CacheLine :=
  { line with words := line.words.set index.val word }

end CacheLine

/-- A fetched word and what fetching it cost. -/
structure Fetch where
  word : UInt32
  cycles : Nat
  deriving DecidableEq, Repr

/-- The cache. -/
structure InstructionCache where
  lines : Vector CacheLine 256

namespace InstructionCache

/-- The cache without a valid word. -/
def empty : InstructionCache :=
  ⟨Vector.replicate 256 CacheLine.empty⟩

/-- The word within its line that an address selects. -/
def wordIndex (address : UInt32) : Fin 4 :=
  Fin.ofNat 4 (address >>> 2).toNat

/-- The line that an address selects. -/
def lineIndex (address : UInt32) : Fin 256 :=
  Fin.ofNat 256 (address >>> 4).toNat

/-- What tells apart the blocks that share a line. -/
def tag (address : UInt32) : UInt32 :=
  address >>> 12

def line (c : InstructionCache) (address : UInt32) : CacheLine :=
  c.lines[lineIndex address]

/-- Replaces the line that an address selects. -/
def putLine (c : InstructionCache) (address : UInt32) (line : CacheLine) : InstructionCache :=
  ⟨c.lines.set (lineIndex address).val line⟩

/-- The cached word at an address, if there is one. -/
def lookup (c : InstructionCache) (address : UInt32) : Option UInt32 :=
  let line := c.line address
  let word := line.words[wordIndex address]
  if line.tag = tag address && word.valid then some word.value else none

/-- Overwrites the value of the word that an address selects; tag and validity
stay. -/
def fillWord (c : InstructionCache) (address value : UInt32) : InstructionCache :=
  let line := c.line address
  let index := wordIndex address
  c.putLine address (line.put index { line.words[index] with value })

/-- Makes the line that an address selects invalid. -/
def invalidateLine (c : InstructionCache) (address : UInt32) : InstructionCache :=
  c.putLine address ((c.line address).invalidate 0 4)

/-- Reads the last `count` words of the block at `base` into a line. -/
def readWords {β : Type} [Bus β] (base : UInt32) :
    (count : Nat) → count ≤ 4 → CacheLine → β → Except AccessError Unit × CacheLine × β
  | 0, _, line, bus => (.ok (), line, bus)
  | count + 1, h, line, bus =>
    let index : Fin 4 := ⟨3 - count, by omega⟩
    match Bus.read bus .word (base + 4 * UInt32.ofNat index.val) with
    | (.ok value, bus) =>
      readWords base count (by omega) (line.put index ⟨value, true⟩) bus
    | (.error e, bus) => (.error e, line, bus)

/-- Fills the line of a missed address from the missed word to the line's end.
When a read fails the whole line is left invalid. -/
def refill {β : Type} [Bus β] (c : InstructionCache) (address : UInt32) (bus : β) :
    Except AccessError Fetch × InstructionCache × β :=
  let index := wordIndex address
  let started := (c.line address).invalidate 0 index.val
  match readWords (address &&& ~~~0xF) (4 - index.val) (by omega) started bus with
  | (.ok (), line, bus) =>
    let cycles := (4 - index.val) + 3
    (.ok ⟨line.words[index].value, cycles⟩,
      c.putLine address { line with tag := tag address }, bus)
  | (.error e, line, bus) =>
    (.error e, (c.putLine address line).invalidateLine address, bus)

/-- Fetches the word at a physical address, through the cache or past it. -/
def fetch {β : Type} [Bus β] (c : InstructionCache) (address : UInt32) (cached : Bool) (bus : β) :
    Except AccessError Fetch × InstructionCache × β :=
  if cached then
    match c.lookup address with
    | some word => (.ok ⟨word, 0⟩, c, bus)
    | none => c.refill address bus
  else
    match Bus.read bus .word address with
    | (.ok word, bus) => (.ok ⟨word, 4⟩, c, bus)
    | (.error e, bus) => (.error e, c, bus)

/-- The number of valid words of a line. -/
def lineValidWords (line : CacheLine) : Nat :=
  line.words.toList.countP fun word => word.valid

/-- The number of valid words. -/
def validWords (c : InstructionCache) : Nat :=
  c.lines.toList.foldl (fun n line => n + lineValidWords line) 0

def isEmpty (c : InstructionCache) : Bool :=
  c.validWords == 0

end InstructionCache
end PlayStation
