import PlayStation.Processor.Basic

/-!
# Data accesses of the processor

Loads and stores go to the bus at the physical address, with two exceptions.
The cache control register answers at its own address.  While the cache is
isolated, a store goes to the instruction cache: it overwrites the word that
the address selects or, in tag test mode, makes the line invalid.
-/

namespace PlayStation.Processor

variable {β : Type} [Bus β]

/-- Reads data at a virtual address. -/
def readData (p : Processor) (width : Width) (address : UInt32) (bus : β) :
    Except Trap UInt32 × β :=
  let physical := physicalAddress address
  if physical = CacheControl.address then
    (.ok (width.truncate p.cacheControl), bus)
  else
    match Bus.read bus width physical with
    | (.ok value, bus) => (.ok (width.truncate value), bus)
    | (.error _, bus) => (.error (.plain .busErrorData), bus)

/-- Writes the low part of `value` at a virtual address. -/
def writeData (p : Processor) (width : Width) (address value : UInt32) (bus : β) :
    Except Trap Processor × β :=
  let physical := physicalAddress address
  let value := width.truncate value
  if physical = CacheControl.address then
    (.ok { p with cacheControl := value }, bus)
  else if p.control.isolated then
    if Bits.flag p.cacheControl CacheControl.tagTest then
      (.ok { p with cache := p.cache.invalidateLine physical }, bus)
    else
      (.ok { p with cache := p.cache.fillWord physical value }, bus)
  else
    match Bus.write bus width physical value with
    | (.ok (), bus) => (.ok p, bus)
    | (.error _, bus) => (.error (.plain .busErrorData), bus)

end PlayStation.Processor
