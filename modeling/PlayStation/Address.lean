/-!
# Virtual and physical addresses

The upper address bits choose a segment.  The three lower segments are views
of the same 512 MiB of physical addresses; the fourth is mapped to itself.
-/

namespace PlayStation

/-- The four segments of the virtual address space. -/
inductive Segment where
  | kuseg
  | kseg0
  | kseg1
  | kseg2
  deriving DecidableEq, Repr

/-- The segment that an address lies in. -/
def Segment.of (address : UInt32) : Segment :=
  if address < 0x80000000 then .kuseg
  else if address < 0xA0000000 then .kseg0
  else if address < 0xC0000000 then .kseg1
  else .kseg2

/-- Whether instruction fetches from the segment may go through the cache. -/
def Segment.cacheable : Segment → Bool
  | .kuseg | .kseg0 => true
  | .kseg1 | .kseg2 => false

/-- The physical address behind a virtual one: the segment bits are dropped,
except in the last segment. -/
def physicalAddress (address : UInt32) : UInt32 :=
  if address < 0xC0000000 then address &&& 0x1FFFFFFF else address

end PlayStation
