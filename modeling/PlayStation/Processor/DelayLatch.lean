/-!
# Two-stage delay latches

An effect that an instruction schedules takes hold one instruction later.  The
latch keeps what the running instruction schedules (`next`) apart from what
falls due at its end (`current`).
-/

namespace PlayStation

/-- A scheduled effect and the effect that falls due. -/
structure DelayLatch (α : Type) where
  next : Option α := none
  current : Option α := none
  deriving DecidableEq, Repr

namespace DelayLatch

variable {α : Type}

/-- Schedules an effect in place of the one scheduled before. -/
def schedule (latch : DelayLatch α) (effect : α) : DelayLatch α :=
  { latch with next := some effect }

/-- Begins an instruction: what was scheduled now falls due, and what was due
is dropped. -/
def advance (latch : DelayLatch α) : DelayLatch α :=
  { next := none, current := latch.next }

/-- Drops the effect that falls due. -/
def cancelCurrent (latch : DelayLatch α) : DelayLatch α :=
  { latch with current := none }

/-- The latch with nothing scheduled and nothing due. -/
def empty : DelayLatch α := {}

def isEmpty (latch : DelayLatch α) : Bool :=
  latch.next.isNone && latch.current.isNone

end DelayLatch
end PlayStation
