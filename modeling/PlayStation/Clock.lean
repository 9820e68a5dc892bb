/-!
# The cycle counter
-/

namespace PlayStation

/-- The number of cycles that have passed. -/
structure Clock where
  cycles : Nat := 0
  deriving DecidableEq, Repr

namespace Clock

/-- Lets `cycles` pass. -/
def consume (clock : Clock) (cycles : Nat) : Clock :=
  ⟨clock.cycles + cycles⟩

/-- Back to zero. -/
def reset (_ : Clock) : Clock :=
  ⟨0⟩

end Clock
end PlayStation
