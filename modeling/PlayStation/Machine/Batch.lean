import PlayStation.Machine.Basic

/-!
# Runs in batches

A long run is cut into batches of equal size, so that its progress can be shown.
-/

namespace PlayStation

/-- How far a run has come. -/
structure Checkpoint where
  /-- The ticks that have been run. -/
  done : Nat
  pc : UInt32
  cycles : Nat
  deriving DecidableEq, Repr

namespace Machine

/-- The size of the batches of a run: a tenth of its ticks, and at least one. -/
def batchSize (ticks : Nat) : Nat :=
  max (ticks / 10) 1

/-- Runs the `remaining` ticks of a run batch by batch, after `done` ticks.  The
result is how far the run is after each batch, and the machine at the end. -/
def runBatches (size done remaining : Nat) (m : Machine) : List Checkpoint × Machine :=
  if _h : 0 < size ∧ 0 < remaining then
    let batch := min remaining size
    let m := m.run batch
    let here : Checkpoint := ⟨done + batch, m.processor.pc, m.clock.cycles⟩
    let (rest, m) := m.runBatches size (done + batch) (remaining - batch)
    (here :: rest, m)
  else ([], m)
termination_by remaining

/-- A run in batches of the usual size. -/
def runWithCheckpoints (ticks : Nat) (m : Machine) : List Checkpoint × Machine :=
  m.runBatches (batchSize ticks) 0 ticks

/-- A run of `a + b` ticks is one of `a` and then one of `b`. -/
theorem run_add (a b : Nat) (m : Machine) : m.run (a + b) = (m.run a).run b := by
  induction a generalizing m with
  | zero => simp [run]
  | succ a ih => rw [Nat.add_right_comm, run, run, ih]

end Machine
end PlayStation
