import PlayStation.Proofs.Processor.Reachable

/-!
# Runs of a processor

A run is a list of events: ticks, each with a bus of its own, and changes from
outside (`Event`).  Each of them leads from a reachable processor to a reachable one.

A condition on a run says something of every event and of the processor that it
happens to (`Throughout`).  What each such event keeps, the run keeps
(`Throughout.preserves`).
-/

namespace PlayStation.Processor

/-- A change of the processor from outside. -/
inductive Change where
  | setPc (pc : UInt32)
  | setReg (index : Register) (value : UInt32)
  | setRegDelayed (index : Register) (value : UInt32)
  | setControlReg (index : Nat) (value : UInt32)
  | setInterruptLines (lines : UInt32)
  | enterHandler (cause : ExceptionCause)
  | reset

/-- Makes a change. -/
def change (p : Processor) : Change → Processor
  | .setPc pc => p.setPc pc
  | .setReg index value => p.setReg index value
  | .setRegDelayed index value => p.setRegDelayed index value
  | .setControlReg index value => p.setControlReg index value
  | .setInterruptLines lines => p.setInterruptLines lines
  | .enterHandler cause => p.enterHandler cause
  | .reset => p.reset

/-- A change keeps the policy. -/
theorem change_unknownOpcode (p : Processor) (change : Change) :
    (p.change change).unknownOpcode = p.unknownOpcode := by
  cases change with
  | setReg index value => rw [Processor.change, setReg_eq]
  | setRegDelayed index value => rw [Processor.change, setRegDelayed_eq]
  | _ => rfl

/-- A tick keeps the policy. -/
theorem tick_unknownOpcode {β : Type} [Bus β] (p : Processor) (bus : β) :
    (p.tick bus).2.1.unknownOpcode = p.unknownOpcode := by
  rcases htrap : p.trap? bus with _ | trap
  · obtain ⟨fetched, e, -, he, -⟩ := outcome_of_trap?_eq_none htrap
    rw [tick_eq, he]
    dsimp only [conclude]
    rw [settle_apply, ready_eq]
    cases e <;> rfl
  · rw [tick_of_trap?_eq_some htrap]

/-- What happens to a processor: a tick on some bus, or a change from outside. -/
inductive Event : Type 1 where
  | tick {β : Type} [Bus β] (bus : β)
  | change (change : Change)

/-- The processor after an event. -/
def perform (p : Processor) : Event → Processor
  | @Event.tick _ _ bus => (p.tick bus).2.1
  | .change change => p.change change

/-- The processor after a run. -/
def performAll (p : Processor) (events : List Event) : Processor :=
  events.foldl perform p

/-- Every event leads from a reachable processor to a reachable one. -/
theorem Reachable.perform {p : Processor} (h : Reachable p) (event : Event) :
    Reachable (p.perform event) := by
  cases event with
  | tick bus => exact .tick bus h
  | change change =>
      cases change with
      | setPc pc => exact .setPc pc h
      | setReg index value => exact .setReg index value h
      | setRegDelayed index value => exact .setRegDelayed index value h
      | setControlReg index value => exact .setControlReg index value h
      | setInterruptLines lines => exact .setInterruptLines lines h
      | enterHandler cause => exact .enterHandler cause h
      | reset => exact .reset h

/-- Whether `P` holds of every event of a run and the processor that it happens to. -/
def Throughout (P : Processor → Event → Prop) : Processor → List Event → Prop
  | _, [] => True
  | p, event :: later => P p event ∧ Throughout P (p.perform event) later

/-- **What every event of a run keeps, the run keeps.** -/
theorem Throughout.preserves {P : Processor → Event → Prop} {I : Processor → Prop}
    (hstep : ∀ p event, I p → P p event → I (p.perform event)) {p : Processor} (hp : I p)
    {events : List Event} (h : Throughout P p events) : I (p.performAll events) := by
  induction events generalizing p with
  | nil => exact hp
  | cons event later ih => exact ih (hstep p event hp h.1) h.2

/-- A weaker condition holds throughout a run as well. -/
theorem Throughout.mono {P Q : Processor → Event → Prop} (hPQ : ∀ p event, P p event → Q p event)
    {p : Processor} {events : List Event} (h : Throughout P p events) :
    Throughout Q p events := by
  induction events generalizing p with
  | nil => trivial
  | cons event later ih => exact ⟨hPQ p event h.1, ih h.2⟩

end PlayStation.Processor
