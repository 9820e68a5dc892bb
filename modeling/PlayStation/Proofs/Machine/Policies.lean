import PlayStation.Memory
import PlayStation.Proofs.Graphics.UnhandledCommands
import PlayStation.Proofs.Processor.ControlChanges
import PlayStation.Proofs.Processor.UnknownWords

/-!
# Where the policies show

A machine is built with two policies, one for words that are no instructions and one for
drawing commands without a handler.  They show where they are for, and nowhere else.
-/

namespace PlayStation

/-- **The policies show only at what is unknown.**

* Take two processors that differ in the policy only, on the same bus and with the same
  clock, and let them tick under the same interrupt lines.  As long as they execute
  instructions only, they do the same, to the bus and the clock too.  In the first tick
  that executes a word which is no instruction, the one ignores it (`Processor.Ignores`)
  and the other takes a reserved instruction trap.
* Take two drawing units that differ in the policy only, with no command without a handler
  in progress.  As long as every opcode captured by the one has a handler, the other
  answers alike and is alike after each operation.
* Two reachable drawing units that differ in the policy only have no such command in
  progress. -/
theorem policies_show_only_at_unknown :
    (∀ {β : Type} [Bus β] (rig : Rig β) (signals : List Signal),
      (rig.withPolicy .ignore).ExecutesInstructions signals →
      let ignoring := (rig.withPolicy .ignore).performAll signals
      let trapping := (rig.withPolicy .reservedInstruction).performAll signals
      trapping = ignoring.withPolicy .reservedInstruction ∧
      ∀ word, ignoring.processor.executed? ignoring.bus = some word →
        ¬ Instruction.Encodes word →
        ignoring.processor.Ignores ignoring.bus word ∧
        trapping.processor.trap? trapping.bus = some (.plain .reservedInstruction) ∧
        (trapping.perform .tick).processor.control =
          trapping.processor.entered (.plain .reservedInstruction)) ∧
    (∀ (g : Graphics) (policy policy' : UnhandledCommand) (operations : List Graphics.Operation),
      g.Handled → (g.withPolicy policy).CapturesHandled operations →
      trace Graphics.perform (Graphics.withPolicy · policy) (g.withPolicy policy') operations =
        trace Graphics.perform (Graphics.withPolicy · policy) (g.withPolicy policy) operations) ∧
    ∀ g : Graphics, Graphics.Reachable .drop (g.withPolicy .drop) →
      Graphics.Reachable .stall (g.withPolicy .stall) → g.Handled := by
  refine ⟨fun {β} _ rig signals h => ?_, fun g policy policy' operations hg h => ?_,
    fun g => Graphics.handled_of_reachable⟩
  · intro ignoring trapping
    have hignoring : ignoring = ignoring.withPolicy .ignore := Rig.performAll_withPolicy h .ignore
    have htrapping : trapping = ignoring.withPolicy .reservedInstruction :=
      Rig.performAll_withPolicy h .reservedInstruction
    refine ⟨htrapping, fun word hexecuted hunknown => ?_⟩
    have hpolicy : ignoring.processor.unknownOpcode = .ignore := by rw [hignoring]; rfl
    have htrap : trapping.processor.trap? trapping.bus = some (.plain .reservedInstruction) := by
      rw [htrapping]
      exact Processor.trap?_of_unknown
        ((Processor.executed?_withPolicy _ _ _).trans hexecuted) hunknown rfl
    exact ⟨Processor.ignores_of_unknown hexecuted hunknown hpolicy, htrap,
      Processor.control_tick_of_trap htrap⟩
  · exact Graphics.trace_withPolicy policy' (g := g.withPolicy policy) hg h policy

/-- A processor that executes the word 0 and then a word that is no instruction, and a
drawing unit that is told a texture page and the first word of a triangle. -/
theorem policies_show_at_unused_opcode :
    let rig : Rig Memory :=
      ⟨(Processor.initial .ignore).setPc 0, ⟨#[0, 0, 0, 0, 0, 0, 0, 0xFC]⟩, {}⟩
    let ignoring := (rig.withPolicy .ignore).performAll [.tick]
    let trapping := (rig.withPolicy .reservedInstruction).performAll [.tick]
    let g := Graphics.initial .drop
    let operations : List Graphics.Operation := [.write 0 0xE1000005, .write 0 0x20000000]
    (rig.withPolicy .ignore).ExecutesInstructions [.tick] ∧
      ignoring.processor.executed? ignoring.bus = some 0xFC000000 ∧
      ¬ Instruction.Encodes 0xFC000000 ∧
      ignoring.processor.Ignores ignoring.bus 0xFC000000 ∧
      trapping.processor.trap? trapping.bus = some (.plain .reservedInstruction) ∧
      g.Handled ∧ (g.withPolicy .drop).CapturesHandled operations ∧
      trace Graphics.perform (Graphics.withPolicy · .drop) (g.withPolicy .stall) operations =
        trace Graphics.perform (Graphics.withPolicy · .drop) (g.withPolicy .drop) operations := by
  -- The triangle waits for its other words, so one opcode is captured.
  have hcaptured : (((Graphics.initial .drop).withPolicy .drop).perform
      (.write 0 0xE1000005)).2.capturedBy (.write 0 0x20000000) = [0x20] := by
    change Graphics.captured { (((Graphics.initial .drop).withPolicy .drop).perform
      (.write 0 0xE1000005)).2 with queue := WordQueue.empty.push 0x20000000 } = [0x20]
    rw [Graphics.captured]
    rfl
  intro rig ignoring trapping g operations
  have hinstructions : (rig.withPolicy .ignore).ExecutesInstructions [.tick] := by
    refine ⟨fun _ word h => ?_, trivial⟩
    have hexecuted : rig.processor.executed? rig.bus = some 0 := by decide
    obtain rfl : 0 = word := Option.some.inj (hexecuted.symm.trans h)
    decide
  have hexecuted : ignoring.processor.executed? ignoring.bus = some 0xFC000000 := by decide
  have hunknown : ¬ Instruction.Encodes 0xFC000000 := by decide
  have hhandled : g.Handled := by rintro _ ⟨⟩
  have hcaptures : (g.withPolicy .drop).CapturesHandled operations := by
    refine ⟨by rintro _ ⟨⟩, fun opcode h => ?_, trivial⟩
    rw [hcaptured, List.mem_singleton] at h
    rw [h]
    decide
  obtain ⟨hprocessors, hunits, -⟩ := policies_show_only_at_unknown
  obtain ⟨-, hunknownTick⟩ := hprocessors rig [.tick] hinstructions
  obtain ⟨hignores, htrap, -⟩ := hunknownTick 0xFC000000 hexecuted hunknown
  exact ⟨hinstructions, hexecuted, hunknown, hignores, htrap, hhandled, hcaptures,
    hunits g .drop .stall operations hhandled hcaptures⟩

end PlayStation
