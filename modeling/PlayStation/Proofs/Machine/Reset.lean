import PlayStation.Proofs.Graphics.Requeued
import PlayStation.Proofs.Machine.Operation

/-!
# A reset is a new machine

After a reset a machine goes on like a new one that holds the same firmware, the
same pixels and the same value for reads of the drawing port to repeat
(`reset_restores`).  That value is the one thing that a reset keeps although
nothing that is left of the old machine explains it: a new machine reads 0 there
(`reset_keeps_latch`).

The two machines are not equal: the words that were once queued still lie in the
ring of the reset queue.  They are the same but for that (`Machine.Requeued`), and
no operation can tell such machines apart (`Requeued.perform`).
-/

namespace PlayStation

/-! ## Boards and machines that differ in where queued words lie -/

/-- The same board but for where the words of the drawing unit's queue lie. -/
inductive Board.Requeued (b : Board) : Board → Prop
  | mk (graphics : Graphics) (h : b.graphics.Requeued graphics) : Requeued b { b with graphics }

namespace Board

variable {b b' : Board}

/-- Requeued boards answer a load alike and stay requeued. -/
theorem Requeued.read (h : b.Requeued b') (width : Width) (address : UInt32) :
    (b.read width address).1 = (b'.read width address).1 ∧
      (b.read width address).2.Requeued (b'.read width address).2 := by
  cases h with
  | mk graphics h =>
      unfold Board.read
      split
      case h_4 =>
        obtain ⟨hword, hafter⟩ := h.read (graphicsOffset address &&& ~~~3)
        unfold readGraphics
        dsimp only
        rw [hword]
        exact ⟨rfl, _, hafter⟩
      all_goals exact ⟨rfl, _, h⟩

/-- They answer a store alike and stay requeued. -/
theorem Requeued.write (h : b.Requeued b') (width : Width) (address value : UInt32) :
    (b.write width address value).1 = (b'.write width address value).1 ∧
      (b.write width address value).2.Requeued (b'.write width address value).2 := by
  cases h with
  | mk graphics h =>
      unfold Board.write
      split
      case h_3 =>
        split
        · exact ⟨rfl, _, h.write (graphicsOffset address) value⟩
        · exact ⟨rfl, _, h⟩
      all_goals exact ⟨rfl, _, h⟩

/-- They stay requeued when they are reset. -/
theorem Requeued.reset (h : b.Requeued b') : b.reset.Requeued b'.reset := by
  cases h with
  | mk graphics h => exact ⟨_, (h.perform .reset).2⟩

/-- As buses they cannot be told apart. -/
theorem requeued_respected : Bus.Respects Requeued where
  read h width address := .of_eq (h.read width address).1 (h.read width address).2
  write h width address value :=
    .of_eq (h.write width address value).1 (h.write width address value).2

end Board

/-- A read tells new drawing units with different latches apart. -/
theorem Graphics.latch_of_trace_eq {policy : UnhandledCommand} {vram : Vram}
    {latch latch' : UInt32}
    (h : trace Graphics.perform Graphics.shown ((Graphics.initial policy).holding vram latch)
        [.read 0] =
      trace Graphics.perform Graphics.shown ((Graphics.initial policy).holding vram latch')
        [.read 0]) : latch = latch' := by
  have hanswers : [Graphics.Answer.word latch] = [Graphics.Answer.word latch'] :=
    congrArg (List.map Prod.fst) h
  cases hanswers
  rfl

namespace Machine

/-- The same machine but for where the words of the drawing unit's queue lie. -/
inductive Requeued (m : Machine) : Machine → Prop
  | mk (board : Board) (h : m.board.Requeued board) : Requeued m { m with board }

variable {m m' : Machine}

/-- Requeued machines count the same cycles. -/
theorem Requeued.clock_eq (h : m.Requeued m') : m'.clock = m.clock := by
  cases h with
  | mk board h => rfl

/-- They stay requeued over a tick. -/
theorem Requeued.step (h : m.Requeued m') : m.step.Requeued m'.step := by
  cases h with
  | mk board h =>
      obtain ⟨hcycles, hprocessor, hboard⟩ :=
        Processor.tick_alike Board.requeued_respected h m.processor
      unfold Machine.step
      dsimp only
      rw [← hcycles, ← hprocessor]
      exact ⟨_, hboard⟩

/-- They stay requeued over any number of ticks. -/
theorem Requeued.run (h : m.Requeued m') (ticks : Nat) : (m.run ticks).Requeued (m'.run ticks) := by
  induction ticks generalizing m m' with
  | zero => exact h
  | succ ticks ih => exact ih h.step

/-- They take an image or refuse it alike. -/
theorem Requeued.loadImage (h : m.Requeued m') (address : UInt32) (image : Array UInt8) :
    (m.perform (.loadImage address image)).1 = (m'.perform (.loadImage address image)).1 ∧
      (m.perform (.loadImage address image)).2.Requeued
        (m'.perform (.loadImage address image)).2 := by
  cases h with
  | mk board h =>
      cases h with
      | mk graphics h =>
          dsimp only [Machine.perform, Board.loadImage]
          rcases m.board.ram.loadImage address image with e | ram <;> exact ⟨rfl, _, _, h⟩

/-- They take a program or refuse it alike. -/
theorem Requeued.loadProgram (h : m.Requeued m') (image : Array UInt8) (address : UInt32) :
    (m.perform (.loadProgram image address)).1 = (m'.perform (.loadProgram image address)).1 ∧
      (m.perform (.loadProgram image address)).2.Requeued
        (m'.perform (.loadProgram image address)).2 := by
  cases h with
  | mk board h =>
      cases h with
      | mk graphics h =>
          dsimp only [Machine.perform, Machine.loadProgram, Board.loadImage]
          by_cases houtside : Board.ramSize ≤ (physicalAddress address).toNat
          · rw [if_pos houtside, if_pos houtside]
            exact ⟨rfl, _, _, h⟩
          · rw [if_neg houtside, if_neg houtside]
            rcases m.board.ram.loadImage (physicalAddress address) image with e | ram <;>
              exact ⟨rfl, _, _, h⟩

/-- They take firmware or refuse it alike. -/
theorem Requeued.loadFirmware (h : m.Requeued m') (path : String)
    (contents : Option (Array UInt8)) :
    (m.perform (.loadFirmware path contents)).1 = (m'.perform (.loadFirmware path contents)).1 ∧
      (m.perform (.loadFirmware path contents)).2.Requeued
        (m'.perform (.loadFirmware path contents)).2 := by
  cases h with
  | mk board h =>
      cases h with
      | mk graphics h =>
          cases contents with
          | none => exact ⟨rfl, _, _, h⟩
          | some image =>
              dsimp only [Machine.perform, Machine.loadFirmware, Board.loadFirmware]
              by_cases hsize : image.size = Board.firmwareSize
              · rw [if_pos hsize, if_pos hsize]
                exact ⟨rfl, _, _, h⟩
              · rw [if_neg hsize, if_neg hsize]
                exact ⟨rfl, _, _, h⟩

/-- **No operation tells such machines apart.** -/
theorem Requeued.perform (h : m.Requeued m') (operation : Operation) :
    (m.perform operation).1 = (m'.perform operation).1 ∧
      (m.perform operation).2.Requeued (m'.perform operation).2 := by
  have hclock := h.clock_eq
  cases operation with
  | step =>
      have hafter := h.step
      refine ⟨?_, hafter⟩
      dsimp only [Machine.perform]
      rw [hafter.clock_eq, hclock]
  | run ticks =>
      have hafter := h.run ticks
      refine ⟨?_, hafter⟩
      dsimp only [Machine.perform]
      rw [hafter.clock_eq, hclock]
  | loadProgram image address => exact h.loadProgram image address
  | loadFirmware path contents => exact h.loadFirmware path contents
  | loadImage address image => exact h.loadImage address image
  | setPc pc =>
      cases h with
      | mk board h => exact ⟨rfl, _, h⟩
  | reset =>
      cases h with
      | mk board h => exact ⟨rfl, _, h.reset⟩
  | read width address =>
      cases h with
      | mk board h =>
          obtain ⟨hvalue, hafter⟩ := h.read width address
          exact ⟨congrArg Answer.value hvalue, _, hafter⟩
  | write width address value =>
      cases h with
      | mk board h =>
          obtain ⟨hresult, hafter⟩ := h.write width address value
          exact ⟨congrArg Answer.written hresult, _, hafter⟩
  | resetBoard =>
      cases h with
      | mk board h => exact ⟨rfl, _, h.reset⟩
  | processor change =>
      cases h with
      | mk board h => exact ⟨rfl, _, h⟩
  | graphics operation =>
      cases h with
      | mk board h =>
          cases h with
          | mk graphics h =>
              obtain ⟨hanswer, hafter⟩ := h.perform operation
              exact ⟨congrArg Answer.graphics hanswer, _, _, hafter⟩

/-- What a machine shows: everything but where the words of the drawing unit's
queue lie. -/
def shown (m : Machine) : Machine × List UInt32 :=
  ({ m with board := { m.board with graphics := m.board.graphics.shown.1 } },
    m.board.graphics.shown.2)

/-- Nothing that can be read of them tells them apart. -/
theorem Requeued.shown_eq (h : m.Requeued m') : m.shown = m'.shown := by
  cases h with
  | mk board h =>
      cases h with
      | mk graphics h => rw [shown, shown, h.shown_eq]

/-! ## Resetting -/

/-- The machine with other firmware, other pixels, and another value for reads of the
drawing port to repeat. -/
def holding (m : Machine) (firmware : Memory) (vram : Vram) (latch : UInt32) : Machine :=
  { m with
    board := { m.board with firmware, graphics := m.board.graphics.holding vram latch } }

/-- A reset gives a new machine, but for the slots of the queue. -/
theorem Built.requeued_reset {policies : Policies} (h : m.Built policies) :
    m.reset.Requeued ((initial policies).holding m.board.firmware m.board.graphics.vram
      m.board.graphics.latch) := by
  have hgraphics := m.board.graphics.requeued_reset
  rw [h.board.graphics.policy] at hgraphics
  have hreset : m.reset =
      { initial policies with
        board := { (initial policies).board with
          firmware := m.board.firmware
          graphics := m.board.graphics.reset } } := by
    unfold Machine.reset Processor.reset Board.reset Memory.clear
    rw [h.processor, h.board.ram, h.board.scratchpad]
    rfl
  rw [hreset]
  exact ⟨_, _, hgraphics⟩

/-- A read of the drawing port tells new machines with different latches apart. -/
theorem latch_of_trace_eq {policies : Policies} {firmware : Memory} {vram : Vram}
    {latch latch' : UInt32}
    (h : trace Machine.perform shown ((initial policies).holding firmware vram latch)
        [.graphics (.read 0)] =
      trace Machine.perform shown ((initial policies).holding firmware vram latch')
        [.graphics (.read 0)]) : latch = latch' := by
  have hanswers : [Answer.graphics (.word latch)] = [Answer.graphics (.word latch')] :=
    congrArg (List.map Prod.fst) h
  cases hanswers
  rfl

/-- **A reset restores the power-on state**, except for the value that reads of the
drawing port repeat.  Whatever was done before:

* a machine that has been reset shows the same, for ever, as a new machine that holds
  its firmware, its pixels and that value; so it goes on like a new machine that holds
  its firmware and its pixels exactly if the value was 0;
* the same is true of a drawing unit, whether it is reset from outside or by a control
  word, compared with a new one of its policy. -/
theorem reset_restores (policies : Policies) (before : List Operation)
    (policy : UnhandledCommand) (before' : List Graphics.Operation) (parameter : UInt32) :
    let m := (initial policies).performAll before
    let new := (initial policies).holding m.board.firmware m.board.graphics.vram
    let g := (Graphics.initial policy).performAll before'
    let new' := (Graphics.initial policy).holding g.vram
    (m.reset.shown = (new m.board.graphics.latch).shown ∧
      (∀ later, trace Machine.perform shown m.reset later =
        trace Machine.perform shown (new m.board.graphics.latch) later) ∧
      ((∀ later, trace Machine.perform shown m.reset later =
        trace Machine.perform shown (new 0) later) ↔ m.board.graphics.latch = 0)) ∧
    g.writeControl (parameter &&& 0x00FFFFFF) = g.reset ∧
      g.reset.shown = (new' g.latch).shown ∧
      (∀ later, trace Graphics.perform Graphics.shown g.reset later =
        trace Graphics.perform Graphics.shown (new' g.latch) later) ∧
      ((∀ later, trace Graphics.perform Graphics.shown g.reset later =
        trace Graphics.perform Graphics.shown (new' 0) later) ↔ g.latch = 0) := by
  intro m new g new'
  refine ⟨?_, g.writeControl_reset parameter, ?_⟩
  · have hbuilt : m.Built policies := (built_initial policies).performAll before
    have hnew : m.reset.Requeued (new m.board.graphics.latch) := hbuilt.requeued_reset
    have htrace (later : List Operation) :=
      trace_congr (fun h operation => h.perform operation) (fun h => h.shown_eq) hnew later
    refine ⟨hnew.shown_eq, htrace, fun hzero => ?_, fun hlatch => hlatch ▸ htrace⟩
    exact latch_of_trace_eq ((htrace _).symm.trans (hzero _))
  · have hpolicy : g.unhandledCommand = policy :=
      (Graphics.Reachable.initial.performAll before').settled.policy
    have hnew : g.reset.Requeued (new' g.latch) := by
      have hreset := g.requeued_reset
      rw [hpolicy] at hreset
      exact hreset
    have htrace (later : List Graphics.Operation) :=
      trace_congr (fun h operation => h.perform operation) (fun h => h.shown_eq) hnew later
    refine ⟨hnew.shown_eq, htrace, fun hzero => ?_, fun hlatch => hlatch ▸ htrace⟩
    exact Graphics.latch_of_trace_eq ((htrace _).symm.trans (hzero _))

/-- The value that reads repeat outlives a reset: a query for the unit's version
leaves 2 there, and a new machine with the same firmware and the same pixels reads 0. -/
theorem reset_keeps_latch :
    ¬ ∀ (policies : Policies) (before later : List Operation),
      let m := (initial policies).performAll before
      let new := (initial policies).holding m.board.firmware m.board.graphics.vram 0
      trace Machine.perform shown m.reset later = trace Machine.perform shown new later := by
  intro hrestores
  have hsame := hrestores {} [.graphics (.write 4 0x10000007)] [.graphics (.read 0)]
  have hidle : Graphics.Awaits (.initial .drop) [] := .idle rfl rfl rfl
  have hquery : (Graphics.initial .drop).writeControl 0x10000007 =
      { Graphics.initial .drop with latch := 2 } := (hidle.writeControl 0x10000007).1
  have hanswers := congrArg (List.map Prod.fst) hsame
  have hread : [Answer.graphics (.word ((Graphics.initial .drop).writeControl 0x10000007).latch)] =
      [Answer.graphics (.word 0)] := hanswers
  rw [hquery] at hread
  cases hread

end Machine
end PlayStation
