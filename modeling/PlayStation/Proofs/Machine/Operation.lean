import PlayStation.Machine.Basic
import PlayStation.Proofs.Graphics.Reachable
import PlayStation.Proofs.Processor.RelatedBuses
import PlayStation.Proofs.Processor.Run

/-!
# What can be done to a machine

The operations on a machine from outside, with their answers (`Machine.perform`):
loading, running, accesses to the bus, changes of the processor, and all that can be
done to the drawing unit.  None of them changes the size of a memory or a policy
(`Machine.Built`).
-/

namespace PlayStation

namespace Machine

/-- An operation on a machine. -/
inductive Operation where
  | loadProgram (image : Array UInt8) (address : UInt32)
  | loadFirmware (path : String) (contents : Option (Array UInt8))
  | step
  | run (ticks : Nat)
  | setPc (pc : UInt32)
  | reset
  /-- Copies an image to a physical address of main memory. -/
  | loadImage (address : UInt32) (image : Array UInt8)
  | read (width : Width) (address : UInt32)
  | write (width : Width) (address value : UInt32)
  | resetBoard
  | processor (change : Processor.Change)
  | graphics (operation : Graphics.Operation)

/-- What an operation returns. -/
inductive Answer where
  | done
  | failed (e : Error)
  | cycles (count : Nat)
  | value (result : Except AccessError UInt32)
  | written (result : Except AccessError Unit)
  | tooLarge (e : ImageTooLarge)
  | graphics (answer : Graphics.Answer)

/-- Carries out an operation.  One that fails leaves the machine as it is. -/
def perform (m : Machine) : Operation → Answer × Machine
  | .loadProgram image address =>
      match m.loadProgram image address with
      | .ok m => (.done, m)
      | .error e => (.failed e, m)
  | .loadFirmware path contents =>
      match m.loadFirmware path contents with
      | .ok m => (.done, m)
      | .error e => (.failed e, m)
  | .step => (.cycles (m.step.clock.cycles - m.clock.cycles), m.step)
  | .run ticks => (.cycles ((m.run ticks).clock.cycles - m.clock.cycles), m.run ticks)
  | .setPc pc => (.done, m.setPc pc)
  | .reset => (.done, m.reset)
  | .loadImage address image =>
      match m.board.loadImage address image with
      | .ok board => (.done, { m with board })
      | .error e => (.tooLarge e, m)
  | .read width address =>
      (.value (m.board.read width address).1, { m with board := (m.board.read width address).2 })
  | .write width address value =>
      (.written (m.board.write width address value).1,
        { m with board := (m.board.write width address value).2 })
  | .resetBoard => (.done, { m with board := m.board.reset })
  | .processor change => (.done, { m with processor := m.processor.change change })
  | .graphics operation =>
      (.graphics (m.board.graphics.perform operation).1,
        { m with
          board := { m.board with graphics := (m.board.graphics.perform operation).2 } })

end Machine

/-! ## Sizes and policies stay -/

/-- A store does not change how large a chip is. -/
theorem Memory.size_write (m : Memory) (width : Width) (offset value : UInt32) :
    (m.write width offset value).2.size = m.size := by
  unfold write
  split
  · exact size_store _ _ _ _
  · rfl

/-- A loop each of whose rounds keeps the size keeps it. -/
theorem size_fold {count : Nat} {f : (i : Nat) → i < count → Array UInt8 → Array UInt8}
    (hf : ∀ i h bytes, (f i h bytes).size = bytes.size) (bytes : Array UInt8) :
    (count.fold f bytes).size = bytes.size := by
  induction count with
  | zero => rfl
  | succ count ih => rw [Nat.fold_succ, hf, ih fun i h bytes => hf i (by omega) bytes]

/-- Copying an image into a chip does not change how large it is. -/
theorem Memory.size_loadImage {m m' : Memory} {address : UInt32} {image : Array UInt8}
    (h : m.loadImage address image = .ok m') : m'.size = m.size := by
  unfold loadImage at h
  split at h
  · cases h
    exact size_fold (fun i h bytes => Array.size_setIfInBounds) m.bytes
  · cases h

/-- A board whose memories have the usual sizes, and whose drawing unit has the
policy it was built with. -/
structure Board.Built (policy : UnhandledCommand) (b : Board) : Prop where
  ram : b.ram.size = ramSize
  scratchpad : b.scratchpad.size = scratchpadSize
  graphics : b.graphics.Settled policy

namespace Board

variable {policy : UnhandledCommand} {b : Board}

/-- A load keeps the board built, even one that a port answers. -/
theorem Built.read (h : b.Built policy) (width : Width) (address : UInt32) :
    (b.read width address).2.Built policy := by
  unfold Board.read
  split
  case h_4 =>
    exact ⟨h.ram, h.scratchpad, h.graphics.congr (Graphics.read_sameCommand _ _)⟩
  all_goals exact h

/-- A store keeps the board built, whatever the port that it reaches does. -/
theorem Built.write (h : b.Built policy) (width : Width) (address value : UInt32) :
    (b.write width address value).2.Built policy := by
  unfold Board.write
  split
  case h_1 => exact ⟨(Memory.size_write _ _ _ _).trans h.ram, h.scratchpad, h.graphics⟩
  case h_2 => exact ⟨h.ram, (Memory.size_write _ _ _ _).trans h.scratchpad, h.graphics⟩
  case h_3 =>
    split
    · exact ⟨h.ram, h.scratchpad, h.graphics.write _ _⟩
    · exact h
  all_goals exact h

/-- A reset clears the chips without changing how large they are, and keeps the policy. -/
theorem Built.reset (h : b.Built policy) : b.reset.Built policy where
  ram := (Memory.size_blank _).trans h.ram
  scratchpad := (Memory.size_blank _).trans h.scratchpad
  graphics := h.graphics.perform .reset

/-- Copying an image into main memory keeps the board built. -/
theorem Built.loadImage {b' : Board} (h : b.Built policy) {address : UInt32} {image : Array UInt8}
    (hload : b.loadImage address image = .ok b') : b'.Built policy := by
  unfold Board.loadImage at hload
  rcases hram : b.ram.loadImage address image with e | ram
  · rw [hram] at hload
    cases hload
  · rw [hram] at hload
    cases hload
    exact ⟨(Memory.size_loadImage hram).trans h.ram, h.scratchpad, h.graphics⟩

/-- Exchanging the firmware keeps the board built, since only an image of the right size is
taken. -/
theorem Built.loadFirmware {b' : Board} (h : b.Built policy) {image : Array UInt8}
    (hload : b.loadFirmware image = .ok b') : b'.Built policy := by
  unfold Board.loadFirmware at hload
  split at hload
  · cases hload
    exact ⟨h.ram, h.scratchpad, h.graphics⟩
  · cases hload

end Board

namespace Machine

variable {policies : Policies} {m : Machine}

/-- A machine with the sizes and the policies that it was built with. -/
structure Built (policies : Policies) (m : Machine) : Prop where
  processor : m.processor.unknownOpcode = policies.unknownOpcode
  board : m.board.Built policies.unhandledCommand

/-- Loading a program keeps the machine built. -/
theorem Built.loadProgram {m' : Machine} (h : m.Built policies) {image : Array UInt8}
    {address : UInt32} (hload : m.loadProgram image address = .ok m') : m'.Built policies := by
  unfold Machine.loadProgram at hload
  dsimp only at hload
  split at hload
  · cases hload
  · split at hload
    · rename_i hboard
      cases hload
      exact ⟨h.processor, h.board.loadImage hboard⟩
    · cases hload

/-- Loading firmware keeps the machine built. -/
theorem Built.loadFirmware {m' : Machine} (h : m.Built policies) {path : String}
    {contents : Option (Array UInt8)} (hload : m.loadFirmware path contents = .ok m') :
    m'.Built policies := by
  unfold Machine.loadFirmware at hload
  split at hload
  · cases hload
  · rename_i image
    rcases hboard : m.board.loadFirmware image with e | board
    · rw [hboard] at hload
      cases hload
    · rw [hboard] at hload
      cases hload
      exact ⟨h.processor, h.board.loadFirmware hboard⟩

/-- A tick keeps the machine built. -/
theorem Built.step (h : m.Built policies) : m.step.Built policies where
  processor := (Processor.tick_unknownOpcode _ _).trans h.processor
  board := Processor.tick_keeps (fun h width address => h.read width address)
    (fun h width address value => h.write width address value) h.board m.processor

/-- Any number of ticks does. -/
theorem Built.run (h : m.Built policies) (ticks : Nat) : (m.run ticks).Built policies := by
  induction ticks generalizing m with
  | zero => exact h
  | succ ticks ih => exact ih h.step

/-- **One operation.** -/
theorem Built.perform (h : m.Built policies) (operation : Operation) :
    (m.perform operation).2.Built policies := by
  cases operation with
  | loadProgram image address =>
      dsimp only [Machine.perform]
      split
      · rename_i hload
        exact h.loadProgram hload
      · exact h
  | loadFirmware path contents =>
      dsimp only [Machine.perform]
      split
      · rename_i hload
        exact h.loadFirmware hload
      · exact h
  | step => exact h.step
  | run ticks => exact h.run ticks
  | setPc pc => exact ⟨h.processor, h.board⟩
  | reset => exact ⟨h.processor, h.board.reset⟩
  | loadImage address image =>
      dsimp only [Machine.perform]
      split
      · rename_i hload
        exact ⟨h.processor, h.board.loadImage hload⟩
      · exact h
  | read width address => exact ⟨h.processor, h.board.read width address⟩
  | write width address value => exact ⟨h.processor, h.board.write width address value⟩
  | resetBoard => exact ⟨h.processor, h.board.reset⟩
  | processor change =>
      exact ⟨(Processor.change_unknownOpcode _ _).trans h.processor, h.board⟩
  | graphics operation =>
      exact ⟨h.processor, h.board.ram, h.board.scratchpad, h.board.graphics.perform operation⟩

/-- A machine is built when it is switched on. -/
theorem built_initial (policies : Policies) : (initial policies).Built policies where
  processor := rfl
  board :=
    { ram := Memory.size_blank _
      scratchpad := Memory.size_blank _
      graphics := Graphics.Reachable.initial.settled }

/-- What a sequence of operations leaves. -/
def performAll (m : Machine) (operations : List Operation) : Machine :=
  operations.foldl (fun m operation => (m.perform operation).2) m

/-- **A sequence of operations** leaves a machine as it was built. -/
theorem Built.performAll (h : m.Built policies) (operations : List Operation) :
    (m.performAll operations).Built policies := by
  induction operations generalizing m with
  | nil => exact h
  | cons operation later ih => exact ih (h.perform operation)

end Machine
end PlayStation
