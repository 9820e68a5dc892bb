import PlayStation.Proofs.Graphics.CommandGrammar

/-!
# The stream of command words

What the words written to the two ports mean, said without the queue, the
progress counters and the upload cursor that carry it out.  A `Stream` is the
state of reading such words one by one: the pieces read so far, the words of the
command in progress, and the drawing unit as the words have left it.

The reading loses nothing and reads nothing twice: the finished commands, what
resets cut off, and the pending words are together the words that were written
(`Stream.WellFormed`).
-/

namespace PlayStation

/-- A word written to one of the two ports. -/
inductive PortWrite where
  | drawing (word : UInt32)
  | control (word : UInt32)
  deriving DecidableEq, Repr

/-- The word of a write to the drawing port. -/
def PortWrite.drawing? : PortWrite → Option UInt32
  | drawing word => some word
  | control _ => none

/-! ## What a word does when it arrives -/

/-- Puts the `n`-th pixel of a rectangle, counted row by row, where it belongs.  A
pixel behind the last one is dropped. -/
def Vram.putPixel (v : Vram) (t : Transfer) (n : Nat) (pixel : UInt16) : Vram :=
  if n < t.pixelCount then
    v.set ((t.x + n % t.width) % 1024) ((t.y + n / t.width) % 512) pixel
  else v

namespace Graphics

/-- Puts the two pixels of the `k`-th pixel word of an upload. -/
def putData (g : Graphics) (t : Transfer) (k : Nat) (word : UInt32) : Graphics :=
  { g with
    vram := (g.vram.putPixel t (2 * k) word.toUInt16).putPixel t (2 * k + 1)
      (word >>> 16).toUInt16 }

/-- Carries out a command other than an upload. -/
def carryOut (g : Graphics) (words : List UInt32) : Command → Graphics
  | .polygon form => g.drawPolygon form words
  | .download => { g with readback := some (.ofWords (words.getD 1 0) (words.getD 2 0)) }
  | .setting => g.applySetting (words.headD 0)
  | _ => g

/-- **The table of words that need no queue agrees with the table of commands.**  A word that
takes effect at once does what it would do as a command. -/
theorem immediate?_eq (g : Graphics) (word : UInt32) :
    g.immediate? word = if IsImmediate (opcodeOf word) then
      some (g.carryOut [word] (.ofOpcode (opcodeOf word))) else none := by
  -- What both tables have as a setting is in the same place of each.
  have hsetting {setting : Nat} (hopcode : (word >>> 24).toNat = setting)
      (hlisted : setting = 0xE1 ∨ setting = 0xE3 ∨ setting = 0xE4 ∨ setting = 0xE5) :
      (if IsImmediate (opcodeOf word) then
        some (g.carryOut [word] (.ofOpcode (opcodeOf word))) else none) =
        some (g.applySetting word) := by
    rw [toNat_opcode] at hopcode
    have hbyte : opcodeOf word = 0xE1 ∨ opcodeOf word = 0xE3 ∨ opcodeOf word = 0xE4 ∨
        opcodeOf word = 0xE5 := by
      simp only [← UInt8.toNat_inj, hopcode]
      exact hlisted
    have hkind : IsImmediate (opcodeOf word) ∧ Command.ofOpcode (opcodeOf word) = .setting := by
      rcases hbyte with h | h | h | h <;> rw [h] <;> decide
    rw [if_pos hkind.1, hkind.2]
    rfl
  unfold immediate?
  split
  case h_5 hmode htopLeft hbottomRight hoffset =>
    rw [toNat_opcode] at *
    by_cases hnone : Command.ofOpcode (opcodeOf word) = .noOperation
    · rw [if_pos ((ofOpcode_eq_noOperation_iff _).mp hnone),
        if_pos ((isImmediate_iff _).mpr (.inl hnone)), hnone]
      rfl
    · have hqueued : ¬ IsImmediate (opcodeOf word) := by
        simp only [isImmediate_iff, not_or]
        exact ⟨hnone, hmode, htopLeft, hbottomRight, hoffset⟩
      rw [if_neg (mt (ofOpcode_eq_noOperation_iff _).mpr hnone), if_neg hqueued]
  all_goals
    rename_i hopcode
    rw [hsetting hopcode (by decide), applySetting, hopcode]
    rfl

/-- What takes effect at once is a setting or nothing. -/
theorem cases_of_immediate? {g after : Graphics} {word : UInt32}
    (h : g.immediate? word = some after) :
    (Command.ofOpcode (opcodeOf word) = .setting ∧ after = g.applySetting word) ∨
      Command.ofOpcode (opcodeOf word) = .noOperation ∧ after = g := by
  rw [immediate?_eq] at h
  split at h
  · rename_i hnow
    obtain rfl := Option.some.inj h
    refine (ofOpcode_of_isImmediate _ hnow).imp (fun hsetting => ⟨hsetting, ?_⟩)
      fun hnone => ⟨hnone, ?_⟩
    · rw [hsetting]
      rfl
    · rw [hnone]
      rfl
  · cases h

/-- What the word that follows the pending ones does: the pixel words of an upload
are put one by one, and every other command waits for its last word. -/
def arrive (g : Graphics) (pending : List UInt32) (word : UInt32) : Graphics :=
  let words := pending ++ [word]
  match Command.ofOpcode (opcodeOf (words.headD 0)) with
  | .upload =>
      match pending with
      | _ :: position :: size :: data => g.putData (.ofWords position size) data.length word
      | _ => g
  | command => if isComplete words then g.carryOut words command else g

/-- The drawing unit without what it keeps of a command in progress. -/
def atRest (g : Graphics) : Graphics :=
  { g with queue := .empty, progress := {}, upload := none }

/-- A write to one of the two ports. -/
def receive (g : Graphics) : PortWrite → Graphics
  | .drawing word => g.writeDrawing word
  | .control word => g.writeControl word

end Graphics

/-! ## Reading the stream -/

/-- A piece of the words of the drawing port. -/
inductive Frame where
  /-- A whole command. -/
  | command (words : List UInt32)
  /-- The words that a reset cut off. -/
  | abandoned (words : List UInt32)
  deriving DecidableEq, Repr

/-- The words of a piece. -/
def Frame.words : Frame → List UInt32
  | command words | abandoned words => words

/-- Pieces that are what they say. -/
def Frame.WellFormed : Frame → Prop
  | command words => IsCommand words
  | abandoned words => isComplete words = false

/-- Whether a control word resets the command in progress. -/
def abandons (word : UInt32) : Bool :=
  (word >>> 24).toNat == 0x00 || (word >>> 24).toNat == 0x01

/-- The state of reading: the drawing unit, the pieces read so far, and the words
of the command in progress. -/
structure Stream where
  unit : Graphics
  frames : List Frame
  pending : List UInt32

namespace Stream

/-- Before the first word. -/
def initial : Stream :=
  ⟨.initial .drop, [], []⟩

/-- Reads a word of the drawing port. -/
def drawing (s : Stream) (word : UInt32) : Stream :=
  let words := s.pending ++ [word]
  let unit := s.unit.arrive s.pending word
  if isComplete words then ⟨unit, s.frames ++ [.command words], []⟩
  else ⟨unit, s.frames, words⟩

/-- Reads a word of the control port. -/
def control (s : Stream) (word : UInt32) : Stream :=
  let unit := (s.unit.control word).atRest
  if abandons word then ⟨unit, s.frames ++ [.abandoned s.pending], []⟩
  else { s with unit }

/-- Reads a word of either port. -/
def receive (s : Stream) : PortWrite → Stream
  | .drawing word => s.drawing word
  | .control word => s.control word

/-- The pieces and the pending words are the words that were written, cut where
commands end. -/
structure WellFormed (s : Stream) (words : List UInt32) : Prop where
  words : s.frames.flatMap Frame.words ++ s.pending = words
  frames : ∀ frame ∈ s.frames, frame.WellFormed
  pending : isComplete s.pending = false

/-- A word of the drawing port goes on with a stream of commands or begins a new one. -/
theorem wellFormed_drawing {s : Stream} {words : List UInt32} (h : s.WellFormed words)
    (word : UInt32) : (s.drawing word).WellFormed (words ++ [word]) := by
  unfold drawing
  by_cases hcomplete : isComplete (s.pending ++ [word])
  · rw [if_pos hcomplete]
    refine ⟨?_, ?_, rfl⟩
    · simp only [List.flatMap_append, List.flatMap_cons, List.flatMap_nil, Frame.words,
        List.append_nil, ← h.words, List.append_assoc]
    · intro frame hframe
      rcases List.mem_append.mp hframe with hold | hnew
      · exact h.frames frame hold
      · rw [List.mem_singleton.mp hnew]
        refine ⟨hcomplete, ?_⟩
        rw [List.dropLast_concat]
        exact h.pending
  · rw [if_neg hcomplete]
    refine ⟨?_, h.frames, Bool.eq_false_iff.mpr hcomplete⟩
    dsimp only
    rw [← List.append_assoc, h.words]

/-- A control word leaves the stream, or cuts it off where it is. -/
theorem wellFormed_control {s : Stream} {words : List UInt32} (h : s.WellFormed words)
    (word : UInt32) : (s.control word).WellFormed words := by
  unfold control
  by_cases habandons : abandons word
  · rw [if_pos habandons]
    refine ⟨?_, ?_, rfl⟩
    · simp only [List.flatMap_append, List.flatMap_cons, List.flatMap_nil, Frame.words,
        List.append_nil, h.words]
    · intro frame hframe
      rcases List.mem_append.mp hframe with hold | hnew
      · exact h.frames frame hold
      · rw [List.mem_singleton.mp hnew]
        exact h.pending
  · rw [if_neg habandons]
    exact ⟨h.words, h.frames, h.pending⟩

/-- **Reading cuts the words and loses none.** -/
theorem wellFormed_foldl {s : Stream} {words : List UInt32} (h : s.WellFormed words)
    (history : List PortWrite) :
    (history.foldl receive s).WellFormed (words ++ history.filterMap PortWrite.drawing?) := by
  induction history generalizing s words with
  | nil => simpa using h
  | cons write history ih =>
      cases write with
      | drawing word =>
          have hnext := ih (wellFormed_drawing h word)
          rw [List.append_assoc] at hnext
          exact hnext
      | control word => exact ih (wellFormed_control h word)

end Stream
end PlayStation
