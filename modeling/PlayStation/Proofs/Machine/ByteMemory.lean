import PlayStation.Proofs.Bits
import PlayStation.Proofs.Machine.Operation
import PlayStation.Proofs.Memory

/-!
# The board is a byte memory

Every physical address names one place (`Place.of`): a byte of a memory, a byte of the
drawing unit's ports, an unassigned port, or nothing.  What an access does follows from
the place alone (`Board.ReadsAs`, `Board.WritesAs`).

A byte of a memory changes only when an operation puts another one there
(`Board.Operation.stored?`).  So a read of memory sees, byte by byte, what was put there
last, through whichever of the mirrors of main memory (`byte_memory`).
-/

namespace PlayStation

/-- The memories on the board. -/
inductive Chip where
  | ram
  | scratchpad
  | firmware
  deriving DecidableEq, Repr

/-- Whether writes change the memory. -/
def Chip.writable : Chip → Bool
  | .firmware => false
  | _ => true

/-- What lies at a physical address. -/
inductive Place where
  | memory (chip : Chip) (offset : Nat)
  /-- A byte of the drawing unit's two ports, of four bytes each. -/
  | graphics (port : Nat)
  | ports
  | nothing
  deriving DecidableEq, Repr

/-- The place at a physical address.  Main memory appears four times over, and the
drawing unit lies among the ports. -/
def Place.of (address : UInt32) : Place :=
  let a := address.toNat
  if a < 0x00800000 then .memory .ram (a % 0x00200000)
  else if 0x1F800000 ≤ a ∧ a < 0x1F800400 then .memory .scratchpad (a - 0x1F800000)
  else if 0x1F801810 ≤ a ∧ a < 0x1F801818 then .graphics (a - 0x1F801810)
  else if 0x1F801000 ≤ a ∧ a < 0x1F803000 then .ports
  else if 0x1FC00000 ≤ a ∧ a < 0x1FC80000 then .memory .firmware (a - 0x1FC00000)
  else .nothing

/-- The region that a place belongs to. -/
def Place.region : Place → Region
  | .memory .ram _ => .ram
  | .memory .scratchpad _ => .scratchpad
  | .memory .firmware _ => .firmware
  | .graphics _ => .graphics
  | .ports => .ports
  | .nothing => .unmapped

/-- The region of an address is that of the place where it leads. -/
theorem Place.region_of (address : UInt32) : Region.of address = (Place.of address).region := by
  unfold Region.of Place.of
  simp only [UInt32.le_iff_toNat_le, UInt32.toNat_ofNat, apply_ite Place.region]
  repeat refine ite_congr (propext (by omega)) (fun _ => rfl) fun _ => ?_
  rfl

namespace Board

/-- The memory on a chip. -/
def memory (b : Board) : Chip → Memory
  | .ram => b.ram
  | .scratchpad => b.scratchpad
  | .firmware => b.firmware

/-- The board with another memory on a chip. -/
def setMemory (b : Board) (m : Memory) : Chip → Board
  | .ram => { b with ram := m }
  | .scratchpad => { b with scratchpad := m }
  | .firmware => { b with firmware := m }

/-- The word of the drawing unit that a byte of its ports belongs to. -/
def portWord (b : Board) (port : Nat) : UInt32 :=
  if port < 4 then b.graphics.readDrawing.1 else b.graphics.status

/-- The board after a read of the drawing unit: reads of the status leave it alone. -/
def afterPortRead (b : Board) (port : Nat) : Board :=
  if port < 4 then { b with graphics := b.graphics.readDrawing.2 } else b

/-- The board after a write to the drawing unit. -/
def afterPortWrite (b : Board) (port : Nat) (value : UInt32) : Board :=
  { b with graphics :=
      if port < 4 then b.graphics.writeDrawing value else b.graphics.writeControl value }

/-- What the read at an address gives and leaves. -/
structure ReadsAs (b : Board) (width : Width) (address : UInt32) : Prop where
  /-- Memory gives its bytes, the lowest first. -/
  memory : ∀ chip offset, Place.of address = .memory chip offset →
    offset + width.bytes ≤ (b.memory chip).size →
    ∃ value, b.read width address = (.ok value, b) ∧
      value.toNat = littleEndian (b.memory chip).byte offset width.bytes
  /-- Behind its end it reports the offset. -/
  pastEnd : ∀ chip offset, Place.of address = .memory chip offset →
    (b.memory chip).size < offset + width.bytes →
    ∃ e, b.read width address = (.error e, b) ∧ e.address.toNat = offset
  /-- The drawing unit gives the bytes of a word from the address on, and changes if the
  word is that of the drawing port. -/
  graphics : ∀ port, Place.of address = .graphics port →
    ∃ value, b.read width address = (.ok value, b.afterPortRead port) ∧
      value.toNat = littleEndian (digit (b.portWord port)) (port % 4) width.bytes
  ports : Place.of address = .ports → b.read width address = (.ok 0, b)
  nothing : Place.of address = .nothing → b.read width address = (.error ⟨address⟩, b)

/-- `after` is `b` with other bytes in its memories, where `stored` has one. -/
structure Stores (b : Board) (stored : Chip → Nat → Option UInt8) (after : Board) : Prop where
  byte : ∀ chip i, (after.memory chip).byte i = (stored chip i).getD ((b.memory chip).byte i)
  size : ∀ chip, chip.writable = true → (after.memory chip).size = (b.memory chip).size

/-- The bytes of a number of `count` bytes from `offset` on. -/
def storedAt (target : Chip) (offset count : Nat) (value : UInt32) (chip : Chip) (i : Nat) :
    Option UInt8 :=
  if chip = target ∧ offset ≤ i ∧ i < offset + count then some (digit value (i - offset))
  else none

/-- What the write at an address gives and leaves. -/
structure WritesAs (b : Board) (width : Width) (address value : UInt32) : Prop where
  /-- Memory takes the bytes of the value, the lowest first, and nothing else changes. -/
  memory : ∀ chip offset, Place.of address = .memory chip offset → chip.writable = true →
    offset + width.bytes ≤ (b.memory chip).size →
    ∃ after, b.write width address value = (.ok (), after) ∧
      b.Stores (storedAt chip offset width.bytes value) after ∧
      after.firmware = b.firmware ∧ after.graphics = b.graphics
  /-- Behind its end it reports the offset. -/
  pastEnd : ∀ chip offset, Place.of address = .memory chip offset → chip.writable = true →
    (b.memory chip).size < offset + width.bytes →
    ∃ e, b.write width address value = (.error e, b) ∧ e.address.toNat = offset
  firmware : ∀ offset, Place.of address = .memory .firmware offset →
    b.write width address value = (.ok (), b)
  /-- The drawing unit takes whole words only. -/
  graphics : ∀ port, Place.of address = .graphics port →
    b.write width address value =
      (.ok (), if width = .word then b.afterPortWrite port value else b)
  ports : Place.of address = .ports → b.write width address value = (.ok (), b)
  nothing : Place.of address = .nothing → b.write width address value = (.error ⟨address⟩, b)

/-! ## Accesses by their places -/

variable {address : UInt32} {chip : Chip} {offset port : Nat}

/-- The region of an address whose place is known. -/
theorem region_eq {place : Place} (h : Place.of address = place) :
    Region.of address = place.region :=
  (Place.region_of address).trans (congrArg Place.region h)

/-- The offset in a memory, as the board computes it. -/
theorem exists_offset (h : Place.of address = .memory chip offset) :
    ∃ offset', UInt32.toNat offset' = offset ∧
      (∀ (b : Board) (width : Width),
        b.read width address = ((b.memory chip).read width offset', b)) ∧
      (chip.writable = true → ∀ (b : Board) (width : Width) (value : UInt32),
        b.write width address value =
          (((b.memory chip).write width offset' value).1,
            b.setMemory ((b.memory chip).write width offset' value).2 chip)) := by
  have hregion := region_eq h
  unfold Place.of at h
  dsimp only at h
  split at h
  · cases h
    refine ⟨ramOffset address, ?_, fun b width => ?_, fun _ b width value => ?_⟩
    · exact Bits.toNat_and_low address 0x1FFFFF (n := 21) rfl
    · rw [read, hregion]
      rfl
    · rw [write, hregion]
      rfl
  split at h
  · rename_i hpad
    cases h
    refine ⟨scratchpadOffset address, ?_, fun b width => ?_, fun _ b width value => ?_⟩
    · exact UInt32.toNat_sub_of_le _ _ (UInt32.le_iff_toNat_le.mpr hpad.1)
    · rw [read, hregion]
      rfl
    · rw [write, hregion]
      rfl
  split at h
  · cases h
  split at h
  · cases h
  split at h
  · rename_i hfirmware
    cases h
    refine ⟨firmwareOffset address, ?_, fun b width => ?_, fun hwritable => ?_⟩
    · exact UInt32.toNat_sub_of_le _ _ (UInt32.le_iff_toNat_le.mpr hfirmware.1)
    · rw [read, hregion]
      rfl
    · cases hwritable
  · cases h

/-- The port of the drawing unit, as the board computes it. -/
theorem toNat_graphicsOffset (h : Place.of address = .graphics port) :
    (graphicsOffset address).toNat = port ∧ port < 8 := by
  unfold Place.of at h
  dsimp only at h
  split at h
  · cases h
  split at h
  · cases h
  split at h
  · rename_i hgraphics
    have hport := Place.graphics.inj h
    have hoffset : (graphicsOffset address).toNat = address.toNat - 0x1F801810 :=
      UInt32.toNat_sub_of_le _ _ (UInt32.le_iff_toNat_le.mpr hgraphics.1)
    omega
  split at h
  · cases h
  split at h <;> cases h

/-- What the drawing unit makes of an offset: bit 2 chooses the port, and the lower bits
the first byte of its word. -/
theorem portBits {offset : UInt32} (h : offset.toNat < 8) :
    (offset &&& 4 = 0 ↔ offset.toNat < 4) ∧ (offset &&& ~~~3 &&& 4 = 0 ↔ offset.toNat < 4) ∧
      ((offset &&& 3) * 8).toNat = 8 * (offset.toNat % 4) := by
  obtain ⟨n, rfl⟩ : ∃ n : Fin 8, offset = UInt32.ofNat n.val :=
    ⟨⟨offset.toNat, h⟩, UInt32.ofNat_toNat.symm⟩
  clear h
  revert n
  decide

/-- An access carries the lowest bytes of a word. -/
theorem toNat_truncate (width : Width) (value : UInt32) :
    (width.truncate value).toNat = value.toNat % 1 <<< (8 * width.bytes) := by
  cases width with
  | byte => exact Bits.toNat_and_low value 0xFF (n := 8) rfl
  | half => exact Bits.toNat_and_low value 0xFFFF (n := 16) rfl
  | word => exact (Nat.mod_eq_of_lt value.toNat_lt).symm

/-- A load from a port takes its bytes from the whole word of the port. -/
theorem readGraphics_eq (b : Board) (h : Place.of address = .graphics port) :
    b.readGraphics address =
      (b.portWord port >>> ((graphicsOffset address &&& 3) * 8), b.afterPortRead port) := by
  obtain ⟨rfl, hlt⟩ := toNat_graphicsOffset h
  have hbit := (portBits hlt).2.1
  unfold readGraphics Graphics.read portWord afterPortRead
  dsimp only
  by_cases hport : (graphicsOffset address).toNat < 4
  · rw [if_pos hport, if_pos hport, if_pos (hbit.mpr hport)]
  · rw [if_neg hport, if_neg hport, if_neg (mt hbit.mp hport)]

/-- **Reads.** -/
theorem readsAs (b : Board) (width : Width) (address : UInt32) : b.ReadsAs width address where
  memory := by
    intro chip offset hplace hfits
    obtain ⟨offset', rfl, hread, -⟩ := exists_offset hplace
    refine ⟨(b.memory chip).load offset'.toNat width.bytes, ?_, ?_⟩
    · rw [hread, Memory.read_eq, if_pos hfits]
    · exact Memory.toNat_load _ _ (by cases width <;> decide)
  pastEnd := by
    intro chip offset hplace hend
    obtain ⟨offset', rfl, hread, -⟩ := exists_offset hplace
    refine ⟨⟨offset'⟩, ?_, rfl⟩
    rw [hread, Memory.read_eq, if_neg (by omega)]
  graphics := by
    intro port hplace
    obtain ⟨hoffset, hlt⟩ := toNat_graphicsOffset hplace
    have hshift := (portBits (hoffset ▸ hlt)).2.2
    have hamount : 8 * (port % 4) % 32 = 8 * (port % 4) := Nat.mod_eq_of_lt (by omega)
    refine ⟨width.truncate (b.portWord port >>> ((graphicsOffset address &&& 3) * 8)), ?_, ?_⟩
    · rw [read, region_eq hplace]
      dsimp only [Place.region]
      rw [readGraphics_eq b hplace]
    · rw [toNat_truncate, UInt32.toNat_shiftRight, hshift, hoffset, hamount, littleEndian_digit]
  ports := by
    intro hplace
    rw [read, region_eq hplace]
    rfl
  nothing := by
    intro hplace
    rw [read, region_eq hplace]
    rfl

/-- Storing a value in a chip stores its bytes there and none anywhere else. -/
theorem stores_setMemory (b : Board) {chip : Chip} {offset count : Nat}
    (h : offset + count ≤ (b.memory chip).size) (value : UInt32) :
    b.Stores (storedAt chip offset count value)
      (b.setMemory ((b.memory chip).store offset value count) chip) where
  byte := by
    intro other i
    by_cases hother : other = chip
    · subst hother
      have hmemory : (b.setMemory ((b.memory other).store offset value count) other).memory other =
          (b.memory other).store offset value count := by
        cases other <;> rfl
      rw [hmemory, Memory.byte_store _ _ h, storedAt]
      by_cases hin : offset ≤ i ∧ i < offset + count
      · rw [if_pos hin, if_pos ⟨rfl, hin⟩, Option.getD_some]
      · rw [if_neg hin, if_neg fun hall => hin hall.2, Option.getD_none]
    · rw [storedAt, if_neg fun hall => hother hall.1, Option.getD_none]
      cases chip <;> cases other <;> first | rfl | exact absurd rfl hother
  size := by
    intro other _
    cases chip <;> cases other <;> first | rfl | exact Memory.size_store _ _ _ _

/-- **Writes.** -/
theorem writesAs (b : Board) (width : Width) (address value : UInt32) :
    b.WritesAs width address value where
  memory := by
    intro chip offset hplace hwritable hfits
    obtain ⟨offset', rfl, -, hwrite⟩ := exists_offset hplace
    refine ⟨_, ?_, b.stores_setMemory hfits value, ?_⟩
    · rw [hwrite hwritable, Memory.write_eq, if_pos hfits]
    · cases chip with
      | ram => exact ⟨rfl, rfl⟩
      | scratchpad => exact ⟨rfl, rfl⟩
      | firmware => cases hwritable
  pastEnd := by
    intro chip offset hplace hwritable hend
    obtain ⟨offset', rfl, -, hwrite⟩ := exists_offset hplace
    refine ⟨⟨offset'⟩, ?_, rfl⟩
    rw [hwrite hwritable, Memory.write_eq, if_neg (by omega)]
    cases chip <;> rfl
  firmware := by
    intro offset hplace
    rw [write, region_eq hplace]
    rfl
  graphics := by
    intro port hplace
    obtain ⟨rfl, hlt⟩ := toNat_graphicsOffset hplace
    have hbit := (portBits hlt).1
    have hwrite : b.graphics.write (graphicsOffset address) value =
        if (graphicsOffset address).toNat < 4 then b.graphics.writeDrawing value
        else b.graphics.writeControl value := by
      unfold Graphics.write
      by_cases hport : (graphicsOffset address).toNat < 4
      · rw [if_pos hport, if_pos (hbit.mpr hport)]
      · rw [if_neg hport, if_neg (mt hbit.mp hport)]
    rw [write, region_eq hplace]
    dsimp only [Place.region]
    rw [hwrite]
    by_cases hwidth : width = .word
    · rw [if_pos hwidth, if_pos hwidth, afterPortWrite]
    · rw [if_neg hwidth, if_neg hwidth]
  ports := by
    intro hplace
    rw [write, region_eq hplace]
    rfl
  nothing := by
    intro hplace
    rw [write, region_eq hplace]
    rfl

/-! ## Sequences of operations -/

/-- An operation on the board. -/
inductive Operation where
  | read (width : Width) (address : UInt32)
  | write (width : Width) (address value : UInt32)
  /-- Copies an image into main memory. -/
  | loadImage (address : UInt32) (image : Array UInt8)
  | loadFirmware (image : Array UInt8)
  | reset
  | graphics (operation : Graphics.Operation)

/-- The board after an operation; one that fails leaves the board as it is. -/
def after (b : Board) : Operation → Board
  | .read width address => (b.read width address).2
  | .write width address value => (b.write width address value).2
  | .loadImage address image =>
      match b.loadImage address image with
      | .ok loaded => loaded
      | .error _ => b
  | .loadFirmware image =>
      match b.loadFirmware image with
      | .ok loaded => loaded
      | .error _ => b
  | .reset => b.reset
  | .graphics operation => { b with graphics := (b.graphics.perform operation).2 }

/-- The board after a sequence of operations. -/
def afterAll (b : Board) (operations : List Operation) : Board :=
  operations.foldl after b

/-- The bytes that a write puts at a place. -/
def storedIn (b : Board) (width : Width) (value : UInt32) :
    Place → Chip → Nat → Option UInt8
  | .memory target offset =>
      if target.writable = true ∧ offset + width.bytes ≤ (b.memory target).size then
        storedAt target offset width.bytes value
      else fun _ _ => none
  | _ => fun _ _ => none

/-- The byte that an operation puts at an offset of a memory, if it does.  What does not
fit into the memories of the board puts none. -/
def Operation.stored? (b : Board) (chip : Chip) (i : Nat) : Operation → Option UInt8
  | .write width address value => b.storedIn width value (Place.of address) chip i
  | .loadImage address image =>
      if chip = .ram ∧ address.toNat + image.size ≤ b.ram.size ∧ address.toNat ≤ i ∧
          i < address.toNat + image.size then
        some (image.getD (i - address.toNat) 0)
      else none
  | .loadFirmware image =>
      if chip = .firmware ∧ image.size = firmwareSize then some (image.getD i 0) else none
  | .reset => if chip.writable then some 0 else none
  | .read .. | .graphics _ => none

/-- The byte that a sequence of operations leaves at an offset of a memory: the one that
was put there last or, if there is none, the byte of the board before. -/
def lastByte (b : Board) (operations : List Operation) (chip : Chip) (i : Nat) : UInt8 :=
  (operations.reverse.findSome? (·.stored? b chip i)).getD ((b.memory chip).byte i)

/-- The last operation of a sequence comes before all others. -/
theorem lastByte_append (b : Board) (before : List Operation) (operation : Operation) (chip : Chip)
    (i : Nat) :
    b.lastByte (before ++ [operation]) chip i =
      (operation.stored? b chip i).getD (b.lastByte before chip i) := by
  rw [lastByte, List.reverse_append, List.reverse_singleton, List.singleton_append,
    List.findSome?_cons]
  cases operation.stored? b chip i <;> rfl

/-- A board that stays as it is has stored nothing. -/
theorem stores_none (b : Board) : b.Stores (fun _ _ => none) b :=
  ⟨fun _ _ => rfl, fun _ _ => rfl⟩

/-- The drawing unit is not a memory. -/
theorem stores_graphics (b : Board) (graphics : Graphics) :
    b.Stores (fun _ _ => none) { b with graphics } :=
  ⟨fun chip _ => by cases chip <;> rfl, fun chip _ => by cases chip <;> rfl⟩

/-- A load stores nothing, although reading a port may change what the port answers next. -/
theorem stores_read (b : Board) (width : Width) (address : UInt32) :
    b.Stores (fun _ _ => none) (b.read width address).2 := by
  unfold read
  cases Region.of address with
  | graphics => exact b.stores_graphics _
  | _ => exact b.stores_none

/-- A store puts the bytes of its value where the address leads. -/
theorem stores_write (b : Board) (width : Width) (address value : UInt32) :
    b.Stores (b.storedIn width value (Place.of address)) (b.write width address value).2 := by
  have hwrites := b.writesAs width address value
  cases hplace : Place.of address with
  | memory target offset =>
      by_cases hwritable : target.writable = true
      · by_cases hfits : offset + width.bytes ≤ (b.memory target).size
        · obtain ⟨after, hwrite, hstores, -⟩ := hwrites.memory _ _ hplace hwritable hfits
          rw [hwrite, storedIn, if_pos ⟨hwritable, hfits⟩]
          exact hstores
        · obtain ⟨e, hwrite, -⟩ := hwrites.pastEnd _ _ hplace hwritable (by omega)
          rw [hwrite, storedIn, if_neg fun hall => hfits hall.2]
          exact b.stores_none
      · obtain rfl : target = .firmware := by
          cases target <;> first | rfl | exact absurd rfl hwritable
        rw [hwrites.firmware _ hplace, storedIn, if_neg fun hall => hwritable hall.1]
        exact b.stores_none
  | graphics port =>
      rw [hwrites.graphics _ hplace]
      dsimp only
      split
      · exact b.stores_graphics _
      · exact b.stores_none
  | ports =>
      rw [hwrites.ports hplace]
      exact b.stores_none
  | nothing =>
      rw [hwrites.nothing hplace]
      exact b.stores_none

/-- Copying an image stores it byte by byte, or nothing at all if it does not fit. -/
theorem stores_loadImage (b : Board) (address : UInt32) (image : Array UInt8) :
    b.Stores (fun chip i => (Operation.loadImage address image).stored? b chip i)
      (b.after (.loadImage address image)) := by
  dsimp only [after, Board.loadImage, Operation.stored?]
  rcases hload : b.ram.loadImage address image with e | ram
  · have hno : ¬ address.toNat + image.size ≤ b.ram.size := by
      intro hfits
      simp [Memory.loadImage, Memory.holds, hfits] at hload
    refine ⟨fun chip i => ?_, fun chip _ => rfl⟩
    rw [if_neg fun hall => hno hall.2.1, Option.getD_none]
    rfl
  · refine ⟨fun chip i => ?_, fun chip _ => ?_⟩
    · obtain ⟨hfits, hbyte⟩ := Memory.byte_of_loadImage hload i
      cases chip with
      | ram =>
          change ram.byte i = _
          rw [hbyte]
          by_cases hin : address.toNat ≤ i ∧ i < address.toNat + image.size
          · rw [if_pos hin, if_pos ⟨rfl, hfits, hin⟩, Option.getD_some]
          · rw [if_neg hin, if_neg fun hall => hin hall.2.2, Option.getD_none]
            rfl
      | scratchpad => rfl
      | firmware => rfl
    · cases chip with
      | ram => exact Memory.size_loadImage hload
      | scratchpad => rfl
      | firmware => rfl

/-- Exchanging the firmware stores the image, or nothing if it has the wrong size. -/
theorem stores_loadFirmware (b : Board) (image : Array UInt8) :
    b.Stores (fun chip i => (Operation.loadFirmware image).stored? b chip i)
      (b.after (.loadFirmware image)) := by
  dsimp only [after, Board.loadFirmware, Operation.stored?]
  by_cases hsize : image.size = firmwareSize
  · rw [if_pos hsize]
    refine ⟨fun chip i => ?_, fun chip hwritable => ?_⟩
    · cases chip with
      | firmware => rw [if_pos ⟨rfl, hsize⟩]; rfl
      | ram => rfl
      | scratchpad => rfl
    · cases chip with
      | firmware => cases hwritable
      | ram => rfl
      | scratchpad => rfl
  · rw [if_neg hsize]
    refine ⟨fun chip i => ?_, fun chip _ => rfl⟩
    rw [if_neg fun hall => hsize hall.2, Option.getD_none]

/-- A reset stores zeros in main memory and in the scratchpad, and none in the firmware. -/
theorem stores_reset (b : Board) :
    b.Stores (fun chip i => Operation.reset.stored? b chip i) (b.after .reset) := by
  refine ⟨fun chip i => ?_, fun chip hwritable => ?_⟩
  · cases chip with
    | ram => exact Memory.byte_blank _ i
    | scratchpad => exact Memory.byte_blank _ i
    | firmware => rfl
  · cases chip with
    | ram => exact Memory.size_blank _
    | scratchpad => exact Memory.size_blank _
    | firmware => cases hwritable

/-- **One operation** puts bytes where `Operation.stored?` says. -/
theorem stores_after (b : Board) (operation : Operation) :
    b.Stores (fun chip i => operation.stored? b chip i) (b.after operation) := by
  cases operation with
  | read width address => exact b.stores_read width address
  | write width address value => exact b.stores_write width address value
  | loadImage address image => exact b.stores_loadImage address image
  | loadFirmware image => exact b.stores_loadFirmware image
  | reset => exact b.stores_reset
  | graphics operation => exact b.stores_graphics _

/-- What an operation puts depends on the sizes of the memories only. -/
theorem stored?_congr {b b' : Board}
    (h : ∀ chip, chip.writable = true → (b'.memory chip).size = (b.memory chip).size) (chip : Chip)
    (i : Nat) (operation : Operation) :
    operation.stored? b' chip i = operation.stored? b chip i := by
  cases operation with
  | write width address value =>
      dsimp only [Operation.stored?]
      cases Place.of address with
      | memory target offset =>
          dsimp only [storedIn]
          by_cases hwritable : target.writable = true
          · rw [h target hwritable]
          · rw [if_neg fun hall => hwritable hall.1, if_neg fun hall => hwritable hall.1]
      | _ => rfl
  | loadImage address image =>
      have hsize : b'.ram.size = b.ram.size := h .ram rfl
      dsimp only [Operation.stored?]
      rw [hsize]
  | _ => rfl

/-- **A sequence of operations** leaves the bytes that were put last, and the sizes of the
memories that can be written. -/
theorem byte_afterAll (b : Board) (operations : List Operation) :
    (∀ chip i, ((b.afterAll operations).memory chip).byte i = b.lastByte operations chip i) ∧
      ∀ chip, chip.writable = true →
        ((b.afterAll operations).memory chip).size = (b.memory chip).size := by
  -- The induction takes the last operation off, which is the first one of the reversed list.
  rw [← operations.reverse_reverse]
  induction operations.reverse with
  | nil => exact ⟨fun _ _ => rfl, fun _ _ => rfl⟩
  | cons operation later ih =>
      obtain ⟨hbyte, hsize⟩ := ih
      have hstep := (b.afterAll later.reverse).stores_after operation
      have hrun : b.afterAll (operation :: later).reverse =
          (b.afterAll later.reverse).after operation := by
        rw [List.reverse_cons]
        exact List.foldl_append
      rw [hrun, List.reverse_cons]
      refine ⟨fun chip i => ?_, fun chip hwritable => ?_⟩
      · rw [hstep.byte, hbyte, stored?_congr hsize, lastByte_append]
      · rw [hstep.size chip hwritable, hsize chip hwritable]

/-- **The board is a byte memory with mirrors.**

* Every read and every write does what the place at its address says, and an access that
  fails changes nothing.
* After any sequence of operations the memories that can be written have the sizes they
  had, and a read that ends inside a memory gives, byte by byte, what was put there
  last. -/
theorem byte_memory (b : Board) :
    (∀ width address, b.ReadsAs width address) ∧
    (∀ width address value, b.WritesAs width address value) ∧
    ∀ operations : List Operation,
      (∀ chip, chip.writable = true →
        ((b.afterAll operations).memory chip).size = (b.memory chip).size) ∧
      ∀ width address chip offset, Place.of address = .memory chip offset →
        offset + width.bytes ≤ ((b.afterAll operations).memory chip).size →
        ∃ value,
          (b.afterAll operations).read width address = (.ok value, b.afterAll operations) ∧
          value.toNat = littleEndian (b.lastByte operations chip) offset width.bytes := by
  refine ⟨b.readsAs, b.writesAs, fun operations => ?_⟩
  obtain ⟨hbyte, hsize⟩ := b.byte_afterAll operations
  refine ⟨hsize, fun width address chip offset hplace hfits => ?_⟩
  obtain ⟨value, hread, hvalue⟩ :=
    ((b.afterAll operations).readsAs width address).memory chip offset hplace hfits
  refine ⟨value, hread, ?_⟩
  rw [hvalue]
  exact littleEndian_congr fun i _ _ => hbyte chip i

/-- A byte written through the last of the mirrors and read through the second, together
with the byte before it, which a reset has cleared. -/
theorem byte_memory_of_mirrors :
    let operations : List Operation := [.reset, .write .byte 0x00600041 0x5A]
    ∃ value, (((Board.initial .drop).afterAll operations).read .half 0x00200040).1 = .ok value ∧
      value = 0x5A00 := by
  intro operations
  have hram : ((Board.initial .drop).memory .ram).size = ramSize := Memory.size_blank ramSize
  have hlaw := byte_memory (.initial .drop)
  generalize Board.initial .drop = b at hram hlaw ⊢
  obtain ⟨hsize, hreads⟩ := hlaw.2.2 operations
  have hplace : Place.of 0x00200040 = .memory .ram 0x40 := by simp [Place.of]
  have hfits : 0x40 + Width.half.bytes ≤ ((b.afterAll operations).memory .ram).size := by
    rw [hsize .ram rfl, hram, Width.bytes, ramSize]
    omega
  obtain ⟨value, hread, hvalue⟩ := hreads .half 0x00200040 .ram 0x40 hplace hfits
  refine ⟨value, congrArg Prod.fst hread, ?_⟩
  have htarget : Place.of 0x00600041 = .memory .ram 0x41 := by simp [Place.of]
  have hin : 0x41 + Width.byte.bytes ≤ (b.memory .ram).size := by
    rw [hram, Width.bytes, ramSize]
    omega
  have hwritten (i : Nat) : (Operation.write .byte 0x00600041 0x5A).stored? b .ram i =
      storedAt .ram 0x41 1 0x5A .ram i := by
    dsimp only [Operation.stored?]
    rw [htarget, storedIn, if_pos ⟨rfl, hin⟩, Width.bytes]
  have hlast (i : Nat) :
      b.lastByte operations .ram i = (storedAt .ram 0x41 1 0x5A .ram i).getD 0 := by
    rw [← hwritten]
    exact b.lastByte_append [.reset] _ .ram i
  apply UInt32.toNat_inj.mp
  rw [hvalue, Width.bytes, littleEndian, littleEndian, littleEndian, hlast, hlast]
  rfl

end Board
end PlayStation
