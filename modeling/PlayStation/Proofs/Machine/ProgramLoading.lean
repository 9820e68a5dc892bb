import PlayStation.Proofs.Machine.ByteMemory

/-!
# Loading a program

A program image is loaded as a whole or not at all (`Machine.program_loaded`).  It is loaded
if it begins and ends in main memory, whatever the segment of the address it is loaded at,
and then replaces the bytes that it covers and nothing else (`Machine.LoadedAt`).

A byte of main memory shows at one physical address in each of four mirrors
(`Board.Mirrored`), and at each of these in six spans of virtual addresses
(`Board.Aliased`).  A load of a byte from any of them reads it, whatever the state of the
processor (`Board.loadsByte_of_aliased`).
-/

namespace PlayStation

/-- A byte with sign, read as a number of eight bits and of a word. -/
theorem Bits.signExtend_byte (byte : UInt8) :
    (signExtend byte.toUInt32 8).toUInt32 = byte.toInt8.toInt32.toUInt32 := by
  revert byte
  exact forall_byte (by decide +kernel)

namespace Board

/-- A physical address at which the byte at an offset of main memory shows. -/
def Mirrored (offset physical : Nat) : Prop :=
  ∃ mirror < 4, physical = mirror * ramSize + offset

/-- A virtual address at which the byte at an offset of main memory shows: the lower half of
the addresses is four spans of 512 MiB, and the two segments above it are one each. -/
def Aliased (offset : Nat) (address : UInt32) : Prop :=
  ∃ span < 6, ∃ physical, Mirrored offset physical ∧
    address.toNat = span * 0x20000000 + physical

/-- Both loads of a byte from an address, by any processor, read a byte, and the board stays
as it is. -/
def LoadsByte (b : Board) (address : UInt32) (byte : UInt8) : Prop :=
  ∀ (p : Processor) (target base : Register) (offset : UInt32), p.reg base + offset = address →
    p.execute (.load .byteUnsigned target base offset) b =
        (.ok (p.setRegDelayed target byte.toUInt32), b) ∧
      p.execute (.load .byte target base offset) b =
        (.ok (p.setRegDelayed target byte.toInt8.toInt32.toUInt32), b)

/-! ## Reading a byte -/

variable {offset : Nat} {address : UInt32}

/-- Each mirror of an offset leads to the same byte of main memory. -/
theorem place_of_mirrored (hoffset : offset < ramSize) (h : Mirrored offset address.toNat) :
    Place.of address = .memory .ram offset := by
  obtain ⟨mirror, hmirror, haddress⟩ := h
  rw [ramSize] at hoffset haddress
  have hmod : address.toNat % 0x00200000 = offset := by omega
  have hrange : address.toNat < 0x00800000 := by omega
  unfold Place.of
  dsimp only
  rw [if_pos hrange, hmod]

/-- Every segment through which main memory is seen leads to one of its mirrors. -/
theorem mirrored_physicalAddress (hoffset : offset < ramSize) (h : Aliased offset address) :
    Mirrored offset (physicalAddress address).toNat := by
  obtain ⟨span, hspan, physical, ⟨mirror, hmirror, hphysical⟩, haddress⟩ := h
  rw [ramSize] at hoffset hphysical
  have hlow : address < 0xC0000000 := by
    rw [UInt32.lt_iff_toNat_lt]
    change address.toNat < 0xC0000000
    omega
  have hmask : (address &&& 0x1FFFFFFF).toNat = address.toNat % 0x20000000 :=
    Bits.toNat_and_low address 0x1FFFFFFF (n := 29) rfl
  refine ⟨mirror, hmirror, ?_⟩
  rw [physicalAddress, if_pos hlow, hmask, ramSize]
  omega

/-- **The bus** reads the byte of a place in main memory. -/
theorem read_byte (b : Board) (hin : offset < b.ram.size)
    (hplace : Place.of address = .memory .ram offset) :
    b.read .byte address = (.ok (b.ram.byte offset).toUInt32, b) := by
  obtain ⟨value, hread, hvalue⟩ := (b.readsAs .byte address).memory .ram offset hplace hin
  have hbyte : value = (b.ram.byte offset).toUInt32 := UInt32.toNat_inj.mp hvalue
  rw [hread, hbyte]

/-- The cache control register is behind all mirrors. -/
theorem ne_cacheControl_of_mirrored {physical : UInt32} (hoffset : offset < ramSize)
    (h : Mirrored offset physical.toNat) : physical ≠ CacheControl.address := by
  obtain ⟨mirror, hmirror, hphysical⟩ := h
  rw [ramSize] at hoffset hphysical
  intro hsame
  rw [hsame] at hphysical
  change 0xFFFE0130 = _ at hphysical
  omega

/-- **The processor** reads the byte at each of its addresses. -/
theorem readData_byte (b : Board) (p : Processor) (hsize : b.ram.size = ramSize)
    (hoffset : offset < ramSize) (h : Aliased offset address) :
    p.readData .byte address b = (.ok (b.ram.byte offset).toUInt32, b) := by
  have hmirrored := mirrored_physicalAddress hoffset h
  have hbus : Bus.read b .byte (physicalAddress address) =
      (.ok (b.ram.byte offset).toUInt32, b) :=
    b.read_byte (hsize ▸ hoffset) (place_of_mirrored hoffset hmirrored)
  have htruncate : Width.byte.truncate (b.ram.byte offset).toUInt32 =
      (b.ram.byte offset).toUInt32 := by
    apply UInt32.toNat_inj.mp
    rw [toNat_truncate]
    exact Nat.mod_eq_of_lt (b.ram.byte offset).toNat_lt
  unfold Processor.readData
  dsimp only
  rw [if_neg (ne_cacheControl_of_mirrored hoffset hmirrored), hbus]
  dsimp only
  rw [htruncate]

/-- A load through any alias of an offset brings the byte there. -/
theorem loadsByte_of_aliased (b : Board) (hsize : b.ram.size = ramSize) (hoffset : offset < ramSize)
    (h : Aliased offset address) : b.LoadsByte address (b.ram.byte offset) := by
  have haligned : ¬ address &&& 0 ≠ 0 := by simp
  intro p target base offset' haddress
  constructor
  · unfold Processor.execute Processor.executeLoad Processor.loadValue
      Processor.LoadKind.misalignment
    dsimp only
    rw [haddress, if_neg haligned, b.readData_byte p hsize hoffset h]
  · unfold Processor.execute Processor.executeLoad Processor.loadValue
      Processor.LoadKind.misalignment
    dsimp only
    rw [haddress, if_neg haligned, b.readData_byte p hsize hoffset h]
    dsimp only [Except.map]
    rw [Bits.signExtend_byte]

end Board

namespace Machine

/-- `after` is `m` with an image in main memory. -/
structure LoadedAt (m after : Machine) (start : Nat) (image : Array UInt8) : Prop where
  others : after = { m with board := { m.board with ram := after.board.ram } }
  size : after.board.ram.size = m.board.ram.size
  byte : ∀ i, after.board.ram.byte i =
    if start ≤ i ∧ i < start + image.size then image.getD (i - start) 0 else m.board.ram.byte i
  /-- The image shows on the bus in every mirror. -/
  bus : ∀ i (hi : i < image.size) (address : UInt32),
    Board.Mirrored (start + i) address.toNat →
      after.board.read .byte address = (.ok image[i].toUInt32, after.board)
  /-- The processor reads it at all its addresses. -/
  load : ∀ i (hi : i < image.size) (address : UInt32),
    Board.Aliased (start + i) address → after.board.LoadsByte address image[i]

/-- **An image that fits** is loaded. -/
theorem loadedAt_of_fits {m : Machine} (hram : m.board.ram.size = Board.ramSize)
    {address : UInt32} {image : Array UInt8}
    (hstart : (physicalAddress address).toNat < Board.ramSize)
    (hfits : (physicalAddress address).toNat + image.size ≤ Board.ramSize) :
    ∃ after, m.loadProgram image address = .ok after ∧
      m.LoadedAt after (physicalAddress address).toNat image := by
  have hholds : m.board.ram.holds (physicalAddress address).toNat image.size = true :=
    decide_eq_true (hram ▸ hfits)
  obtain ⟨ram, hload⟩ : ∃ ram, m.board.ram.loadImage (physicalAddress address) image = .ok ram :=
    ⟨_, if_pos hholds⟩
  have hprogram : m.loadProgram image address = .ok { m with board := { m.board with ram } } := by
    unfold loadProgram Board.loadImage
    dsimp only
    rw [if_neg (by omega), hload]
    rfl
  have hsize : ram.size = m.board.ram.size := Memory.size_loadImage hload
  have hbyte (i : Nat) := (Memory.byte_of_loadImage hload i).2
  have himage {i : Nat} (hi : i < image.size) :
      ram.byte ((physicalAddress address).toNat + i) = image[i] := by
    rw [hbyte, if_pos (by omega), Nat.add_sub_cancel_left, Array.getD_eq_getD_getElem?,
      Array.getElem?_eq_getElem hi, Option.getD_some]
  refine ⟨_, hprogram, rfl, hsize, hbyte, ?_, ?_⟩
  · intro i hi other hmirrored
    rw [← himage hi]
    have hin : (physicalAddress address).toNat + i < ram.size := by omega
    exact Board.read_byte _ hin (Board.place_of_mirrored (by omega) hmirrored)
  · intro i hi other haliased
    rw [← himage hi]
    exact Board.loadsByte_of_aliased _ (hsize.trans hram) (by omega) haliased

/-- An image that begins in main memory and ends behind it is too long. -/
theorem loadProgram_of_long {m : Machine} (hram : m.board.ram.size = Board.ramSize)
    {address : UInt32} {image : Array UInt8}
    (hstart : (physicalAddress address).toNat < Board.ramSize)
    (hlong : Board.ramSize < (physicalAddress address).toNat + image.size) :
    m.loadProgram image address =
      .error (.programTooLarge ⟨physicalAddress address, image.size⟩) := by
  have hholds : ¬ m.board.ram.holds (physicalAddress address).toNat image.size = true := by
    rw [Memory.holds, decide_eq_true_eq, hram]
    omega
  unfold loadProgram Board.loadImage Memory.loadImage
  dsimp only
  rw [if_neg (by omega), if_neg hholds]
  rfl

/-- The last segment is not stripped from an address, and so it is outside main memory. -/
theorem ramSize_le_of_kseg2 {address : UInt32} (h : Segment.of address = .kseg2) :
    Board.ramSize ≤ (physicalAddress address).toNat := by
  have hhigh : ¬ address < 0xC0000000 := by
    intro hlow
    unfold Segment.of at h
    rw [if_pos hlow] at h
    split at h
    · cases h
    · split at h <;> cases h
  have hnat : 0xC0000000 ≤ address.toNat := Nat.le_of_not_lt hhigh
  rw [physicalAddress, if_neg hhigh, Board.ramSize]
  omega

/-- **A program is loaded as a whole or not at all.**  The main memory of a machine always
has the same size.  In every machine of that size, an image is loaded exactly if it begins
and ends in main memory.  Then it is what main memory holds there, on the bus and for the
processor at each of its addresses, and nothing else has changed.  Otherwise nothing has
changed: an address outside main memory is reported as it was given, and an image that is
too long with its physical address and its length. -/
theorem program_loaded :
    (∀ (policies : Policies) (operations : List Operation),
      ((initial policies).performAll operations).board.ram.size = Board.ramSize) ∧
    ∀ (m : Machine) (image : Array UInt8) (address : UInt32),
      m.board.ram.size = Board.ramSize →
      let start := (physicalAddress address).toNat
      let loaded := m.perform (.loadProgram image address)
      (start < Board.ramSize ∧ start + image.size ≤ Board.ramSize →
        ∃ after, loaded = (.done, after) ∧ m.LoadedAt after start image) ∧
      (start < Board.ramSize ∧ Board.ramSize < start + image.size →
        loaded = (.failed (.programTooLarge ⟨physicalAddress address, image.size⟩), m)) ∧
      (Board.ramSize ≤ start → loaded = (.failed (.access ⟨address⟩), m)) ∧
      (Segment.of address = .kseg2 → Board.ramSize ≤ start) := by
  refine ⟨fun policies operations => ((built_initial policies).performAll operations).board.ram,
    fun m image address hram => ?_⟩
  intro start loaded
  refine ⟨fun ⟨hstart, hfits⟩ => ?_, fun ⟨hstart, hlong⟩ => ?_, fun houtside => ?_, fun hlast => ?_⟩
  · obtain ⟨after, hprogram, hloaded⟩ := loadedAt_of_fits hram hstart hfits
    refine ⟨after, ?_, hloaded⟩
    dsimp only [loaded, perform]
    rw [hprogram]
  · have hprogram := loadProgram_of_long hram hstart hlong
    dsimp only [loaded, perform]
    rw [hprogram]
  · have hprogram : m.loadProgram image address = .error (.access ⟨address⟩) := if_pos houtside
    dsimp only [loaded, perform]
    rw [hprogram]
  · exact ramSize_le_of_kseg2 hlast

/-- Two bytes at the end of main memory, of which the second one is read on the bus and, with
sign, by a processor at its last address; one byte too many; and the first address of the
last segment. -/
theorem program_loaded_at_end :
    let m := initial {}
    let p := (Processor.initial .ignore).setReg 4 0xA0800000
    (∃ after, m.perform (.loadProgram #[0x12, 0xFE] 0x801FFFFE) = (.done, after) ∧
      after.board.read .byte 0x003FFFFF = (.ok 0xFE, after.board) ∧
      p.execute (.load .byte 5 4 0xFFFFFFFF) after.board =
        (.ok (p.setRegDelayed 5 0xFFFFFFFE), after.board)) ∧
    m.perform (.loadProgram #[0x12, 0xFE, 0x34] 0x801FFFFE) =
      (.failed (.programTooLarge ⟨0x001FFFFE, 3⟩), m) ∧
    m.perform (.loadProgram #[] 0xC0000000) = (.failed (.access ⟨0xC0000000⟩), m) := by
  intro m p
  have hram : m.board.ram.size = Board.ramSize := program_loaded.1 {} []
  have hlaw (image : Array UInt8) (address : UInt32) := program_loaded.2 m image address hram
  refine ⟨?_, (hlaw #[0x12, 0xFE, 0x34] 0x801FFFFE).2.1 (by decide),
    (hlaw #[] 0xC0000000).2.2.1 (by decide)⟩
  obtain ⟨after, hdone, hloaded⟩ := (hlaw #[0x12, 0xFE] 0x801FFFFE).1 (by decide)
  refine ⟨after, hdone, ?_, ?_⟩
  · exact hloaded.bus 1 (by decide) 0x003FFFFF ⟨1, by decide, by decide⟩
  · have haliased : Board.Aliased 0x001FFFFF 0xA07FFFFF :=
      ⟨5, by decide, 0x007FFFFF, ⟨3, by decide, by decide⟩, by decide⟩
    exact (hloaded.load 1 (by decide) 0xA07FFFFF haliased p 5 4 0xFFFFFFFF (by decide)).2

end Machine
end PlayStation
