import PlayStation.Proofs.Bits
import PlayStation.Proofs.Graphics.Reachable

/-!
# The edges of the drawing area

The words that set the drawing area have 10 bits for each coordinate, so no edge lies
beyond column or row 1023 (`DrawingArea.Encodable`).  Nothing else changes the area but a
reset, so this holds of every reachable drawing unit (`Reachable.encodable`).
-/

namespace PlayStation

open Bits

/-- A drawing area whose edges fit into 10 bits. -/
structure DrawingArea.Encodable (area : DrawingArea) : Prop where
  left : area.left < 1024
  top : area.top < 1024
  right : area.right < 1024
  bottom : area.bottom < 1024

/-- The area after a reset. -/
theorem DrawingArea.encodable_default : DrawingArea.Encodable {} :=
  ⟨by decide, by decide, by decide, by decide⟩

/-- A slice of ten bits is a remainder by 1024. -/
theorem Bits.toNat_slice_ten (word lo : UInt32) :
    (slice word lo 10).toNat = (word >>> lo).toNat % 1024 :=
  Bits.toNat_and_low (word >>> lo) 0x3FF (n := 10) rfl

/-- A number of 11 bits with sign that is not negative. -/
theorem Bits.toInt_signExtend_eleven {word : UInt32} (h : word.toNat % 2048 < 1024) :
    (signExtend word 11).toInt = (word.toNat % 2048 : Nat) := by
  have hnat : (word <<< 21).toBitVec.toNat = word.toNat % 2048 * 2097152 := by
    change (word <<< 21).toNat = _
    rw [UInt32.toNat_shiftLeft]
    change word.toNat <<< 21 % 4294967296 = _
    rw [Nat.shiftLeft_eq]
    omega
  have hextend : (signExtend word 11).toBitVec = (word <<< 21).toBitVec.sshiftRight 21 :=
    Int32.toBitVec_shiftRight _ _
  rw [← Int32.toInt_toBitVec, hextend, BitVec.toInt_sshiftRight,
    BitVec.toInt_eq_toNat_of_lt (by rw [hnat]; omega), hnat, Int.shiftRight_eq_div_pow]
  omega

namespace Graphics

variable {g : Graphics} {policy : UnhandledCommand}

/-- The coordinates in a setting word are below 1024. -/
theorem areaCoordinates_lt (word : UInt32) :
    (areaCoordinates word).1 < 1024 ∧ (areaCoordinates word).2 < 1024 := by
  unfold areaCoordinates
  rw [toNat_slice_ten, toNat_slice_ten]
  exact ⟨Nat.mod_lt _ (by decide), Nat.mod_lt _ (by decide)⟩

/-- A setting word keeps the area encodable, for what it sets comes from ten bits. -/
theorem encodable_applySetting (h : g.area.Encodable) (word : UInt32) :
    (g.applySetting word).area.Encodable := by
  obtain ⟨hx, hy⟩ := areaCoordinates_lt word
  unfold applySetting setDrawMode setWindow setTopLeft setBottomRight setOffset setMasks
  split
  case h_3 => exact ⟨hx, hy, h.right, h.bottom⟩
  case h_4 => exact ⟨h.left, h.top, hx, hy⟩
  all_goals exact h

/-! ## Carrying out commands -/

/-- Drawing a polygon leaves the area. -/
theorem area_drawPolygon (g : Graphics) (form : PolygonForm) (words : List UInt32) :
    (g.drawPolygon form words).area = g.area := by
  unfold drawPolygon
  cases form.textured <;> rfl

theorem area_stepUpload (g : Graphics) : g.stepUpload.area = g.area := by
  unfold stepUpload
  split
  · split <;> rfl
  · split
    · dsimp only
      split <;> rfl
    · rfl
    · rfl

theorem area_startDownload (g : Graphics) : g.startDownload.area = g.area := by
  unfold startDownload
  split <;> rfl

theorem area_discard (g : Graphics) (length : CommandLength) (count : Nat) :
    (g.discard length count).area = g.area := by
  induction count generalizing g with
  | zero => rfl
  | succ count ih =>
      unfold discard
      split
      · dsimp only
        split
        · rfl
        · rw [ih]
      · rfl

/-- **One round.** -/
theorem encodable_step (h : g.area.Encodable) : g.step.area.Encodable := by
  unfold step
  cases Command.ofOpcode g.progress.opcode with
  | clearQueue => exact h
  | polygon form =>
      dsimp only
      split
      · change (drawPolygon _ _ _).area.Encodable
        rw [area_drawPolygon]
        exact h
      · exact h
  | upload =>
      dsimp only
      rw [area_stepUpload]
      exact h
  | download =>
      dsimp only
      rw [area_startDownload]
      exact h
  | setting =>
      dsimp only
      split
      · rename_i word queue _
        have hqueue : ({ g with queue } : Graphics).area.Encodable := h
        exact encodable_applySetting hqueue word
      · exact h
  | noOperation =>
      dsimp only
      split <;> exact h
  | unhandled =>
      dsimp only
      split
      · rw [area_discard]
        exact h
      · exact h

theorem area_begin? {begun : Graphics} (h : g.begin? = some begun) : begun.area = g.area := by
  unfold begin? at h
  split at h
  · cases h
    rfl
  · obtain ⟨opcode, -, rfl⟩ := Option.map_eq_some_iff.mp h
    rfl

/-- The rounds of the queue keep the area encodable. -/
theorem encodable_run (h : g.area.Encodable) : g.run.area.Encodable := by
  induction hcount : g.queue.count using Nat.strongRecOn generalizing g with
  | ind count ih =>
      unfold run
      cases hbegin : g.begin? with
      | none => exact h
      | some begun =>
          have hstep : begun.step.area.Encodable := encodable_step (area_begin? hbegin ▸ h)
          dsimp only
          split
          · rename_i hless
            exact ih _ (hcount ▸ hless) hstep rfl
          · exact hstep

/-- A word for the drawing port keeps it so. -/
theorem encodable_writeDrawing (h : g.area.Encodable) (word : UInt32) :
    (g.writeDrawing word).area.Encodable := by
  have hqueued : (run { g with queue := g.queue.push word }).area.Encodable := encodable_run h
  unfold writeDrawing
  by_cases hbusy : g.progress.inProgress
  · rw [if_pos hbusy]
    exact hqueued
  · rw [if_neg hbusy]
    cases himmediate : g.immediate? word with
    | none => exact hqueued
    | some after =>
        rcases cases_of_immediate? himmediate with ⟨-, rfl⟩ | ⟨-, rfl⟩
        · exact encodable_applySetting h word
        · exact h

/-! ## Operations from outside -/

/-- A control word keeps it so, a reset included. -/
theorem encodable_control (h : g.area.Encodable) (word : UInt32) :
    (g.control word).area.Encodable := by
  unfold control
  split
  case h_1 => exact DrawingArea.encodable_default
  case h_10 => split <;> exact h
  all_goals exact h

/-- A store to either port keeps it so. -/
theorem encodable_write (h : g.area.Encodable) (offset word : UInt32) :
    (g.write offset word).area.Encodable := by
  unfold write
  split
  · exact encodable_writeDrawing h word
  · exact encodable_run (encodable_control h word)

/-- A load from a port leaves the area. -/
theorem area_read (g : Graphics) (offset : UInt32) : (g.read offset).2.area = g.area := by
  unfold read readDrawing
  split
  · split <;> rfl
  · rfl

/-- Writing a rectangle from outside leaves the area. -/
theorem area_writeRect {g g' : Graphics} {x y w h : Nat} {pixels : Array UInt16}
    (hwrite : g.writeRect x y w h pixels = .ok g') : g'.area = g.area := by
  unfold writeRect at hwrite
  rcases hrect : g.vram.writeRect x y w h pixels with e | vram
  · rw [hrect] at hwrite
    cases hwrite
  · rw [hrect] at hwrite
    cases hwrite
    rfl

/-- **One operation.** -/
theorem encodable_perform (h : g.area.Encodable) (operation : Operation) :
    (g.perform operation).2.area.Encodable := by
  cases operation with
  | write offset word => exact encodable_write h offset word
  | read offset => exact (area_read g offset).symm ▸ h
  | dmaWrite clock word => exact encodable_write h 0 word
  | dmaRead clock => exact (area_read g 0).symm ▸ h
  | writePixel x y pixel => exact h
  | readPixel x y => exact h
  | writeRect x y width height pixels =>
      dsimp only [Graphics.perform]
      split
      · rename_i hwrite
        exact (area_writeRect hwrite).symm ▸ h
      · exact h
  | reset => exact DrawingArea.encodable_default

/-- **The edges of a reachable unit's drawing area fit into 10 bits.** -/
theorem Reachable.encodable (h : Reachable policy g) : g.area.Encodable := by
  induction h with
  | initial => exact DrawingArea.encodable_default
  | perform operation h ih => exact encodable_perform ih operation

/-! ## Every such area can be set -/

/-- The word of an opcode and two coordinates, the second one from bit `shift` on. -/
def settingWord (opcode x y shift : Nat) : UInt32 :=
  .ofNat (opcode <<< 24 + y <<< shift + x)

variable {x y : Nat}

/-- The second coordinate stays below the opcode. -/
theorem shiftLeft_lt (hy : y < 1024) {shift : Nat} (hshift : shift ≤ 11) :
    y <<< shift ≤ 1023 <<< 11 := by
  rw [Nat.shiftLeft_eq, Nat.shiftLeft_eq]
  exact Nat.mul_le_mul (by omega) (Nat.pow_le_pow_right (by decide) hshift)

/-- A setting word as a sum of its parts. -/
theorem toNat_settingWord (opcode shift : Nat) (hopcode : opcode < 256) (hx : x < 1024)
    (hy : y < 1024) (hshift : shift ≤ 11) :
    (settingWord opcode x y shift).toNat = opcode <<< 24 + y <<< shift + x := by
  have hsecond := shiftLeft_lt hy hshift
  apply UInt32.toNat_ofNat_of_lt'
  change _ < 4294967296
  omega

/-- The opcode is at the top of a setting word. -/
theorem opcode_settingWord (opcode shift : Nat) (hopcode : opcode < 256) (hx : x < 1024)
    (hy : y < 1024) (hshift : shift ≤ 11) :
    (settingWord opcode x y shift >>> 24).toNat = opcode := by
  have hsecond := shiftLeft_lt hy hshift
  rw [UInt32.toNat_shiftRight, toNat_settingWord opcode shift hopcode hx hy hshift,
    Nat.shiftRight_eq_div_pow]
  generalize y <<< shift = second at hsecond ⊢
  change _ / 16777216 = _
  omega

/-- The coordinates are read back from a setting word. -/
theorem areaCoordinates_settingWord (opcode : Nat) (hopcode : opcode < 256) (hx : x < 1024)
    (hy : y < 1024) : areaCoordinates (settingWord opcode x y 10) = (x, y) := by
  have hword := toNat_settingWord opcode 10 hopcode hx hy (by decide)
  have hlow : (settingWord opcode x y 10 >>> 0).toNat % 1024 = x := by
    rw [UInt32.shiftRight_zero, hword]
    omega
  have hhigh : (settingWord opcode x y 10 >>> 10).toNat % 1024 = y := by
    rw [UInt32.toNat_shiftRight, hword, Nat.shiftRight_eq_div_pow]
    change _ / 1024 % 1024 = y
    omega
  rw [areaCoordinates, toNat_slice_ten, toNat_slice_ten, hlow, hhigh]

/-- An idle unit takes the upper left corner of the area at once. -/
theorem writeDrawing_topLeft (hidle : g.progress.inProgress = false) (hx : x < 1024)
    (hy : y < 1024) :
    g.writeDrawing (settingWord 0xE3 x y 10) =
      { g with area := { g.area with left := x, top := y } } := by
  have hopcode := opcode_settingWord 0xE3 10 (by decide) hx hy (by decide)
  have hnow : g.immediate? (settingWord 0xE3 x y 10) =
      some (g.setTopLeft (settingWord 0xE3 x y 10)) := by
    rw [immediate?, hopcode]
    rfl
  rw [writeDrawing_of_immediate hidle hnow, setTopLeft,
    areaCoordinates_settingWord 0xE3 (by decide) hx hy]

/-- It takes the lower right corner at once. -/
theorem writeDrawing_bottomRight (hidle : g.progress.inProgress = false) (hx : x < 1024)
    (hy : y < 1024) :
    g.writeDrawing (settingWord 0xE4 x y 10) =
      { g with area := { g.area with right := x, bottom := y } } := by
  have hopcode := opcode_settingWord 0xE4 10 (by decide) hx hy (by decide)
  have hnow : g.immediate? (settingWord 0xE4 x y 10) =
      some (g.setBottomRight (settingWord 0xE4 x y 10)) := by
    rw [immediate?, hopcode]
    rfl
  rw [writeDrawing_of_immediate hidle hnow, setBottomRight,
    areaCoordinates_settingWord 0xE4 (by decide) hx hy]

/-- It takes the drawing offset at once. -/
theorem writeDrawing_offset (hidle : g.progress.inProgress = false) (hx : x < 1024)
    (hy : y < 1024) :
    g.writeDrawing (settingWord 0xE5 x y 11) = { g with offset := ⟨x, y⟩ } := by
  have hopcode := opcode_settingWord 0xE5 11 (by decide) hx hy (by decide)
  have hword := toNat_settingWord 0xE5 11 (by decide) hx hy (by decide)
  have hlow : (settingWord 0xE5 x y 11).toNat % 2048 = x := by omega
  have hhigh : (settingWord 0xE5 x y 11 >>> 11).toNat % 2048 = y := by
    rw [UInt32.toNat_shiftRight, hword, Nat.shiftRight_eq_div_pow]
    change _ / 2048 % 2048 = y
    omega
  have hnow : g.immediate? (settingWord 0xE5 x y 11) =
      some (g.setOffset (settingWord 0xE5 x y 11)) := by
    rw [immediate?, hopcode]
    rfl
  rw [writeDrawing_of_immediate hidle hnow, setOffset,
    toInt_signExtend_eleven (hlow.symm ▸ hx), toInt_signExtend_eleven (hhigh.symm ▸ hy), hlow,
    hhigh]

/-- **Every area whose edges fit into 10 bits can be set**, together with every drawing
offset that is not negative. -/
theorem reachable_of_encodable (policy : UnhandledCommand) {area : DrawingArea}
    (h : area.Encodable) (hx : x < 1024) (hy : y < 1024) :
    Reachable policy { Graphics.initial policy with area, offset := ⟨x, y⟩ } := by
  have hreached := (Reachable.initial : Reachable policy _).performAll
    [.write 0 (settingWord 0xE3 area.left area.top 10),
      .write 0 (settingWord 0xE4 area.right area.bottom 10), .write 0 (settingWord 0xE5 x y 11)]
  have hset : (((Graphics.initial policy).writeDrawing
      (settingWord 0xE3 area.left area.top 10)).writeDrawing
      (settingWord 0xE4 area.right area.bottom 10)).writeDrawing (settingWord 0xE5 x y 11) =
      { Graphics.initial policy with area, offset := ⟨x, y⟩ } := by
    rw [writeDrawing_topLeft rfl h.left h.top, writeDrawing_bottomRight rfl h.right h.bottom,
      writeDrawing_offset rfl hx hy]
  rw [← hset]
  exact hreached

end Graphics
end PlayStation
