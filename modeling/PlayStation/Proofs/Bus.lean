import PlayStation.Machine.Board

/-!
# Accesses that fail leave no trace

A bus may change with every access, a failing one included.  The two buses of
the machine do not make use of that: what fails leaves them as they were, and
an address that has just been read can be written (`Bus.FailsCleanly`).
-/

namespace PlayStation

/-- A bus whose failing accesses change nothing, and which can be written where
it was read. -/
structure Bus.FailsCleanly (β : Type) [Bus β] : Prop where
  of_read : ∀ {bus bus' : β} {width : Width} {address : UInt32} {e : AccessError},
    Bus.read bus width address = (.error e, bus') → bus' = bus
  of_write : ∀ {bus bus' : β} {width : Width} {address value : UInt32} {e : AccessError},
    Bus.write bus width address value = (.error e, bus') → bus' = bus
  write_of_read : ∀ {bus bus' : β} {width : Width} {address word : UInt32} (value : UInt32),
    Bus.read bus width address = (.ok word, bus') →
      (Bus.write bus' width address value).1 = .ok ()

namespace Memory

/-- A store that fails leaves the chip as it is. -/
theorem write_error {m m' : Memory} {width : Width} {offset value : UInt32} {e : AccessError}
    (h : m.write width offset value = (.error e, m')) : m' = m := by
  unfold write at h
  split at h
  · cases h
  · cases h; rfl

/-- Where a load succeeds, a store of the same width does too. -/
theorem write_of_read {m : Memory} {width : Width} {offset word : UInt32} (value : UInt32)
    (h : m.read width offset = .ok word) : (m.write width offset value).1 = .ok () := by
  unfold read at h
  unfold write
  by_cases hholds : m.holds offset.toNat width.bytes
  · rw [if_pos hholds]
  · rw [if_neg hholds] at h
    cases h

/-- A chip is a bus on which an access that fails changes nothing. -/
theorem failsCleanly : Bus.FailsCleanly Memory where
  of_read h := (congrArg Prod.snd h).symm
  of_write h := write_error h
  write_of_read value h := by
    obtain rfl : _ = _ := congrArg Prod.snd h
    exact write_of_read value (congrArg Prod.fst h)

end Memory

namespace Board

/-- A load that fails leaves the board as it is, for no port is read before the address is found
good. -/
theorem read_error {b b' : Board} {width : Width} {address : UInt32} {e : AccessError}
    (h : b.read width address = (.error e, b')) : b' = b := by
  unfold read at h
  split at h
  case h_4 => cases h
  all_goals exact (congrArg Prod.snd h).symm

/-- A store that fails leaves the board as it is. -/
theorem write_error {b b' : Board} {width : Width} {address value : UInt32} {e : AccessError}
    (h : b.write width address value = (.error e, b')) : b' = b := by
  unfold write at h
  split at h
  case h_1 =>
    rcases hram : b.ram.write width (ramOffset address) value with ⟨result, ram⟩
    rw [hram] at h
    cases h
    rw [Memory.write_error hram]
  case h_2 =>
    rcases hpad : b.scratchpad.write width (scratchpadOffset address) value with ⟨result, pad⟩
    rw [hpad] at h
    cases h
    rw [Memory.write_error hpad]
  case h_3 => split at h <;> cases h
  all_goals cases h
  rfl

/-- Where a load succeeds, a store of the same width to the board that it leaves does too. -/
theorem write_of_read {b b' : Board} {width : Width} {address word : UInt32} (value : UInt32)
    (h : b.read width address = (.ok word, b')) : (b'.write width address value).1 = .ok () := by
  unfold read at h
  unfold write
  rcases hregion : Region.of address with _ | _ | _ | _ | _ | _
  · rw [hregion] at h
    obtain rfl : b = b' := congrArg Prod.snd h
    exact Memory.write_of_read value (congrArg Prod.fst h)
  · rw [hregion] at h
    obtain rfl : b = b' := congrArg Prod.snd h
    exact Memory.write_of_read value (congrArg Prod.fst h)
  · dsimp only
    split <;> rfl
  · rfl
  · rfl
  · rw [hregion] at h
    cases h

/-- The board is a bus on which an access that fails changes nothing, ports included. -/
theorem failsCleanly : Bus.FailsCleanly Board where
  of_read h := read_error h
  of_write h := write_error h
  write_of_read value h := write_of_read value h

end Board
end PlayStation
