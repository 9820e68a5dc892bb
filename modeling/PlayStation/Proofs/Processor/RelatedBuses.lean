import PlayStation.Proofs.Processor.Outcome

/-!
# Ticks on related buses

A processor sees of a bus only the answers to its accesses.  So if two buses are
related in such a way that every access gives the same answer on both and leaves
them related (`Bus.Respects`), a tick on one of them is the same as on the other
(`Processor.tick_alike`).

With a relation that holds only between a bus and itself this says that a tick
keeps whatever every access keeps (`Processor.tick_keeps`).
-/

namespace PlayStation

namespace Bus

variable {β α γ : Type}

/-- Two accesses with one answer, which leave related buses. -/
def Alike (R : β → β → Prop) (x y : α × β) : Prop :=
  ∃ answer a b, x = (answer, a) ∧ y = (answer, b) ∧ R a b

/-- A relation between buses that no access can tell apart. -/
structure Respects [Bus β] (R : β → β → Prop) : Prop where
  read : ∀ {a b : β}, R a b → ∀ width address,
    Alike R (Bus.read a width address) (Bus.read b width address)
  write : ∀ {a b : β}, R a b → ∀ width address value,
    Alike R (Bus.write a width address value) (Bus.write b width address value)

variable {R : β → β → Prop}

/-- The same answer on related buses. -/
theorem Alike.of_same {a b : β} (h : R a b) (answer : α) : Alike R (answer, a) (answer, b) :=
  ⟨answer, a, b, rfl, rfl, h⟩

/-- Equal answers on related buses. -/
theorem Alike.of_eq {x y : α × β} (hanswer : x.1 = y.1) (h : R x.2 y.2) : Alike R x y :=
  ⟨x.1, x.2, y.2, rfl, Prod.ext hanswer.symm rfl, h⟩

/-- What is made of the answer alone stays alike. -/
theorem Alike.map {x y : α × β} (h : Alike R x y) (f : α → γ) :
    Alike R (f x.1, x.2) (f y.1, y.2) := by
  obtain ⟨answer, a, b, rfl, rfl, hR⟩ := h
  exact .of_same hR _

end Bus

variable {β : Type} [Bus β] {R : β → β → Prop} {a b : β}

namespace Processor

open Bus (Alike)

/-! ## Data accesses -/

/-- Data is read alike on related buses. -/
theorem readData_alike (hR : Bus.Respects R) (h : R a b) (p : Processor) (width : Width)
    (address : UInt32) : Alike R (p.readData width address a) (p.readData width address b) := by
  unfold readData
  dsimp only
  split
  · exact .of_same h _
  · obtain ⟨answer, a', b', ha, hb, hafter⟩ := hR.read h width (physicalAddress address)
    rw [ha, hb]
    cases answer <;> exact .of_same hafter _

/-- It is written alike. -/
theorem writeEffect_alike (hR : Bus.Respects R) (h : R a b) (p : Processor) (width : Width)
    (address value : UInt32) :
    Alike R (p.writeEffect width address value a) (p.writeEffect width address value b) := by
  unfold writeEffect
  dsimp only
  split
  · exact .of_same h _
  · split
    · split <;> exact .of_same h _
    · obtain ⟨answer, a', b', ha, hb, hafter⟩ :=
        hR.write h width (physicalAddress address) (width.truncate value)
      rw [ha, hb]
      cases answer <;> exact .of_same hafter _

/-- A word is changed alike. -/
theorem updateEffect_alike (hR : Bus.Respects R) (h : R a b) (p : Processor) (address : UInt32)
    (change : UInt32 → UInt32) :
    Alike R (p.updateEffect address change a) (p.updateEffect address change b) := by
  obtain ⟨answer, a', b', ha, hb, hafter⟩ := readData_alike hR h p .word address
  unfold updateEffect
  rw [ha, hb]
  cases answer with
  | error trap => exact .of_same hafter _
  | ok word => exact writeEffect_alike hR hafter p .word address (change word)

/-- A load brings the same value. -/
theorem loadValue_alike (hR : Bus.Respects R) (h : R a b) (p : Processor) (kind : LoadKind)
    (target : Register) (address : UInt32) :
    Alike R (p.loadValue kind target address a) (p.loadValue kind target address b) := by
  have hread (width : Width) (address : UInt32) := readData_alike hR h p width address
  cases kind with
  | byteUnsigned => exact hread .byte address
  | halfUnsigned => exact hread .half address
  | word => exact hread .word address
  | _ => exact (hread _ _).map _

theorem loadEffect_alike (hR : Bus.Respects R) (h : R a b) (p : Processor) (kind : LoadKind)
    (target : Register) (address : UInt32) :
    Alike R (p.loadEffect kind target address a) (p.loadEffect kind target address b) := by
  unfold loadEffect
  split
  · exact .of_same h _
  · exact (loadValue_alike hR h p kind target address).map _

/-- A store has the same effect. -/
theorem storeEffect_alike (hR : Bus.Respects R) (h : R a b) (p : Processor) (kind : StoreKind)
    (value address : UInt32) :
    Alike R (p.storeEffect kind value address a) (p.storeEffect kind value address b) := by
  unfold storeEffect
  split
  · exact .of_same h _
  · cases kind with
    | wordLeft => exact updateEffect_alike hR h p _ _
    | wordRight => exact updateEffect_alike hR h p _ _
    | _ => exact writeEffect_alike hR h p _ _ _

theorem effect_alike (hR : Bus.Respects R) (h : R a b) (p : Processor) (instruction : Instruction) :
    Alike R (p.effect instruction a) (p.effect instruction b) := by
  cases instruction with
  | load kind target base offset => exact loadEffect_alike hR h p _ _ _
  | store kind source base offset => exact storeEffect_alike hR h p _ _ _
  | _ => exact .of_same h _

/-! ## Fetches -/

/-- The words of a line are read alike, up to the one that cannot be read. -/
theorem readWords_alike (hR : Bus.Respects R) (h : R a b) (base : UInt32) (count : Nat)
    (hcount : count ≤ 4) (line : CacheLine) :
    ∃ answer line' a' b',
      InstructionCache.readWords base count hcount line a = (answer, line', a') ∧
      InstructionCache.readWords base count hcount line b = (answer, line', b') ∧ R a' b' := by
  induction count generalizing a b line with
  | zero => exact ⟨_, _, _, _, rfl, rfl, h⟩
  | succ count ih =>
      unfold InstructionCache.readWords
      dsimp only
      obtain ⟨answer, a', b', ha, hb, hafter⟩ :=
        hR.read h .word (base + 4 * UInt32.ofNat (3 - count))
      rw [ha, hb]
      cases answer with
      | error e => exact ⟨_, _, _, _, rfl, rfl, hafter⟩
      | ok value => exact ih hafter _ _

/-- So the cache fetches alike and holds the same afterwards. -/
theorem cacheFetch_alike (hR : Bus.Respects R) (h : R a b) (c : InstructionCache)
    (address : UInt32) (cached : Bool) :
    ∃ answer c' a' b', c.fetch address cached a = (answer, c', a') ∧
      c.fetch address cached b = (answer, c', b') ∧ R a' b' := by
  unfold InstructionCache.fetch
  split
  · split
    · exact ⟨_, _, _, _, rfl, rfl, h⟩
    · unfold InstructionCache.refill
      dsimp only
      obtain ⟨answer, line, a', b', ha, hb, hafter⟩ := readWords_alike hR h (address &&& ~~~0xF)
        (4 - (InstructionCache.wordIndex address).val) (by omega)
        ((c.line address).invalidate 0 (InstructionCache.wordIndex address).val)
      rw [ha, hb]
      cases answer <;> exact ⟨_, _, _, _, rfl, rfl, hafter⟩
  · obtain ⟨answer, a', b', ha, hb, hafter⟩ := hR.read h .word address
    rw [ha, hb]
    cases answer <;> exact ⟨_, _, _, _, rfl, rfl, hafter⟩

/-- The processor fetches alike. -/
theorem fetch_alike (hR : Bus.Respects R) (h : R a b) (p : Processor) :
    ∃ answer q a' b', p.fetch a = (answer, q, a') ∧ p.fetch b = (answer, q, b') ∧ R a' b' := by
  unfold fetch
  cases p.misalignedFetch with
  | some trap => exact ⟨_, _, _, _, rfl, rfl, h⟩
  | none =>
      dsimp only
      obtain ⟨answer, c, a', b', ha, hb, hafter⟩ :=
        cacheFetch_alike hR h p.cache (physicalAddress p.pc) p.fetchCached
      rw [ha, hb]
      cases answer <;> exact ⟨_, _, _, _, rfl, rfl, hafter⟩

/-! ## Ticks -/

/-- An instruction that is fetched alike is carried out alike. -/
theorem outcome_alike (hR : Bus.Respects R) (h : R a b) (p : Processor) :
    Alike R (p.outcome a) (p.outcome b) := by
  obtain ⟨answer, q, a', b', ha, hb, hafter⟩ := fetch_alike hR h p
  unfold outcome ready
  rw [ha, hb]
  cases answer with
  | error trap => exact .of_same hafter _
  | ok fetched =>
      dsimp only
      split
      · exact .of_same hafter _
      · exact effect_alike hR hafter _ _

/-- **A tick cannot tell related buses apart.** -/
theorem tick_alike (hR : Bus.Respects R) (h : R a b) (p : Processor) :
    (p.tick a).1 = (p.tick b).1 ∧ (p.tick a).2.1 = (p.tick b).2.1 ∧
      R (p.tick a).2.2 (p.tick b).2.2 := by
  obtain ⟨fetched, q, a', b', ha, hb, -⟩ := fetch_alike hR h p
  obtain ⟨result, a'', b'', ha', hb', hafter⟩ := outcome_alike hR h p
  have hready : p.ready a = p.ready b := by
    unfold ready
    rw [ha, hb]
  rw [tick_eq, tick_eq, ha, hb, ha', hb', hready]
  exact ⟨rfl, rfl, hafter⟩

/-- **A tick keeps what every access keeps.** -/
theorem tick_keeps {P : β → Prop}
    (hread : ∀ {bus : β}, P bus → ∀ width address, P (Bus.read bus width address).2)
    (hwrite : ∀ {bus : β}, P bus → ∀ width address value, P (Bus.write bus width address value).2)
    {bus : β} (h : P bus) (p : Processor) : P (p.tick bus).2.2 := by
  have hkeeps : Bus.Respects fun a b : β => a = b ∧ P a := by
    refine ⟨?_, ?_⟩
    · rintro a _ ⟨rfl, ha⟩ width address
      exact ⟨_, _, _, rfl, rfl, rfl, hread ha width address⟩
    · rintro a _ ⟨rfl, ha⟩ width address value
      exact ⟨_, _, _, rfl, rfl, rfl, hwrite ha width address value⟩
  exact (tick_alike hkeeps ⟨rfl, h⟩ p).2.2.2

end Processor
end PlayStation
