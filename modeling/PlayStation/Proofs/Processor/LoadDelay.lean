import PlayStation.Memory
import PlayStation.Proofs.Processor.Outcome

/-!
# The load delay hides the loaded value

While a load is pending, the next tick does not see the value on its way: two
ticks that differ only in that value take the same trap or none, cost the same,
leave the same bus, and leave processors that agree everywhere but in the
loaded register (`pending_load_hidden`).  The register ends up with the loaded
value, unless the instruction of the tick writes the same register, which
makes the two results equal.

The argument: a due load is looked at only by a load that merges into its
register (`effect_setLoads`), so both ticks come to the same outcome, and the
due load shows in nothing but the register file at the end (`settle_conclude`).
-/

namespace PlayStation

namespace Effect

/-- A due load does not survive an effect that writes its register. -/
theorem registers_of_target? {e : Effect} {load : LoadDelay} (regs : Vector UInt32 32)
    (h : e.target? = some load.reg) : e.registers regs (some load) = e.registers regs none := by
  cases e with
  | write target value =>
      obtain rfl : target = load.reg := Option.some.inj h
      simp only [registers, Processor.superseded_self, Processor.superseded_none]
  | schedule target value =>
      obtain rfl : target = load.reg := Option.some.inj h
      simp only [registers, Processor.superseded_self, Processor.superseded_none]
  | transfer link target =>
      obtain _ | ⟨link, value⟩ := link
      · cases h
      · obtain rfl : link = load.reg := Option.some.inj h
        simp only [registers, Processor.superseded_self, Processor.superseded_none]
  | _ => cases h

/-- A due load survives every other effect, and comes last. -/
theorem registers_of_target?_ne {e : Effect} {load : LoadDelay} (regs : Vector UInt32 32)
    (h : e.target? ≠ some load.reg) :
    e.registers regs (some load) = Processor.commit (e.registers regs none) (some load) := by
  cases e with
  | write target value =>
      have hne : load.reg ≠ target := fun heq => h (congrArg some heq.symm)
      simp only [registers, Processor.superseded_of_ne hne, Processor.superseded_none,
        Processor.commit_none]
  | schedule target value =>
      have hne : load.reg ≠ target := fun heq => h (congrArg some heq.symm)
      simp only [registers, Processor.superseded_of_ne hne, Processor.superseded_none,
        Processor.commit_none]
  | transfer link target =>
      obtain _ | ⟨link, value⟩ := link
      · rfl
      · have hne : load.reg ≠ link := fun heq => h (congrArg some heq.symm)
        simp only [registers, Processor.superseded_of_ne hne, Processor.superseded_none,
          Processor.commit_none]
  | _ => rfl

end Effect

namespace Processor

variable {β : Type} [Bus β]

/-- The register file at the end of a tick with the given outcome. -/
def concludedRegisters (regs : Vector UInt32 32) (due : Option LoadDelay) :
    Except Trap Effect → Vector UInt32 32
  | .ok e => e.registers regs due
  | .error _ => commit regs due

/-- The due load shows in the register file and nowhere else. -/
theorem settle_conclude (p : Processor) (due : Option LoadDelay) (result : Except Trap Effect) :
    ((p.setLoads ⟨none, due⟩).conclude result).settle =
      { ((p.setLoads ⟨none, none⟩).conclude result).settle with
        regs := concludedRegisters p.regs due result } := by
  cases result with
  | error trap => simp only [conclude, raise_eq, settle_eq]; rfl
  | ok e =>
      simp only [conclude, settle_apply]
      cases e <;> rfl

/-- The processor with a load of `value` into the register `r` pending. -/
def withPendingLoad (p : Processor) (r : Register) (value : UInt32) : Processor :=
  p.setLoads ⟨some ⟨r, value⟩, none⟩

/-- Both processors are the same but for the register `r`. -/
def AgreeOutside (r : Register) (p q : Processor) : Prop :=
  { q with regs := p.regs } = p ∧ ∀ i : Fin 32, i ≠ slot r → p.regs[i] = q.regs[i]

/-- The tick executes an instruction to its end that writes the register `r`, at
once or by a load. -/
def Overwrites (p : Processor) (bus : β) (r : Register) : Prop :=
  p.trap? bus = none ∧
    ∃ fetched, (p.fetch bus).1 = .ok fetched ∧ (Instruction.decode fetched.word).target? = some r

/-- Fetching does not look at the load latch. -/
theorem fetch_setLoads (p : Processor) (loads : DelayLatch LoadDelay) (bus : β) :
    (p.setLoads loads).fetch bus =
      ((p.fetch bus).1, (p.fetch bus).2.1.setLoads loads, (p.fetch bus).2.2) := by
  have hmisaligned : (p.setLoads loads).misalignedFetch = p.misalignedFetch := rfl
  unfold fetch
  rw [hmisaligned]
  cases p.misalignedFetch with
  | some trap => rfl
  | none =>
      dsimp only [setLoads, fetchCached]
      rcases p.cache.fetch _ _ bus with ⟨_ | _, _, _⟩ <;> rfl

/-- What falls due in a tick is the load that was pending before it. -/
theorem ready_setLoads (p : Processor) (bus : β) (pending : Option LoadDelay) :
    (p.setLoads ⟨pending, none⟩).ready bus = (p.ready bus).setLoads ⟨none, pending⟩ := by
  unfold ready
  rw [fetch_setLoads]
  rfl

/-- Making an instruction ready moves the pending load into the latch that falls due. -/
theorem ready_withPendingLoad (p : Processor) (bus : β) (r : Register) (value : UInt32) :
    (p.withPendingLoad r value).ready bus = (p.ready bus).setLoads ⟨none, some ⟨r, value⟩⟩ :=
  ready_setLoads p bus _

/-- A tick comes to the same, whatever value is pending. -/
theorem outcome_withPendingLoad (p : Processor) (bus : β) {r : Register} (v w : UInt32)
    (hmerge : ∀ fetched, (p.fetch bus).1 = .ok fetched →
      (Instruction.decode fetched.word).mergesInto r = false) :
    (p.withPendingLoad r v).outcome bus = (p.withPendingLoad r w).outcome bus := by
  unfold outcome
  simp only [ready_withPendingLoad]
  simp only [withPendingLoad, fetch_setLoads]
  rcases h : (p.fetch bus).1 with trap | fetched
  · rfl
  · dsimp only
    rw [effect_setLoads _ none ⟨r, v⟩ ⟨r, w⟩ rfl _ (hmerge fetched h)]
    rfl

/-- The tick of a processor with other loads pending, its register file apart. -/
theorem tick_setLoads (p : Processor) (bus : β) (pending : Option LoadDelay) :
    (p.setLoads ⟨pending, none⟩).tick bus =
      (fetchCycles (p.fetch bus).1 + 1,
        { (((p.ready bus).setLoads ⟨none, none⟩).conclude
            ((p.setLoads ⟨pending, none⟩).outcome bus).1).settle with
          regs := concludedRegisters p.regs pending
            ((p.setLoads ⟨pending, none⟩).outcome bus).1 },
        ((p.setLoads ⟨pending, none⟩).outcome bus).2) := by
  have hregs : (p.ready bus).regs = p.regs := by rw [ready_eq]
  rw [tick_eq, ready_setLoads, settle_conclude, hregs, fetch_setLoads]

theorem tick_withPendingLoad (p : Processor) (bus : β) (r : Register) (value : UInt32) :
    (p.withPendingLoad r value).tick bus =
      (fetchCycles (p.fetch bus).1 + 1,
        { (((p.ready bus).setLoads ⟨none, none⟩).conclude
            ((p.withPendingLoad r value).outcome bus).1).settle with
          regs := concludedRegisters p.regs (some ⟨r, value⟩)
            ((p.withPendingLoad r value).outcome bus).1 },
        ((p.withPendingLoad r value).outcome bus).2) :=
  tick_setLoads p bus _

/-- Ticks that come to the same outcome write the same registers. -/
theorem overwrites_withPendingLoad_iff {p : Processor} {bus : β} {r : Register} {v w : UInt32}
    (hout : (p.withPendingLoad r v).outcome bus = (p.withPendingLoad r w).outcome bus)
    (s : Register) :
    (p.withPendingLoad r v).Overwrites bus s ↔ (p.withPendingLoad r w).Overwrites bus s := by
  unfold Overwrites
  rw [trap?_eq, trap?_eq, hout]
  simp only [withPendingLoad, fetch_setLoads]

/-- The register file that a tick leaves when nothing in it writes the register
of the pending load. -/
theorem concludedRegisters_of_not_overwrites {p : Processor} {bus : β} {r : Register}
    {value : UInt32} (h : ¬ (p.withPendingLoad r value).Overwrites bus r) :
    ∃ regs, concludedRegisters p.regs (some ⟨r, value⟩)
      ((p.withPendingLoad r value).outcome bus).1 = commit regs (some ⟨r, value⟩) := by
  rcases htrap : (p.withPendingLoad r value).trap? bus with _ | trap
  · obtain ⟨fetched, e, hfetch, he, heffect⟩ := outcome_of_trap?_eq_none htrap
    have hne : e.target? ≠ some r := by
      rw [(effectOf_of_effect heffect).target]
      exact fun htarget => h ⟨htrap, fetched, hfetch, htarget⟩
    rw [he]
    exact ⟨_, Effect.registers_of_target?_ne p.regs hne⟩
  · rw [trap?_eq_some_iff.mp htrap]
    exact ⟨p.regs, rfl⟩

/-- A tick that writes the register of the pending load leaves the registers that
it would leave without that load. -/
theorem concludedRegisters_of_overwrites {p : Processor} {bus : β} {r : Register}
    {value : UInt32} (h : (p.withPendingLoad r value).Overwrites bus r) :
    concludedRegisters p.regs (some ⟨r, value⟩) ((p.withPendingLoad r value).outcome bus).1 =
      concludedRegisters p.regs none ((p.withPendingLoad r value).outcome bus).1 := by
  obtain ⟨htrap, fetched', hfetch', htarget⟩ := h
  obtain ⟨fetched, e, hfetch, he, heffect⟩ := outcome_of_trap?_eq_none htrap
  obtain rfl : fetched = fetched' := Except.ok.inj (hfetch.symm.trans hfetch')
  have hwrites : e.target? = some r := (effectOf_of_effect heffect).target.trans htarget
  rw [he]
  exact Effect.registers_of_target? p.regs hwrites

/-- Only the register of the due load can tell two values of it apart. -/
theorem concludedRegisters_congr (regs : Vector UInt32 32) (result : Except Trap Effect)
    {r : Register} (v w : UInt32) {i : Fin 32} (hi : i ≠ slot r) :
    (concludedRegisters regs (some ⟨r, v⟩) result)[i] =
      (concludedRegisters regs (some ⟨r, w⟩) result)[i] := by
  have hcommit (regs : Vector UInt32 32) :
      (commit regs (some ⟨r, v⟩)).get i = (commit regs (some ⟨r, w⟩)).get i := by
    rw [get_commit_of_ne regs hi.symm, get_commit_of_ne regs hi.symm]
  cases result with
  | error trap => exact hcommit regs
  | ok e =>
      by_cases htarget : e.target? = some r
      · have hlost (value : UInt32) :
            e.registers regs (some ⟨r, value⟩) = e.registers regs none :=
          Effect.registers_of_target? regs htarget
        simp only [concludedRegisters, hlost]
      · have hkept (value : UInt32) : e.registers regs (some ⟨r, value⟩) =
            commit (e.registers regs none) (some ⟨r, value⟩) :=
          Effect.registers_of_target?_ne regs htarget
        simp only [concludedRegisters, hkept]
        exact hcommit _

/-- **A pending load is hidden for one tick.**  Take two processors that differ
only in the value `v` or `w` of a pending load into the register `r`, and let
the fetched instruction be none that merges into `r`.  Their ticks cost the
same, take the same trap or none, leave the same bus and agree in everything
but the register `r`.  If the instruction writes `r`, then `r` is the same in
both as well; otherwise it is `v` and `w`. -/
theorem pending_load_hidden (p : Processor) (bus : β) {r : Register} (hr : 0 < r) (v w : UInt32)
    (hmerge : ∀ fetched, (p.fetch bus).1 = .ok fetched →
      (Instruction.decode fetched.word).mergesInto r = false) :
    let a := p.withPendingLoad r v
    let b := p.withPendingLoad r w
    (a.tick bus).1 = (b.tick bus).1 ∧ a.trap? bus = b.trap? bus ∧
      (a.tick bus).2.2 = (b.tick bus).2.2 ∧
      AgreeOutside r (a.tick bus).2.1 (b.tick bus).2.1 ∧
      (a.Overwrites bus r → (a.tick bus).2.1.reg r = (b.tick bus).2.1.reg r) ∧
      (¬ a.Overwrites bus r → (a.tick bus).2.1.reg r = v ∧ (b.tick bus).2.1.reg r = w) := by
  intro a b
  -- The instruction reads the registers before the load arrives, so its outcome is the same.
  have hne : r ≠ 0 := UInt8.pos_iff_ne_zero.mp hr
  have hout : a.outcome bus = b.outcome bus := outcome_withPendingLoad p bus v w hmerge
  have ha := tick_withPendingLoad p bus r v
  have hb := tick_withPendingLoad p bus r w
  rw [show (p.withPendingLoad r v).outcome bus = b.outcome bus from hout] at ha
  refine ⟨by rw [ha, hb], by rw [trap?_eq, trap?_eq, hout], by rw [ha, hb], ?_, ?_, ?_⟩
  · rw [ha, hb]
    exact ⟨rfl, fun i hi => concludedRegisters_congr p.regs _ v w hi⟩
  · intro h
    have hregs := concludedRegisters_of_overwrites h
    have hregs' := concludedRegisters_of_overwrites ((overwrites_withPendingLoad_iff hout r).mp h)
    rw [show (p.withPendingLoad r v).outcome bus = b.outcome bus from hout] at hregs
    rw [reg_of_ne_zero _ hne, reg_of_ne_zero _ hne, ha, hb]
    dsimp only
    rw [hregs, hregs']
  · intro h
    obtain ⟨regs, hregs⟩ := concludedRegisters_of_not_overwrites h
    obtain ⟨regs', hregs'⟩ := concludedRegisters_of_not_overwrites
      (mt (overwrites_withPendingLoad_iff hout r).mpr h)
    rw [show (p.withPendingLoad r v).outcome bus = b.outcome bus from hout] at hregs
    rw [reg_of_ne_zero _ hne, reg_of_ne_zero _ hne, ha, hb]
    dsimp only
    rw [hregs, hregs']
    exact ⟨get_commit_self regs ⟨r, v⟩, get_commit_self regs' ⟨r, w⟩⟩

/-- The word `lw r2, 0(r1)` at address 0: a load whose address register is the
one that a load is pending for. -/
theorem pending_load_hidden_from_next_load :
    let p := (Processor.initial .ignore).setPc 0
    let ram : Memory := ⟨#[0, 0, 0x22, 0x8C]⟩
    (0 : Register) < 1 ∧
      (∀ fetched, (p.fetch ram).1 = .ok fetched →
        (Instruction.decode fetched.word).mergesInto 1 = false) ∧
      AgreeOutside 1 ((p.withPendingLoad 1 7).tick ram).2.1 ((p.withPendingLoad 1 9).tick ram).2.1 ∧
      ((p.withPendingLoad 1 7).tick ram).2.1.reg 1 = 7 := by
  intro p ram
  have hread : Bus.read ram .word (physicalAddress p.pc) = (.ok 0x8C220000, ram) := by
    rw [show physicalAddress p.pc = 0 by decide]
    dsimp only [ram]
    rfl
  have hword : p.fetch ram = (.ok ⟨0x8C220000, 4⟩, p, ram) :=
    fetch_of_uncached (by decide) (by decide) hread
  have hmerge : ∀ fetched, (p.fetch ram).1 = .ok fetched →
      (Instruction.decode fetched.word).mergesInto 1 = false := by
    intro fetched h
    rw [hword] at h
    cases h
    decide
  obtain ⟨-, -, -, hagree, -, hkept⟩ := pending_load_hidden p ram (by decide) 7 9 hmerge
  have hother : ¬ (p.withPendingLoad 1 7).Overwrites ram 1 := by
    rintro ⟨-, fetched, h, htarget⟩
    rw [withPendingLoad, fetch_setLoads, hword] at h
    cases h
    revert htarget
    decide
  exact ⟨by decide, hmerge, hagree, (hkept hother).1⟩

end Processor
end PlayStation
