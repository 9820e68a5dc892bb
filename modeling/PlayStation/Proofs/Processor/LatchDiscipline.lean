import PlayStation.Proofs.Processor.BranchDelay
import PlayStation.Proofs.Processor.ControlChanges
import PlayStation.Proofs.Processor.LoadDelay

/-!
# The discipline of register 0 and of the latches

Registers are written on three ways: at once, by a due load at the end of a tick, and
by a due load that a second load pushes out.  None of them ever reaches register 0, as
long as the changes from outside name registers that exist (`Disciplined`).

Between operations nothing is due, so what falls due in a tick is what was pending
before it, and the tick decides its fate (`Fate`):

* a load reaches its register, is superseded by a load of the same register, or is
  dropped by a direct write to it (`fate_of_load`);
* a branch is taken, is superseded by a newer one, or is dropped by a trap
  (`fate_of_branch`).

The main result, `latch_discipline`, says this of every run from power-on.
-/

namespace PlayStation

namespace Processor

/-- The change names a register that exists, if it names one. -/
def Change.InRange : Change → Prop
  | .setReg index _ | .setRegDelayed index _ => index < 32
  | _ => True

/-- Ticks are arbitrary; changes from outside name registers that exist. -/
def Event.InRange : Event → Prop
  | @Event.tick _ _ _ => True
  | .change c => c.InRange

/-! ## Register 0 -/

variable {β : Type} [Bus β]

/-- No index from 1 to 31 leads to register 0. -/
theorem slot_ne_zero {r : Register} (hr : r < 32) (hne : r ≠ 0) : slot r ≠ 0 :=
  slot_ne hr (by decide : (0 : Register) < 32) hne

/-- A write leaves register 0 as it is. -/
theorem get_zero_written (regs : Vector UInt32 32) {index : Register} (hindex : index < 32)
    (value : UInt32) : (written regs index value).get 0 = regs.get 0 := by
  by_cases hzero : index = 0
  · rw [written, if_pos hzero]
  · rw [written, if_neg hzero]
    have hslot : slot (⟨index, value⟩ : LoadDelay).reg ≠ 0 := slot_ne_zero hindex hzero
    exact get_commit_of_ne regs hslot

/-- A load for a register other than 0. -/
def LoadsRegister (load : LoadDelay) : Prop :=
  load.reg ≠ 0 ∧ load.reg < 32

theorem get_zero_commit (regs : Vector UInt32 32) {due : Option LoadDelay}
    (hdue : ∀ load, due = some load → LoadsRegister load) :
    (commit regs due).get 0 = regs.get 0 := by
  cases due with
  | none => rfl
  | some load =>
      obtain ⟨hne, hlt⟩ := hdue load rfl
      exact get_commit_of_ne regs (slot_ne_zero hlt hne)

/-- A load that is not superseded is the one that was due. -/
theorem of_superseded {due : Option LoadDelay} {index : Register} {load : LoadDelay}
    (h : superseded due index = some load) : due = some load :=
  (Option.filter_eq_some_iff.mp h).1

/-- No effect of an encoded instruction reaches register 0. -/
theorem get_zero_registers (regs : Vector UInt32 32) {due : Option LoadDelay} {e : Effect}
    (htarget : ∀ r, e.target? = some r → r < 32)
    (hdue : ∀ load, due = some load → LoadsRegister load) :
    (e.registers regs due).get 0 = regs.get 0 := by
  have hdue' (index : Register) : ∀ load, superseded due index = some load → LoadsRegister load :=
    fun load h => hdue load (of_superseded h)
  cases e with
  | write target value =>
      exact (get_zero_commit _ (hdue' target)).trans
        (get_zero_written regs (htarget target rfl) value)
  | schedule target value => exact get_zero_commit regs (hdue' target)
  | transfer link target =>
      obtain _ | ⟨link, value⟩ := link
      · exact get_zero_commit regs hdue
      · exact (get_zero_commit _ (hdue' link)).trans
          (get_zero_written regs (htarget link rfl) value)
  | _ => exact get_zero_commit regs hdue

/-- No load is scheduled for register 0. -/
theorem ne_zero_of_load? {e : Effect} (htarget : ∀ r, e.target? = some r → r < 32)
    {load : LoadDelay} (h : e.load? = some load) : load.reg ≠ 0 := by
  cases e with
  | schedule target value =>
      unfold Effect.load? at h
      dsimp only at h
      split at h
      · cases h
      · rename_i hne
        cases h
        rwa [slot_toUInt8 (htarget target rfl)]
  | _ => cases h

/-- The load that an instruction schedules is the one it leaves pending, once the latch has
advanced. -/
theorem pendingLoad_settle_apply {p : Processor} (hnext : p.loads.next = none) (e : Effect) :
    (p.apply e).settle.pendingLoad = e.load? := by
  rw [settle_apply, pendingLoad, hnext]
  dsimp only
  rw [Option.orElse_eq_orElse, Option.orElse_eq_or, Option.or_none]

/-- What every run keeps of register 0: its slot holds 0, and no load is pending for it. -/
structure Disciplined (p : Processor) : Prop where
  reachable : Reachable p
  zero : p.regs.get 0 = 0
  load_ne_zero : ∀ load, p.pendingLoad = some load → load.reg ≠ 0

namespace Disciplined

/-- The latches are in order at power-on. -/
theorem initial (policy : UnknownOpcode) : Disciplined (.initial policy) :=
  ⟨.initial policy, rfl, by rintro _ ⟨⟩⟩

variable {p : Processor}

/-- The load in the latch is for a register from 1 to 31. -/
theorem loadsRegister (h : Disciplined p) (load : LoadDelay) (hload : p.pendingLoad = some load) :
    LoadsRegister load :=
  ⟨h.load_ne_zero load hload, h.reachable.settled.load_reg load hload⟩

/-- A tick keeps the latches in order, on any bus. -/
theorem tick (h : Disciplined p) (bus : β) : Disciplined (p.tick bus).2.1 := by
  rcases htrap : p.trap? bus with _ | trap
  · obtain ⟨fetched, e, -, he, heffect⟩ := outcome_of_trap?_eq_none htrap
    have htarget (r : Register) (hr : e.target? = some r) : r < 32 :=
      target?_lt_of_decode ((effectOf_of_effect heffect).target ▸ hr)
    have htick : (p.tick bus).2.1 = ((p.ready bus).apply e).settle := by rw [tick_eq, he]; rfl
    refine ⟨.tick bus h.reachable, ?_, ?_⟩
    · rw [htick, settle_apply, ready_eq]
      exact (get_zero_registers p.regs htarget h.loadsRegister).trans h.zero
    · have hnext : (p.ready bus).loads.next = none := by rw [ready_eq]
      rw [htick, pendingLoad_settle_apply hnext]
      exact fun load => ne_zero_of_load? htarget
  · refine ⟨.tick bus h.reachable, ?_, ?_⟩
    · rw [tick_of_trap?_eq_some htrap]
      exact (get_zero_commit p.regs h.loadsRegister).trans h.zero
    · rw [tick_of_trap?_eq_some htrap]
      rintro _ ⟨⟩

/-- So does a change from outside with an index in range. -/
theorem change (h : Disciplined p) {change : Change} (hrange : change.InRange) :
    Disciplined (p.change change) := by
  refine ⟨h.reachable.perform (.change change), ?_, ?_⟩
  · cases change with
    | setReg index value =>
        rw [Processor.change, setReg_eq]
        exact (get_zero_written p.regs hrange value).trans h.zero
    | setRegDelayed index value =>
        rw [Processor.change, setRegDelayed_eq, h.reachable.settled.load_not_due]
        exact h.zero
    | reset => exact (Disciplined.initial p.unknownOpcode).zero
    | _ => exact h.zero
  · cases change with
    | setReg index value =>
        rw [Processor.change, setReg_eq]
        exact h.load_ne_zero
    | setRegDelayed index value =>
        rw [Processor.change, setRegDelayed_eq]
        intro load hload
        dsimp only [pendingLoad] at hload
        split at hload
        · exact h.load_ne_zero load hload
        · rename_i hne
          cases hload
          rwa [slot_toUInt8 hrange]
    | reset => rintro _ ⟨⟩
    | _ => exact h.load_ne_zero

theorem perform (h : Disciplined p) {event : Event} (hrange : event.InRange) :
    Disciplined (p.perform event) := by
  cases event with
  | tick bus => exact h.tick bus
  | change change => exact h.change hrange

theorem performAll (h : Disciplined p) {events : List Event}
    (hrange : ∀ event ∈ events, event.InRange) : Disciplined (p.performAll events) := by
  induction events generalizing p with
  | nil => exact h
  | cons event later ih =>
      have hfirst : Disciplined (p.perform event) := h.perform (hrange event List.mem_cons_self)
      exact ih hfirst fun event' h' => hrange event' (List.mem_cons_of_mem event h')

end Disciplined

end Processor

/-! ## The fate of what is pending -/

/-- What becomes, in the next tick, of what is pending. -/
inductive Fate where
  /-- It takes effect. -/
  | committed
  /-- Its place goes to another one, which takes effect later. -/
  | superseded
  /-- It never takes effect, and nothing takes its place. -/
  | dropped
  deriving DecidableEq, Repr

/-- Whether an instruction writes its register through the load latch. -/
def Instruction.delays : Instruction → Bool
  | .load .. | .moveFromControl .. => true
  | _ => false

/-- The fate of a due load for the register `r`, by the instruction that the tick
completes. -/
def Fate.ofLoad (r : Register) : Option Instruction → Fate
  | none => committed
  | some instruction =>
      if instruction.target? = some r then
        if instruction.delays then superseded else dropped
      else committed

namespace Processor

variable {β : Type} [Bus β]

/-- A direct write leaves no load pending. -/
theorem load?_of_direct {p : Processor} {instruction : Instruction} {bus bus' : β} {e : Effect}
    (h : p.effect instruction bus = (.ok e, bus')) {r : Register}
    (htarget : instruction.target? = some r) (hdelays : instruction.delays = false) :
    e.load? = none := by
  have hlocal := congrArg Prod.fst h
  cases instruction with
  | addChecked target a b =>
      obtain ⟨value, rfl⟩ := checkedEffect_eq_ok hlocal
      rfl
  | subtractChecked target a b =>
      obtain ⟨value, rfl⟩ := checkedEffect_eq_ok hlocal
      rfl
  | addCheckedImmediate target a value =>
      obtain ⟨value, rfl⟩ := checkedEffect_eq_ok hlocal
      rfl
  | load kind target base offset => cases hdelays
  | moveFromControl target index => cases hdelays
  -- What is left writes at once, or names no target.
  | _ => first | (cases hlocal; rfl) | cases htarget

/-- A delayed write leaves one pending. -/
theorem schedule_of_delays {p : Processor} {instruction : Instruction} {bus bus' : β} {e : Effect}
    (h : p.effect instruction bus = (.ok e, bus')) (hdelays : instruction.delays = true) :
    ∃ target value, e = .schedule target value := by
  cases instruction with
  | load kind target base offset =>
      obtain ⟨value, rfl⟩ := loadEffect_eq_ok h
      exact ⟨target, value, rfl⟩
  | moveFromControl target index =>
      cases h
      exact ⟨_, _, rfl⟩
  | _ => cases hdelays

/-- A due load whose value its register holds already is as good as none. -/
theorem effect_setLoads_reg (p : Processor) (next : Option LoadDelay) (r : Register)
    (instruction : Instruction) (bus : β) :
    (p.setLoads ⟨next, some ⟨r, p.reg r⟩⟩).effect instruction bus =
      (p.setLoads ⟨next, none⟩).effect instruction bus := by
  have hbase (target : Register) : (p.setLoads ⟨next, some ⟨r, p.reg r⟩⟩).mergeBase target =
      (p.setLoads ⟨next, none⟩).mergeBase target := by
    simp only [mergeBase, setLoads]
    split
    · rename_i heq
      subst heq
      rfl
    · rfl
  cases instruction with
  | load kind target base offset =>
      have hvalue (address : UInt32) :
          (p.setLoads ⟨next, some ⟨r, p.reg r⟩⟩).loadValue kind target address bus =
            (p.setLoads ⟨next, none⟩).loadValue kind target address bus := by
        simp only [loadValue, hbase]
        rfl
      simp only [effect, loadEffect, hvalue]
      rfl
  | _ => rfl

/-- The load latch decides what a merging load writes, and nothing else about it. -/
theorem loadEffect_merging (p : Processor) (loads loads' : DelayLatch LoadDelay) {kind : LoadKind}
    (hkind : kind = .wordLeft ∨ kind = .wordRight) (target : Register) (address : UInt32)
    (bus : β) :
    (p.setLoads loads).loadEffect kind target address bus =
        (p.setLoads loads').loadEffect kind target address bus ∨
      ∃ v w after,
        (p.setLoads loads).loadEffect kind target address bus =
            (.ok (.schedule target v), after) ∧
          (p.setLoads loads').loadEffect kind target address bus =
            (.ok (.schedule target w), after) := by
  have hread : (p.setLoads loads').readData .word (address &&& ~~~3) bus =
      (p.setLoads loads).readData .word (address &&& ~~~3) bus := rfl
  unfold loadEffect
  split
  · exact Or.inl rfl
  · rcases hkind with rfl | rfl
    all_goals
      simp only [loadValue, hread]
      rcases (p.setLoads loads).readData .word (address &&& ~~~3) bus with ⟨trap | word, after⟩
      · exact Or.inl rfl
      · exact Or.inr ⟨_, _, after, rfl, rfl⟩

/-- Whether a load is due, and which, shows in the effect of an instruction only if that
is a load which merges into the register of the due one, and then only in its value. -/
theorem effect_due (p : Processor) (next : Option LoadDelay) (due : LoadDelay)
    (instruction : Instruction) (bus : β) :
    (p.setLoads ⟨next, some due⟩).effect instruction bus =
        (p.setLoads ⟨next, none⟩).effect instruction bus ∨
      instruction.delays = true ∧ instruction.target? = some due.reg ∧
      ∃ v w after,
        (p.setLoads ⟨next, some due⟩).effect instruction bus =
            (.ok (.schedule due.reg v), after) ∧
          (p.setLoads ⟨next, none⟩).effect instruction bus =
            (.ok (.schedule due.reg w), after) := by
  by_cases hmerge : instruction.mergesInto due.reg = true
  · have hshape : ∃ kind base offset, (kind = .wordLeft ∨ kind = .wordRight) ∧
        instruction = .load kind due.reg base offset := by
      unfold Instruction.mergesInto at hmerge
      split at hmerge
      · obtain rfl := of_decide_eq_true hmerge
        exact ⟨_, _, _, Or.inl rfl, rfl⟩
      · obtain rfl := of_decide_eq_true hmerge
        exact ⟨_, _, _, Or.inr rfl, rfl⟩
      · cases hmerge
    obtain ⟨kind, base, offset, hkind, rfl⟩ := hshape
    rcases loadEffect_merging p ⟨next, some due⟩ ⟨next, none⟩ hkind due.reg (p.reg base + offset)
      bus with hsame | hvalues
    · exact Or.inl hsame
    · exact Or.inr ⟨rfl, rfl, hvalues⟩
  · left
    rw [← effect_setLoads_reg p next due.reg instruction bus]
    exact effect_setLoads p next due ⟨due.reg, p.reg due.reg⟩ rfl instruction
      (Bool.eq_false_iff.mpr hmerge) bus

/-- What a tick comes to with the load `due` falling due and without it. -/
theorem outcome_due (p : Processor) (bus : β) (due : LoadDelay) :
    (p.setLoads ⟨some due, none⟩).outcome bus = (p.setLoads ⟨none, none⟩).outcome bus ∨
      ∃ fetched v w after, (p.fetch bus).1 = .ok fetched ∧
        (Instruction.decode fetched.word).delays = true ∧
        (Instruction.decode fetched.word).target? = some due.reg ∧
        (p.setLoads ⟨some due, none⟩).outcome bus = (.ok (.schedule due.reg v), after) ∧
        (p.setLoads ⟨none, none⟩).outcome bus = (.ok (.schedule due.reg w), after) := by
  unfold outcome
  simp only [ready_setLoads, fetch_setLoads]
  rcases hfetch : (p.fetch bus).1 with trap | fetched
  · exact Or.inl rfl
  · dsimp only
    have hcontrol (loads : DelayLatch LoadDelay) :
        ((p.ready bus).setLoads loads).control = (p.ready bus).control := rfl
    simp only [hcontrol]
    by_cases hinterrupt : (p.ready bus).control.interruptPending = true
    · simp only [if_pos hinterrupt]
      exact Or.inl trivial
    · simp only [if_neg hinterrupt]
      rcases effect_due (p.ready bus) none due (.decode fetched.word) (p.fetch bus).2.2 with
        hsame | ⟨hdelays, htarget, v, w, after, hv, hw⟩
      · exact Or.inl hsame
      · exact Or.inr ⟨fetched, v, w, after, rfl, hdelays, htarget, hv, hw⟩

/-- What the fate of a due load means for the processor after the tick, by the
processor that the tick would leave without that load. -/
def LoadMeets (load : LoadDelay) (without after : Processor) : Fate → Prop
  | .committed => after = { without with regs := commit without.regs (some load) }
  | .superseded => ∃ value, after.pendingLoad = some ⟨load.reg, value⟩ ∧
      after = { without with loads := after.loads }
  | .dropped => after = without ∧ after.pendingLoad = none

/-- **A pending load meets its fate in the next tick**, whatever the tick does. -/
theorem fate_of_load {p : Processor} {load : LoadDelay} (hload : p.pendingLoad = some load)
    (hcurrent : p.loads.current = none) (hreg : LoadsRegister load) (bus : β) :
    LoadMeets load ((p.setLoads .empty).tick bus).2.1 (p.tick bus).2.1
      (.ofLoad load.reg (p.completed? bus)) := by
  have hp : p.setLoads ⟨some load, none⟩ = p := by
    have hloads : p.loads = ⟨some load, none⟩ := by
      rw [← hload, ← hcurrent]
      rfl
    rw [← hloads]
    rfl
  have hscheduled (value : UInt32) :
      (Effect.schedule load.reg value).load? = some ⟨load.reg, value⟩ := by
    rw [Effect.load?, if_neg hreg.1, slot_toUInt8 hreg.2]
  have hafter := tick_setLoads p bus (some load)
  have hwithout := tick_setLoads p bus none
  have hout := outcome_due p bus load
  rw [hp] at hafter hout
  rw [DelayLatch.empty, hafter, hwithout]
  dsimp only
  -- Only an instruction that merges into the register of the load sees the load.
  rcases hout with hsame | ⟨fetched, v, w, after, hfetch, hdelays, htarget, hv, hw⟩
  · rw [← hsame]
    rcases htrap : p.trap? bus with _ | trap
    · obtain ⟨fetched, e, hfetch, he, heffect⟩ := outcome_of_trap?_eq_none htrap
      have hwrites := (effectOf_of_effect heffect).target
      rw [completed?_of_trap? htrap, hfetch, fetchedWord, he]
      dsimp only [concludedRegisters, conclude, Fate.ofLoad]
      by_cases htarget : (Instruction.decode fetched.word).target? = some load.reg
      · rw [if_pos htarget, Effect.registers_of_target? p.regs (hwrites.trans htarget)]
        by_cases hdelays : (Instruction.decode fetched.word).delays = true
        · obtain ⟨target, value, rfl⟩ := schedule_of_delays heffect hdelays
          obtain rfl : target = load.reg := Option.some.inj (hwrites.trans htarget)
          rw [if_pos hdelays]
          exact ⟨value, (pendingLoad_settle_apply rfl _).trans (hscheduled value), rfl⟩
        · rw [if_neg hdelays]
          exact ⟨rfl, (pendingLoad_settle_apply rfl e).trans
            (load?_of_direct heffect htarget (Bool.eq_false_iff.mpr hdelays))⟩
      · rw [if_neg htarget, Effect.registers_of_target?_ne p.regs (mt hwrites.symm.trans htarget)]
        rfl
    · rw [completed?, htrap, trap?_eq_some_iff.mp htrap]
      rfl
  · have htrap : p.trap? bus = none := by rw [trap?_eq, hv]
    rw [completed?_of_trap? htrap, hfetch, fetchedWord, hv, hw]
    dsimp only [Fate.ofLoad]
    rw [if_pos htarget, if_pos hdelays]
    refine ⟨v, (pendingLoad_settle_apply rfl _).trans (hscheduled v), ?_⟩
    have hlost : (Effect.schedule load.reg v).registers p.regs (some load) =
        (Effect.schedule load.reg v).registers p.regs none :=
      Effect.registers_of_target? p.regs rfl
    dsimp only [concludedRegisters, conclude]
    rw [hlost, settle_apply, settle_apply]
    rfl

end Processor

/-- The fate of a due branch, by the trap that the tick takes and the branch that its
instruction decides. -/
def Fate.ofBranch : Option Trap → Option UInt32 → Fate
  | some _, _ => dropped
  | none, some _ => superseded
  | none, none => committed

namespace Processor

variable {β : Type} [Bus β]

/-- What the fate of a branch to `target` that is due in a tick of `p` means for the
processor after the tick. -/
def BranchMeets (p : Processor) (bus : β) (target : UInt32) (after : Processor) : Fate → Prop
  | .committed => after.pc = target ∧ after.pendingBranch = none
  | .superseded => ∃ newer, p.decision (fetchedWord (p.fetch bus).1) = some newer ∧
      after.pc = p.pc + 4 ∧ after.pendingBranch = some newer
  | .dropped => ∃ trap, p.trap? bus = some trap ∧
      after.pc = (p.entered trap).handler ∧ after.pendingBranch = none

/-- **A pending branch meets its fate in the next tick.** -/
theorem fate_of_branch {p : Processor} (hp : Settled p) {target : UInt32}
    (hbranch : p.pendingBranch = some target) (bus : β) :
    p.BranchMeets bus target (p.tick bus).2.1
      (.ofBranch (p.trap? bus) (p.decision (fetchedWord (p.fetch bus).1))) := by
  rcases htrap : p.trap? bus with _ | trap
  · obtain ⟨fetched, hfetch, hflow⟩ := flow_tick hp htrap
    have hnext := hflow.next
    have hpending := hflow.pending
    rw [hfetch, fetchedWord]
    rcases hdecision : p.decision fetched.word with _ | newer
    · rw [hdecision, hbranch] at hnext
      exact ⟨hnext, hpending.trans hdecision⟩
    · rw [hdecision] at hnext
      refine ⟨newer, ?_, hnext, hpending.trans hdecision⟩
      rw [hfetch, fetchedWord, hdecision]
  · refine ⟨trap, htrap, ?_⟩
    rw [tick_of_trap?_eq_some htrap]
    exact ⟨rfl, rfl⟩

/-! ## Changes from outside -/

/-- The load that is pending after a change from outside. -/
def Change.loadAfter (pending : Option LoadDelay) : Change → Option LoadDelay
  | setRegDelayed index value => if index = 0 then pending else some ⟨index, value⟩
  | reset => none
  | _ => pending

/-- The branch that is pending after a change from outside. -/
def Change.branchAfter (pending : Option UInt32) : Change → Option UInt32
  | setPc _ | enterHandler _ | reset => none
  | _ => pending

/-- Changes from outside drop what is pending, or replace it, or leave it alone; none of
them lets it take effect. -/
theorem pending_change (p : Processor) {change : Change} (hrange : change.InRange) :
    (p.change change).pendingLoad = change.loadAfter p.pendingLoad ∧
      (p.change change).pendingBranch = change.branchAfter p.pendingBranch := by
  cases change with
  | setReg index value =>
      rw [Processor.change, setReg_eq]
      exact ⟨rfl, rfl⟩
  | setRegDelayed index value =>
      rw [Processor.change, setRegDelayed_eq, slot_toUInt8 hrange]
      exact ⟨rfl, rfl⟩
  | _ => exact ⟨rfl, rfl⟩

/-! ## Every run -/

/-- **Register 0 and the latches keep their discipline.**  Let a run from power-on lead
to `p`, by ticks on any buses and changes from outside that name registers that exist.

* The slot of register 0 holds 0, and a pending load names one of the others.
* Nothing is due: no latch has anything to drop when a tick advances it, and no caller
  sees the processor in a delay slot.
* In the next tick a pending load and a pending branch meet their fate, exactly one
  each: `Fate.ofLoad` tells it from the instruction that the tick completes,
  `Fate.ofBranch` from the trap and the decision.
* A change from outside leaves pending what `Change.loadAfter` and `Change.branchAfter`
  say. -/
theorem latch_discipline (policy : UnknownOpcode) {events : List Event}
    (hrange : ∀ event ∈ events, event.InRange) :
    let p := (Processor.initial policy).performAll events
    p.regs.get 0 = 0 ∧
    (∀ load, p.pendingLoad = some load → 0 < load.reg ∧ load.reg < 32) ∧
    p.loads.current = none ∧ p.branches.current = none ∧ p.inDelaySlot = false ∧
    (∀ {β : Type} [Bus β] (bus : β),
      (p.fetch bus).2.1.loads.current = none ∧ (p.fetch bus).2.1.branches.current = none ∧
      (∀ load, p.pendingLoad = some load →
        LoadMeets load ((p.setLoads .empty).tick bus).2.1 (p.tick bus).2.1
          (.ofLoad load.reg (p.completed? bus))) ∧
      ∀ target, p.pendingBranch = some target →
        p.BranchMeets bus target (p.tick bus).2.1
          (.ofBranch (p.trap? bus) (p.decision (fetchedWord (p.fetch bus).1)))) ∧
    ∀ change : Change, change.InRange →
      (p.change change).pendingLoad = change.loadAfter p.pendingLoad ∧
        (p.change change).pendingBranch = change.branchAfter p.pendingBranch := by
  intro p
  have hp : Disciplined p := (Disciplined.initial policy).performAll hrange
  have hsettled := hp.reachable.settled
  refine ⟨hp.zero, ?_, hsettled.load_not_due, hsettled.branch_not_due, ?_, ?_,
    fun change => pending_change p⟩
  · intro load hload
    obtain ⟨hne, hlt⟩ := hp.loadsRegister load hload
    exact ⟨UInt8.pos_iff_ne_zero.mpr hne, hlt⟩
  · rw [inDelaySlot, hsettled.branch_not_due]
    rfl
  · intro β _ bus
    refine ⟨?_, ?_, fun load hload => ?_, fun target => ?_⟩
    · rw [fetch_processor]
      exact hsettled.load_not_due
    · rw [fetch_processor]
      exact hsettled.branch_not_due
    · exact fate_of_load hload hsettled.load_not_due (hp.loadsRegister load hload) bus
    · exact fun hbranch => fate_of_branch hsettled hbranch bus

/-- A load into register 31 that is pending when the word `jal 0x100` is executed is
dropped: the link register is written directly. -/
theorem latch_discipline_of_call :
    let events : List Event := [.change (.setPc 0), .change (.setRegDelayed 31 5)]
    let p := (Processor.initial .ignore).performAll events
    let ram : Memory := ⟨#[0x40, 0, 0, 0x0C]⟩
    (∀ event ∈ events, event.InRange) ∧ p.pendingLoad = some ⟨31, 5⟩ ∧
      Fate.ofLoad 31 (p.completed? ram) = .dropped ∧
      (p.tick ram).2.1 = ((p.setLoads .empty).tick ram).2.1 := by
  intro events p ram
  have hrange : ∀ event ∈ events, event.InRange := by
    intro event h
    simp only [events, List.mem_cons, List.not_mem_nil, or_false] at h
    rcases h with rfl | rfl
    · trivial
    · exact (by decide : (31 : Register) < 32)
  have hload : p.pendingLoad = some ⟨31, 5⟩ := by decide
  have hread : Bus.read ram .word (physicalAddress p.pc) = (.ok 0x0C000040, ram) := by
    rw [show physicalAddress p.pc = 0 by decide]
    dsimp only [ram]
    rfl
  have hfetch : (p.fetch ram).1 = .ok ⟨0x0C000040, 4⟩ :=
    congrArg Prod.fst (fetch_of_uncached (by decide) (by decide) hread)
  have hdecode : Instruction.decode 0x0C000040 = .jumpAndLink 0x100 := by decide
  have htrap : p.trap? ram = none := by
    rw [trap?_of_fetch hfetch (by decide), hdecode]
    rfl
  have hfate : Fate.ofLoad 31 (p.completed? ram) = .dropped := by
    rw [completed?_of_trap? htrap, hfetch, fetchedWord, hdecode]
    rfl
  obtain ⟨-, -, -, -, -, htick, -⟩ := latch_discipline .ignore hrange
  obtain ⟨-, -, hmeets, -⟩ := htick ram
  have hdropped := hmeets ⟨31, 5⟩ hload
  rw [hfate] at hdropped
  exact ⟨hrange, hload, hfate, hdropped.1⟩

end Processor
end PlayStation
