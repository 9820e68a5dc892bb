import PlayStation.Proofs.Processor.ControlChanges
import PlayStation.Proofs.Processor.PreciseException

/-!
# Interrupts do not nest

A tick takes an interrupt exactly when its fetch succeeds and an enabled interrupt is
pending (`trap?_eq_interrupt_iff`), for no instruction raises one
(`cause_ne_interrupt_of_effect`).

Taking an exception pushes the mode stack of the status register, which disables
interrupts.  Further exceptions push it again, and nothing else touches the status
register but moves to it and returns from exceptions (`status_perform_of_raises`,
`status_perform_of_not_raises`).  So no interrupt is taken until one of these happens,
and a return that comes first finds the status as the exception left it.
-/

namespace PlayStation

open Bits

/-- Whether an instruction writes the status register or returns from an exception. -/
def Instruction.writesStatus : Instruction → Bool
  | .moveToControl _ index => index % 64 = Control.status
  | .returnFromException => true
  | _ => false

namespace Processor

variable {β : Type} [Bus β] {p : Processor}

/-! ## Instructions raise no interrupts -/

/-- On any bus, reading data fails with a bus error only. -/
theorem readData_error_eq {width : Width} {address : UInt32} {bus : β} {trap : Trap}
    (h : (p.readData width address bus).1 = .error trap) : trap = .plain .busErrorData := by
  unfold readData at h
  dsimp only at h
  split at h
  · cases h
  · split at h
    · cases h
    · cases h
      rfl

/-- A load at an aligned address fails only as the bus does. -/
theorem loadValue_error_eq {kind : LoadKind} {target : Register} {address : UInt32} {bus : β}
    {trap : Trap} (h : (p.loadValue kind target address bus).1 = .error trap) :
    trap = .plain .busErrorData := by
  have hmap {address : UInt32} {width : Width} {f : UInt32 → UInt32}
      (h : (p.readData width address bus).1.map f = .error trap) : trap = .plain .busErrorData := by
    rcases hread : (p.readData width address bus).1 with e | value
    · rw [hread] at h
      cases h
      exact readData_error_eq hread
    · rw [hread] at h
      cases h
  cases kind with
  | byteUnsigned => exact readData_error_eq h
  | halfUnsigned => exact readData_error_eq h
  | word => exact readData_error_eq h
  | _ => exact hmap h

theorem writeEffect_error_eq {width : Width} {address value : UInt32} {bus : β} {trap : Trap}
    (h : (p.writeEffect width address value bus).1 = .error trap) :
    trap = .plain .busErrorData := by
  unfold writeEffect at h
  dsimp only at h
  split at h
  · cases h
  · split at h
    · split at h <;> cases h
    · split at h
      · cases h
      · cases h
        rfl

theorem updateEffect_error_eq {address : UInt32} {change : UInt32 → UInt32} {bus : β}
    {trap : Trap} (h : (p.updateEffect address change bus).1 = .error trap) :
    trap = .plain .busErrorData := by
  unfold updateEffect at h
  split at h
  · exact writeEffect_error_eq h
  · rename_i hread
    cases h
    exact readData_error_eq (congrArg Prod.fst hread)

/-- **No instruction raises an interrupt**, whatever the bus answers. -/
theorem cause_ne_interrupt_of_effect {instruction : Instruction} {bus : β} {trap : Trap}
    (h : (p.effect instruction bus).1 = .error trap) : trap.cause ≠ .interrupt := by
  have hwhy (why : ExceptionCause) (hcause : trap.cause = why) (hne : why ≠ .interrupt) :
      trap.cause ≠ .interrupt := hcause ▸ hne
  have hdata (h : trap = .plain .busErrorData) : trap.cause ≠ .interrupt :=
    hwhy .busErrorData (congrArg Trap.cause h) (by decide)
  have hoverflow (h : trap = .plain .overflow) : trap.cause ≠ .interrupt :=
    hwhy .overflow (congrArg Trap.cause h) (by decide)
  cases instruction with
  | load kind target base offset =>
      simp only [effect, loadEffect] at h
      split at h
      · cases h
        exact hwhy .addressErrorLoad rfl (by decide)
      · rcases hvalue : (p.loadValue kind target (p.reg base + offset) bus).1 with e | value
        · rw [hvalue] at h
          cases h
          exact hdata (loadValue_error_eq hvalue)
        · rw [hvalue] at h
          cases h
  | store kind source base offset =>
      simp only [effect, storeEffect] at h
      split at h
      · cases h
        exact hwhy .addressErrorStore rfl (by decide)
      · cases kind with
        | wordLeft => exact hdata (updateEffect_error_eq h)
        | wordRight => exact hdata (updateEffect_error_eq h)
        | _ => exact hdata (writeEffect_error_eq h)
  | addChecked target a b => exact hoverflow (checkedEffect_error h)
  | subtractChecked target a b => exact hoverflow (checkedEffect_error h)
  | addCheckedImmediate target a value => exact hoverflow (checkedEffect_error h)
  | syscall =>
      cases h
      exact hwhy .syscall rfl (by decide)
  | breakpoint =>
      cases h
      exact hwhy .breakpoint rfl (by decide)
  | coprocessor unit =>
      simp only [effect, localEffect] at h
      split at h
      · cases h
      · cases h
        exact hwhy .coprocessorUnusable rfl (by decide)
  | unknown =>
      simp only [effect, localEffect] at h
      split at h
      · cases h
      · cases h
        exact hwhy .reservedInstruction rfl (by decide)
  | _ => cases h

/-- **When a tick takes an interrupt.** -/
theorem trap?_eq_interrupt_iff {bus : β} :
    p.trap? bus = some (.plain .interrupt) ↔
      (∃ fetched, (p.fetch bus).1 = .ok fetched) ∧ p.control.interruptPending = true := by
  rw [trap?_eq_some_iff]
  unfold outcome
  rcases hfetch : (p.fetch bus).1 with trap | fetched
  · dsimp only
    refine ⟨fun h => ?_, fun h => ?_⟩
    · rw [Except.error.inj h] at hfetch
      have hcause := fetch_error hfetch
      split at hcause <;> cases hcause
    · obtain ⟨fetched, hok⟩ := h.1
      cases hok
  · dsimp only
    rw [control_ready]
    by_cases hpending : p.control.interruptPending = true
    · rw [if_pos hpending]
      exact ⟨fun _ => ⟨⟨fetched, rfl⟩, hpending⟩, fun _ => rfl⟩
    · rw [if_neg hpending]
      exact ⟨fun h => absurd rfl (cause_ne_interrupt_of_effect h), fun h => absurd h.2 hpending⟩

/-- An exception does not move its handler. -/
theorem handler_entered (p : Processor) (trap : Trap) :
    (p.entered trap).handler = p.control.handler :=
  Control.handler_recorded_enterHandler _ _ _ _

/-! ## What happens to the status register -/

/-- Whether an event takes an exception. -/
def raises (p : Processor) : Event → Bool
  | @Event.tick _ _ bus => (p.trap? bus).isSome
  | .change (.enterHandler _) => true
  | .change _ => false

/-- Whether an event leaves the status register to the exceptions: it neither writes
it nor returns from one. -/
def keepsStatus (p : Processor) : Event → Bool
  | @Event.tick _ _ bus => (p.completed? bus).all fun instruction => !instruction.writesStatus
  | .change (.setControlReg index _) => index % 64 ≠ Control.status
  | .change .reset => false
  | .change _ => true

/-- An exception pushes the mode stack. -/
theorem status_perform_of_raises {event : Event} (h : p.raises event = true) :
    (p.perform event).controlReg Control.status =
      Status.pushed (p.controlReg Control.status) := by
  cases event with
  | tick bus =>
      obtain ⟨trap, htrap⟩ := Option.isSome_iff_exists.mp h
      have hcontrol : (p.perform (.tick bus)).control = p.entered trap :=
        control_tick_of_trap htrap
      rw [controlReg_entered hcontrol]
      rfl
  | change change =>
      cases change with
      | enterHandler why =>
          exact Control.get_recorded_enterHandler p.control (.plain why) _ _ Control.status
      | _ => cases h

/-- An instruction that does not write the status register leaves it. -/
theorem controlAfter_status {instruction : Instruction} (h : instruction.writesStatus = false) :
    (p.controlAfter instruction).get Control.status = p.controlReg Control.status := by
  cases instruction with
  | moveToControl source index =>
      have hindex : index % 64 ≠ Control.status := of_decide_eq_false h
      rw [controlAfter, Control.get_write]
      exact if_neg fun hstatus => hindex hstatus.symm
  | returnFromException => cases h
  | _ => rfl

/-- Other events leave the status register alone. -/
theorem status_perform_of_not_raises {event : Event} (hkeeps : p.keepsStatus event = true)
    (h : p.raises event = false) :
    (p.perform event).controlReg Control.status = p.controlReg Control.status := by
  cases event with
  | tick bus =>
      have htrap : p.trap? bus = none :=
        Option.isNone_iff_eq_none.mp (Option.isSome_eq_false_iff.mp h)
      have hdone := completed?_of_trap? htrap
      have hwrites : (Instruction.decode (fetchedWord (p.fetch bus).1)).writesStatus = false := by
        rw [keepsStatus, hdone] at hkeeps
        exact Bool.not_eq_true' _ ▸ hkeeps
      have hcontrol : (p.perform (.tick bus)).control = _ := control_tick_of_completed hdone
      rw [controlReg, hcontrol]
      exact controlAfter_status hwrites
  | change change =>
      cases change with
      | setControlReg index value =>
          have hindex : index % 64 ≠ Control.status := of_decide_eq_true hkeeps
          have hget := p.control.get_write index value Control.status
          exact hget.trans (if_neg fun hstatus => hindex hstatus.symm)
      | setInterruptLines lines => exact p.control.get_setLines lines Control.status
      | setReg index value =>
          rw [perform, Processor.change, setReg_eq]
          rfl
      | setRegDelayed index value =>
          rw [perform, Processor.change, setRegDelayed_eq]
          rfl
      | setPc pc => rfl
      | enterHandler why => cases h
      | reset => cases hkeeps

/-- Interrupts are disabled after an exception. -/
theorem flag_pushed (status : UInt32) :
    flag (Status.pushed status) Status.interruptEnable = false := by
  have hkept : Status.pushed status &&& Status.interruptEnable = 0 := by
    have hstack : Status.modeStack &&& Status.interruptEnable = Status.interruptEnable := by decide
    have hupper : (0x3C : UInt32) &&& Status.interruptEnable = 0 := by decide
    rw [Status.pushed, and_of_replaced hstack, UInt32.and_assoc, hupper, UInt32.and_zero]
  rw [flag, hkept]
  rfl

/-- Interrupts stay disabled. -/
theorem flag_perform {event : Event} (hkeeps : p.keepsStatus event = true)
    (h : flag (p.controlReg Control.status) Status.interruptEnable = false) :
    flag ((p.perform event).controlReg Control.status) Status.interruptEnable = false := by
  rcases hraises : p.raises event with _ | _
  · rw [status_perform_of_not_raises hkeeps hraises]
    exact h
  · rw [status_perform_of_raises hraises]
    exact flag_pushed _

/-- Interrupts stay disabled along a run that keeps the status register. -/
theorem Throughout.flag_performAll {run : List Event}
    (hrun : Throughout (fun q event => q.keepsStatus event = true) p run)
    (h : flag (p.controlReg Control.status) Status.interruptEnable = false) :
    flag ((p.performAll run).controlReg Control.status) Status.interruptEnable = false :=
  hrun.preserves
    (I := fun q => flag (q.controlReg Control.status) Status.interruptEnable = false)
    (fun _ _ hq hevent => flag_perform hevent hq) h

/-- Without exceptions, such a run does not change the status. -/
theorem Throughout.status_performAll {run : List Event}
    (hrun : Throughout (fun q event => q.keepsStatus event = true ∧ q.raises event = false) p
      run) :
    (p.performAll run).controlReg Control.status = p.controlReg Control.status :=
  hrun.preserves (I := fun q => q.controlReg Control.status = p.controlReg Control.status)
    (fun _ _ hq hevent => (status_perform_of_not_raises hevent.1 hevent.2).trans hq) rfl

/-- While interrupts are disabled, none is pending. -/
theorem interruptPending_of_flag
    (h : flag (p.controlReg Control.status) Status.interruptEnable = false) :
    p.control.interruptPending = false := by
  rw [Control.interruptPending, Bool.and_eq_false_iff]
  exact .inl h

/-! ## Returning -/

/-- A return from an exception pops the mode stack. -/
theorem status_tick_of_return {bus : β} {fetched : Fetch} (hfetch : (p.fetch bus).1 = .ok fetched)
    (hreturn : Instruction.decode fetched.word = .returnFromException)
    (h : p.control.interruptPending = false) :
    p.trap? bus = none ∧ (p.tick bus).2.1.controlReg Control.status =
      Status.popped (p.controlReg Control.status) := by
  have htrap : p.trap? bus = none := by
    rw [trap?_of_fetch hfetch h, hreturn]
    rfl
  have hdone : p.completed? bus = some .returnFromException := by
    rw [completed?_of_trap? htrap, hfetch]
    exact congrArg some hreturn
  refine ⟨htrap, ?_⟩
  rw [controlReg, control_tick_of_completed hdone]
  exact p.control.get_leaveHandler Control.status

/-- Popping what an exception pushed restores all but the oldest pair, which holds what
the exception moved there. -/
theorem bit_popped_pushed (status : UInt32) {i : Nat} (hi : i < 32) :
    bit (Status.popped (Status.pushed status)) i =
      if i = 4 ∨ i = 5 then bit status (i - 2) else bit status i := by
  rw [Status.bit_popped _ hi, Status.bit_pushed _ hi]
  by_cases hlow : i < 4
  · rw [if_pos hlow, Status.bit_pushed _ (by omega), if_neg (by omega), if_pos (by omega),
      if_neg (by omega), Nat.add_sub_cancel]
  · rw [if_neg hlow, if_neg (by omega)]
    by_cases holdest : i = 4 ∨ i = 5
    · rw [if_pos holdest, if_pos (by omega)]
    · rw [if_neg holdest, if_neg (by omega)]

/-- **Interrupts do not nest by themselves, and a return undoes an exception.**  After an
exception, as long as nothing writes the status register or returns:

* no tick takes an interrupt, whatever the bus, the lines and further exceptions;
* if no further exception was taken either, a return completes and gives back the status
  of before the exception, save that its oldest pair holds the previous pair.

Any processor takes an interrupt exactly when its fetch succeeds, interrupts are enabled
and an enabled one is waiting.  Then the fetched instruction has no effect: the pending
load arrives, the handler is entered, and all else is as the fetch left it. -/
theorem interrupts_do_not_nest {entry : Event} (hentry : p.raises entry = true) :
    (∀ run, Throughout (fun q event => q.keepsStatus event = true) (p.perform entry) run →
      ∀ {β : Type} [Bus β] (bus : β),
        ((p.perform entry).performAll run).trap? bus ≠ some (.plain .interrupt)) ∧
    (∀ run, Throughout (fun q event => q.keepsStatus event = true ∧ q.raises event = false)
        (p.perform entry) run →
      ∀ {β : Type} [Bus β] (bus : β) (fetched : Fetch),
        (((p.perform entry).performAll run).fetch bus).1 = .ok fetched →
        Instruction.decode fetched.word = .returnFromException →
        let q := (((p.perform entry).performAll run).tick bus).2.1
        ((p.perform entry).performAll run).trap? bus = none ∧
          ∀ i < 32, bit (q.controlReg Control.status) i =
            if i = 4 ∨ i = 5 then bit (p.controlReg Control.status) (i - 2)
            else bit (p.controlReg Control.status) i) ∧
    ∀ (q : Processor) {β : Type} [Bus β] (bus : β),
      (q.trap? bus = some (.plain .interrupt) ↔
        (∃ fetched, (q.fetch bus).1 = .ok fetched) ∧
          flag (q.controlReg Control.status) Status.interruptEnable = true ∧
          flag (q.controlReg Control.cause &&& q.controlReg Control.status)
            Cause.interrupts = true) ∧
      (q.trap? bus = some (.plain .interrupt) →
        (q.tick bus).2.1 =
          { q with
            regs := commit q.regs q.pendingLoad
            currentPc := q.pc
            pc := q.control.handler
            control := q.entered (.plain .interrupt)
            branches := .empty
            loads := .empty
            cache := (q.fetch bus).2.1.cache
            instruction := fetchedWord (q.fetch bus).1 } ∧
        (q.tick bus).2.2 = (q.fetch bus).2.2) := by
  -- The entry clears the enable bit, and no event of the run sets it again.
  have hdisabled : flag ((p.perform entry).controlReg Control.status) Status.interruptEnable =
      false := by
    rw [status_perform_of_raises hentry]
    exact flag_pushed _
  have hpending {run : List Event} (hrun : Throughout (fun q event => q.keepsStatus event = true)
      (p.perform entry) run) :
      ((p.perform entry).performAll run).control.interruptPending = false :=
    interruptPending_of_flag (hrun.flag_performAll hdisabled)
  refine ⟨fun run hrun β _ bus hinterrupt => ?_, fun run hrun β _ bus fetched hfetch hreturn => ?_,
    fun q β _ bus => ⟨?_, fun hinterrupt => ⟨?_, ?_⟩⟩⟩
  · have henabled := (trap?_eq_interrupt_iff.mp hinterrupt).2
    rw [hpending hrun] at henabled
    cases henabled
  · have hkeeps := hrun.mono fun q event hevent => hevent.1
    have hsame := hrun.status_performAll.trans (status_perform_of_raises hentry)
    obtain ⟨htrap, hpopped⟩ := status_tick_of_return hfetch hreturn (hpending hkeeps)
    refine ⟨htrap, fun i hi => ?_⟩
    rw [hpopped, hsame, bit_popped_pushed _ hi]
  · rw [trap?_eq_interrupt_iff, Control.interruptPending, Bool.and_eq_true]
    rfl
  · rw [tick_of_trap?_eq_some hinterrupt, handler_entered]
  · rw [tick_eq, outcome]
    obtain ⟨⟨fetched, hfetch⟩, hwaiting⟩ := trap?_eq_interrupt_iff.mp hinterrupt
    rw [hfetch]
    dsimp only
    rw [control_ready, if_pos hwaiting]

/-- A system call with interrupts enabled, and an interrupt that comes up while it is
handled: it is not taken, and the return restores the status. -/
theorem interrupt_waits_for_return :
    let p := ((initial .ignore).setPc 0).setControlReg Control.status 0x405
    let call : Memory := ⟨#[0x0C, 0, 0, 0]⟩
    let back : Memory := ⟨#[0x10, 0, 0, 0x42]⟩
    let run : List Event := [.change (.setInterruptLines 1), .change (.setPc 0)]
    let q := (p.perform (.tick call)).performAll run
    p.raises (.tick call) = true ∧
      flag (q.controlReg Control.cause &&& q.controlReg Control.status) Cause.interrupts = true ∧
      q.trap? back ≠ some (.plain .interrupt) ∧
      (q.tick back).2.1.controlReg Control.status = 0x415 := by
  intro p call back run q
  have hfetch {p : Processor} {ram : Memory} {word : UInt32}
      (hread : Bus.read ram .word 0 = (.ok word, ram)) (hpc : p.pc = 0)
      (hcache : p.cacheControl = 0) : p.fetch ram = (.ok ⟨word, 4⟩, p, ram) := by
    have hphysical : physicalAddress 0 = 0 := by decide
    refine fetch_of_uncached ?_ ?_ ?_
    · rw [hpc]
      rfl
    · rw [fetchCached, hcache]
      rfl
    · rw [hpc, hphysical]
      exact hread
  have hcall : Bus.read call .word 0 = (.ok 0xC, call) := by
    dsimp only [call]
    rfl
  have hback : Bus.read back .word 0 = (.ok 0x42000010, back) := by
    dsimp only [back]
    rfl
  have htrap : p.trap? call = some (.plain .syscall) := by
    have hdecode : Instruction.decode 0xC = .syscall := by decide
    rw [trap?_of_fetch (congrArg Prod.fst (hfetch hcall rfl rfl)) (by decide), hdecode]
    rfl
  have hentry : p.raises (.tick call) = true := by
    rw [raises, htrap]
    rfl
  have hq : q = ((p.tick call).2.1.setInterruptLines 1).setPc 0 := rfl
  obtain ⟨hnone, hreturned, -⟩ := interrupts_do_not_nest hentry
  refine ⟨hentry, ?_, hnone run ⟨rfl, rfl, trivial⟩ back, ?_⟩
  · rw [hq, tick_of_trap?_eq_some htrap]
    decide
  · have hcache : q.cacheControl = 0 := by
      rw [hq, tick_of_trap?_eq_some htrap]
      rfl
    refine ext_bit fun i hi => ?_
    refine ((hreturned run ⟨⟨rfl, rfl⟩, ⟨rfl, rfl⟩, trivial⟩ back _
      (congrArg Prod.fst (hfetch hback rfl hcache)) (by decide)).2 i hi).trans ?_
    revert i
    decide

end Processor
end PlayStation
