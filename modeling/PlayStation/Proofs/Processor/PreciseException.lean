import PlayStation.Proofs.Bus
import PlayStation.Proofs.Processor.ControlRegisters
import PlayStation.Proofs.Processor.Reachable

/-!
# Exceptions are precise

A tick that takes a trap does nothing besides: the pending load arrives, the
handler is entered, and the instruction that was to run has left no trace
(`Precise`).  On the processor's side this holds because a trap replaces an
effect instead of following one; `tick_of_trap?_eq_some` has it field by field.
What is left to show is that a trapping instruction left the bus alone
(`effect_error`), which needs a bus on which failing accesses do so.
-/

namespace PlayStation

open Bits

/-- Encoded coprocessor numbers are below 4. -/
theorem Instruction.lt_four_of_decode {word unit : UInt32}
    (h : Instruction.decode word = .coprocessor unit) : unit < 4 := by
  have hspecial : Instruction.decodeSpecial word ≠ .coprocessor unit := by
    unfold Instruction.decodeSpecial
    dsimp only
    split <;> exact Instruction.noConfusion
  have hcontrol : Instruction.decodeControl word ≠ .coprocessor unit := by
    unfold Instruction.decodeControl
    dsimp only
    split
    case h_5 => split <;> exact Instruction.noConfusion
    all_goals exact Instruction.noConfusion
  have hbranch : Instruction.decodeZeroBranch word ≠ .coprocessor unit := by
    unfold Instruction.decodeZeroBranch
    dsimp only
    split <;> exact Instruction.noConfusion
  unfold Instruction.decode at h
  dsimp only at h
  split at h
  case h_1 => exact absurd h hspecial
  case h_2 => exact absurd h hbranch
  case h_17 => exact absurd h hcontrol
  all_goals cases h
  all_goals decide

namespace Processor

variable {β : Type} [Bus β]

/-! ## A trapping instruction leaves the bus alone -/

/-- Checked arithmetic fails in an overflow only. -/
theorem checkedEffect_error {target : Register} {result : Option UInt32} {trap : Trap}
    (h : checkedEffect target result = .error trap) : trap = .plain .overflow := by
  cases result with
  | none => cases h; rfl
  | some value => cases h

/-- An instruction that works on registers fails in a proper trap without an address. -/
theorem localEffect_error {p : Processor} {instruction : Instruction} {trap : Trap}
    (hunit : ∀ unit, instruction = .coprocessor unit → unit < 4)
    (h : p.localEffect instruction = .error trap) : trap.Proper ∧ trap.address? = none := by
  have hoverflow (h : trap = .plain .overflow) : trap.Proper ∧ trap.address? = none := by
    rw [h]
    exact ⟨rfl, rfl⟩
  cases instruction with
  | addChecked target a b => exact hoverflow (checkedEffect_error h)
  | subtractChecked target a b => exact hoverflow (checkedEffect_error h)
  | addCheckedImmediate target a value => exact hoverflow (checkedEffect_error h)
  | syscall => cases h; exact ⟨rfl, rfl⟩
  | breakpoint => cases h; exact ⟨rfl, rfl⟩
  | coprocessor unit =>
      simp only [localEffect] at h
      split at h
      · cases h
      · cases h; exact ⟨hunit unit rfl, rfl⟩
  | unknown =>
      simp only [localEffect] at h
      split at h
      · cases h
      · cases h; exact ⟨rfl, rfl⟩
  | _ => cases h

/-- Reading data fails in a bus error that leaves the bus. -/
theorem readData_error (clean : Bus.FailsCleanly β) {p : Processor} {width : Width}
    {address : UInt32} {bus bus' : β} {trap : Trap}
    (h : p.readData width address bus = (.error trap, bus')) :
    trap = .plain .busErrorData ∧ bus' = bus := by
  unfold readData at h
  dsimp only at h
  split at h
  · cases h
  · rcases hread : Bus.read bus width (physicalAddress address) with ⟨e | value, after⟩
    · rw [hread] at h
      cases h
      exact ⟨rfl, clean.of_read hread⟩
    · rw [hread] at h
      cases h

/-- Reading data for a load fails only as the bus does. -/
theorem loadValue_error (clean : Bus.FailsCleanly β) {p : Processor} {kind : LoadKind}
    {target : Register} {address : UInt32} {bus bus' : β} {trap : Trap}
    (h : p.loadValue kind target address bus = (.error trap, bus')) :
    trap = .plain .busErrorData ∧ bus' = bus := by
  have hmap {width : Width} {address : UInt32} {f : UInt32 → UInt32}
      (h : ((p.readData width address bus).1.map f, (p.readData width address bus).2) =
        (.error trap, bus')) : trap = .plain .busErrorData ∧ bus' = bus := by
    rcases hread : p.readData width address bus with ⟨e | value, after⟩
    · rw [hread] at h
      cases h
      exact readData_error clean hread
    · rw [hread] at h
      cases h
  cases kind with
  | byteUnsigned => exact readData_error clean h
  | halfUnsigned => exact readData_error clean h
  | word => exact readData_error clean h
  | _ => exact hmap h

/-- Writing data fails in a bus error that leaves the bus. -/
theorem writeEffect_error (clean : Bus.FailsCleanly β) {p : Processor} {width : Width}
    {address value : UInt32} {bus bus' : β} {trap : Trap}
    (h : p.writeEffect width address value bus = (.error trap, bus')) :
    trap = .plain .busErrorData ∧ bus' = bus := by
  unfold writeEffect at h
  dsimp only at h
  split at h
  · cases h
  · split at h
    · split at h <;> cases h
    · rcases hwrite : Bus.write bus width (physicalAddress address) (width.truncate value)
        with ⟨e | _, after⟩
      · rw [hwrite] at h
        cases h
        exact ⟨rfl, clean.of_write hwrite⟩
      · rw [hwrite] at h
        cases h

/-- Data that was just read can be written back, wherever it goes. -/
theorem writeEffect_of_readData (clean : Bus.FailsCleanly β) {p : Processor} {width : Width}
    {address word : UInt32} {bus bus' : β} (value : UInt32)
    (h : p.readData width address bus = (.ok word, bus')) :
    ∃ e, (p.writeEffect width address value bus').1 = .ok e := by
  unfold readData at h
  unfold writeEffect
  dsimp only at h ⊢
  split
  · exact ⟨_, rfl⟩
  · rename_i hphysical
    rw [if_neg hphysical] at h
    split
    · split <;> exact ⟨_, rfl⟩
    · rcases hread : Bus.read bus width (physicalAddress address) with ⟨e | read, after⟩
      · rw [hread] at h
        cases h
      · rw [hread] at h
        cases h
        have hwritten := clean.write_of_read (width.truncate value) hread
        rcases hwrite : Bus.write bus' width (physicalAddress address) (width.truncate value)
          with ⟨e | _, written⟩
        · rw [hwrite] at hwritten
          cases hwritten
        · exact ⟨_, rfl⟩

/-- Changing a word fails only when reading it does, so nothing was written. -/
theorem updateEffect_error (clean : Bus.FailsCleanly β) {p : Processor} {address : UInt32}
    {change : UInt32 → UInt32} {bus bus' : β} {trap : Trap}
    (h : p.updateEffect address change bus = (.error trap, bus')) :
    trap = .plain .busErrorData ∧ bus' = bus := by
  unfold updateEffect at h
  rcases hread : p.readData .word address bus with ⟨e | word, after⟩
  · rw [hread] at h
    cases h
    exact readData_error clean hread
  · rw [hread] at h
    obtain ⟨e, he⟩ := writeEffect_of_readData clean (change word) hread
    have hsame : p.writeEffect .word address (change word) after = (.error trap, bus') := h
    rw [hsame] at he
    cases he

/-- An address that fails an alignment check is misaligned for a word. -/
theorem misaligned_of_half {address : UInt32} (h : address &&& 1 ≠ 0) : address &&& 3 ≠ 0 := by
  intro hword
  apply h
  have hmask : (1 : UInt32) = 3 &&& 1 := by decide
  rw [hmask, ← UInt32.and_assoc, hword]
  exact UInt32.zero_and

/-- The traps of an access to `address`: it is misaligned, or the bus fails. -/
structure AccessTrap (address : UInt32) (trap : Trap) : Prop where
  proper : trap.Proper
  address : ∀ a, trap.address? = some a → a = address

/-- A bus error of an access records no address. -/
theorem AccessTrap.of_bus {address : UInt32} : AccessTrap address (.plain .busErrorData) :=
  ⟨rfl, nofun⟩

/-- An address error records the address, which is not aligned. -/
theorem AccessTrap.of_misaligned {address : UInt32} {why : ExceptionCause}
    (hwhy : why = .addressErrorLoad ∨ why = .addressErrorStore) (h : address &&& 3 ≠ 0) :
    AccessTrap address (.badAddress why address) :=
  ⟨⟨hwhy, h⟩, fun _ ha => (Option.some.inj ha).symm⟩

/-- A load fails in a trap of an access and leaves the bus. -/
theorem loadEffect_error (clean : Bus.FailsCleanly β) {p : Processor} {kind : LoadKind}
    {target : Register} {address : UInt32} {bus bus' : β} {trap : Trap}
    (h : p.loadEffect kind target address bus = (.error trap, bus')) :
    AccessTrap address trap ∧ bus' = bus := by
  unfold loadEffect at h
  split at h
  · rename_i hmisaligned
    cases h
    refine ⟨.of_misaligned (.inl rfl) ?_, rfl⟩
    cases kind with
    | word => exact hmisaligned
    | half => exact misaligned_of_half hmisaligned
    | halfUnsigned => exact misaligned_of_half hmisaligned
    | _ => exact absurd UInt32.and_zero hmisaligned
  · rcases hvalue : p.loadValue kind target address bus with ⟨e | value, after⟩
    · rw [hvalue] at h
      cases h
      obtain ⟨rfl, rfl⟩ := loadValue_error clean hvalue
      exact ⟨.of_bus, rfl⟩
    · rw [hvalue] at h
      cases h

theorem storeEffect_error (clean : Bus.FailsCleanly β) {p : Processor} {kind : StoreKind}
    {value address : UInt32} {bus bus' : β} {trap : Trap}
    (h : p.storeEffect kind value address bus = (.error trap, bus')) :
    AccessTrap address trap ∧ bus' = bus := by
  have hdata (h : trap = .plain .busErrorData ∧ bus' = bus) :
      AccessTrap address trap ∧ bus' = bus := by
    obtain ⟨rfl, rfl⟩ := h
    exact ⟨.of_bus, rfl⟩
  unfold storeEffect at h
  split at h
  · rename_i hmisaligned
    cases h
    refine ⟨.of_misaligned (.inr rfl) ?_, rfl⟩
    cases kind with
    | word => exact hmisaligned
    | half => exact misaligned_of_half hmisaligned
    | _ => exact absurd UInt32.and_zero hmisaligned
  · cases kind with
    | wordLeft => exact hdata (updateEffect_error clean h)
    | wordRight => exact hdata (updateEffect_error clean h)
    | _ => exact hdata (writeEffect_error clean h)

/-- The address that a load or store goes to. -/
def dataAddress? (p : Processor) : Instruction → Option UInt32
  | .load _ _ base offset | .store _ _ base offset => some (p.reg base + offset)
  | _ => none

/-- The address of an access comes from registers that making ready does not change. -/
theorem dataAddress?_ready (p : Processor) (bus : β) (instruction : Instruction) :
    (p.ready bus).dataAddress? instruction = p.dataAddress? instruction := by
  cases instruction <;> simp only [dataAddress?, reg_ready]

/-- **A trapping instruction leaves the bus alone.**  Its trap is a proper one, and
a faulting address is the address of the access. -/
theorem effect_error (clean : Bus.FailsCleanly β) {p : Processor} {word : UInt32}
    {bus bus' : β} {trap : Trap}
    (h : p.effect (Instruction.decode word) bus = (.error trap, bus')) :
    trap.Proper ∧ bus' = bus ∧ ∀ address, trap.address? = some address →
      p.dataAddress? (Instruction.decode word) = some address := by
  have hunit (unit : UInt32) (hdecode : Instruction.decode word = .coprocessor unit) :=
    Instruction.lt_four_of_decode hdecode
  revert h hunit
  generalize Instruction.decode word = instruction
  intro h hunit
  cases instruction with
  | load kind target base offset =>
      obtain ⟨haccess, hbus⟩ := loadEffect_error clean h
      exact ⟨haccess.proper, hbus, fun a ha => congrArg some (haccess.address a ha).symm⟩
  | store kind source base offset =>
      obtain ⟨haccess, hbus⟩ := storeEffect_error clean h
      exact ⟨haccess.proper, hbus, fun a ha => congrArg some (haccess.address a ha).symm⟩
  | _ =>
      obtain ⟨hproper, hnone⟩ := localEffect_error (p := p) hunit (congrArg Prod.fst h)
      refine ⟨hproper, (congrArg Prod.snd h).symm, fun a ha => ?_⟩
      rw [hnone] at ha
      cases ha

/-! ## What a trapping tick leaves behind -/

/-- The trap of a failed fetch: a misaligned address or a failed read. -/
theorem fetch_error {p : Processor} {bus : β} {trap : Trap} (h : (p.fetch bus).1 = .error trap) :
    trap = if p.pc &&& 3 = 0 then .plain .busErrorInstruction
      else .badAddress .addressErrorLoad p.pc := by
  unfold fetch misalignedFetch at h
  by_cases haligned : p.pc &&& 3 = 0
  · rw [if_pos haligned] at h ⊢
    dsimp only at h
    split at h
    · cases h
    · cases h; rfl
  · rw [if_neg haligned] at h ⊢
    cases h
    rfl

/-- A misaligned fetch touches neither the cache nor the bus. -/
theorem fetch_of_misaligned {p : Processor} (bus : β) (h : p.pc &&& 3 ≠ 0) :
    p.fetch bus = (.error (.badAddress .addressErrorLoad p.pc), p, bus) := by
  unfold fetch misalignedFetch
  rw [if_neg h]

/-- Which trap a tick takes: that of its fetch comes first, then an interrupt,
then that of its instruction. -/
structure TrapOf (p : Processor) (bus : β) (trap : Trap) : Prop where
  proper : trap.Proper
  of_fetch : ∀ e, (p.fetch bus).1 = .error e →
    trap = if p.pc &&& 3 = 0 then .plain .busErrorInstruction
      else .badAddress .addressErrorLoad p.pc
  of_interrupt : ∀ fetched, (p.fetch bus).1 = .ok fetched → p.control.interruptPending →
    trap = .plain .interrupt
  /-- The faulting address of an instruction is the one that it accesses. -/
  of_access : ∀ fetched address, (p.fetch bus).1 = .ok fetched → trap.address? = some address →
    p.dataAddress? (Instruction.decode fetched.word) = some address

/-- The control registers that a trap leaves. -/
structure RecordedBy (trap : Trap) (p q : Processor) : Prop where
  /-- The mode stack moves up by one pair, and nothing else. -/
  status : q.controlReg Control.status = Status.pushed (p.controlReg Control.status)
  cause_kept : q.controlReg Control.cause &&& ~~~trap.causeMask =
    p.controlReg Control.cause &&& ~~~trap.causeMask
  code : field (q.controlReg Control.cause) Cause.exceptionCode = trap.cause.code
  branch_delay : flag (q.controlReg Control.cause) Cause.branchDelay = p.pendingBranch.isSome
  unit : ∀ unit, trap = .unusable unit →
    field (q.controlReg Control.cause) Cause.coprocessor = unit
  /-- The handler returns to the branch before the instruction, if there is one. -/
  resume : q.controlReg Control.programCounter =
    if p.pendingBranch.isSome then p.currentPc else p.pc
  bad_address : q.controlReg Control.badAddress =
    trap.address?.getD (p.controlReg Control.badAddress)
  others : ∀ i, i % 64 ≠ Control.badAddress → i % 64 ≠ Control.status → i % 64 ≠ Control.cause →
    i % 64 ≠ Control.programCounter → q.controlReg i = p.controlReg i

/-- What a tick that takes a trap leaves behind: `p` and `bus` are as before it,
`q` and `after` as after it. -/
structure Precise (p : Processor) (bus : β) (trap : Trap) (q : Processor) (after : β) : Prop where
  trap_of : TrapOf p bus trap
  /-- The pending load arrives, and no other register changes. -/
  regs : q.regs = commit p.regs p.pendingLoad
  units : q.hi = p.hi ∧ q.lo = p.lo ∧ q.cacheControl = p.cacheControl
  /-- The bus and the cache are what the fetch left. -/
  fetched : after = (p.fetch bus).2.2 ∧ q.cache = (p.fetch bus).2.1.cache
  /-- A misaligned fetch touches neither. -/
  misaligned : p.pc &&& 3 ≠ 0 → after = bus ∧ q.cache = p.cache
  control : RecordedBy trap p q
  idle : q.pendingBranch = none ∧ q.pendingLoad = none
  handler : q.pc =
    if flag (p.controlReg Control.status) Status.bootVectors then 0xBFC00180 else 0x80000080
  executed : q.currentPc = p.pc ∧ q.instruction = fetchedWord (p.fetch bus).1
  /-- A pending branch was decided by the instruction before. -/
  delay_slot : ∀ target, p.pendingBranch = some target →
    p.pc = p.currentPc + 4 ∧ (Instruction.decode p.instruction).transfers = true

/-- Each control register as the handler finds it. -/
theorem controlReg_entered {p q : Processor} {trap : Trap} (hq : q.control = p.entered trap)
    (i : Nat) :
    q.controlReg i =
      if i % 64 = Control.programCounter then
        if p.pendingBranch.isSome then p.pc - 4 else p.pc
      else if i % 64 = Control.cause then
        p.controlReg Control.cause &&& ~~~trap.causeMask |||
          trap.causeBits p.pendingBranch.isSome
      else if i % 64 = Control.status then Status.pushed (p.controlReg Control.status)
      else if i % 64 = Control.badAddress then trap.address?.getD (p.controlReg i)
      else p.controlReg i := by
  unfold controlReg
  rw [hq]
  exact Control.get_recorded_enterHandler _ _ _ _ _

/-- A tick that takes a trap leaves the bus to its fetch. -/
theorem trapOf_of_trap? (clean : Bus.FailsCleanly β) {p : Processor} {bus : β} {trap : Trap}
    (h : p.trap? bus = some trap) :
    TrapOf p bus trap ∧ (p.outcome bus).2 = (p.fetch bus).2.2 := by
  have hout := trap?_eq_some_iff.mp h
  unfold outcome at hout ⊢
  rcases hfetch : (p.fetch bus).1 with e | fetched
  · rw [hfetch] at hout
    obtain rfl : e = trap := Except.error.inj hout
    have htrap := fetch_error hfetch
    have hno_word (fetched : Fetch) : (p.fetch bus).1 ≠ .ok fetched := by
      rw [hfetch]
      exact nofun
    refine ⟨⟨?_, fun _ _ => htrap, fun _ hok => absurd hok (hno_word _),
      fun _ _ hok => absurd hok (hno_word _)⟩, rfl⟩
    rw [htrap]
    split
    · exact rfl
    · rename_i hmisaligned
      exact ⟨.inl rfl, hmisaligned⟩
  · have hno_error (e : Trap) : (p.fetch bus).1 ≠ .error e := by
      rw [hfetch]
      exact nofun
    rw [hfetch] at hout
    dsimp only at hout ⊢
    rw [control_ready] at hout ⊢
    by_cases hinterrupt : p.control.interruptPending
    · rw [if_pos hinterrupt] at hout ⊢
      obtain rfl : .plain .interrupt = trap := Except.error.inj hout
      exact ⟨⟨rfl, fun e he => absurd he (hno_error e), fun _ _ _ => rfl,
        nofun⟩, rfl⟩
    · rw [if_neg hinterrupt] at hout ⊢
      obtain ⟨hproper, hbus, haddress⟩ := effect_error clean (Prod.ext hout rfl)
      refine ⟨⟨hproper, fun e he => absurd he (hno_error e),
        fun _ _ hpending => absurd hpending hinterrupt, fun word address hok ha => ?_⟩, hbus⟩
      obtain rfl : fetched = word := Except.ok.inj (hfetch.symm.trans hok)
      rw [← dataAddress?_ready p bus]
      exact haddress address ha

/-- **What a handler finds is what the trap records.** -/
theorem recordedBy_of_entered {p q : Processor} {trap : Trap} (hproper : trap.Proper)
    (hp : Settled p) (hq : q.control = p.entered trap) : RecordedBy trap p q := by
  obtain ⟨hkept, hcode, hdelay, hunit⟩ :=
    hproper.cause (p.controlReg Control.cause) p.pendingBranch.isSome
  have hcause := controlReg_entered hq Control.cause
  rw [if_neg (by decide), if_pos (by decide)] at hcause
  rw [← hcause] at hkept hcode hdelay hunit
  refine ⟨controlReg_entered hq Control.status, hkept, hcode, hdelay, hunit, ?_,
    controlReg_entered hq Control.badAddress, ?_⟩
  · rw [controlReg_entered hq Control.programCounter, if_pos (by decide)]
    rcases hbranch : p.pendingBranch with _ | target
    · rfl
    · have hslot := (hp.delay_slot target hbranch).1
      simp only [Option.isSome_some, if_true, hslot]
      exact UInt32.add_sub_cancel _ _
  · intro i hbad hstatus hcause hcounter
    rw [controlReg_entered hq i, if_neg hcounter, if_neg hcause, if_neg hstatus, if_neg hbad]

/-- A settled processor takes its exceptions precisely, on every bus whose failing
accesses leave no trace. -/
theorem precise_of_trap? (clean : Bus.FailsCleanly β) {p : Processor} (hp : Settled p) {bus : β}
    {trap : Trap} (h : p.trap? bus = some trap) :
    Precise p bus trap (p.tick bus).2.1 (p.tick bus).2.2 := by
  obtain ⟨hof, hbus⟩ := trapOf_of_trap? clean h
  have hafter : (p.tick bus).2.2 = (p.fetch bus).2.2 := by rw [tick_eq, hbus]
  rw [hafter, tick_of_trap?_eq_some h]
  exact {
    trap_of := hof
    regs := rfl
    units := ⟨rfl, rfl, rfl⟩
    fetched := ⟨rfl, rfl⟩
    misaligned := fun hmisaligned => by
      rw [fetch_of_misaligned bus hmisaligned]
      exact ⟨rfl, rfl⟩
    control := recordedBy_of_entered hof.proper hp rfl
    idle := ⟨rfl, rfl⟩
    handler := Control.handler_recorded_enterHandler _ _ _ _
    executed := ⟨rfl, rfl⟩
    delay_slot := hp.delay_slot }

/-- **Exceptions are precise.**  Whenever a tick of a reachable processor takes a
trap, on a plain memory or on the board, the tick does what `Precise` says and
nothing else. -/
theorem exception_precise {p : Processor} (hp : Reachable p) :
    (∀ (ram : Memory) (trap : Trap), p.trap? ram = some trap →
      Precise p ram trap (p.tick ram).2.1 (p.tick ram).2.2) ∧
    ∀ (board : Board) (trap : Trap), p.trap? board = some trap →
      Precise p board trap (p.tick board).2.1 (p.tick board).2.2 :=
  ⟨fun _ _ h => precise_of_trap? Memory.failsCleanly hp.settled h,
    fun _ _ h => precise_of_trap? Board.failsCleanly hp.settled h⟩

/-- The word `syscall` at address 0, with a load pending: the load arrives, and the
handler finds the address of the call. -/
theorem exception_precise_of_syscall :
    let p := ((initial .ignore).setPc 0).setRegDelayed 5 7
    let ram : Memory := ⟨#[0x0C, 0, 0, 0]⟩
    let q := (p.tick ram).2.1
    Reachable p ∧ p.trap? ram = some (.plain .syscall) ∧ q.reg 5 = 7 ∧ q.pc = 0x80000080 ∧
      field (q.controlReg Control.cause) Cause.exceptionCode = 8 ∧
      q.controlReg Control.programCounter = 0 := by
  intro p ram q
  have hp : Reachable p := .setRegDelayed 5 7 (.setPc 0 (.initial .ignore))
  have hread : Bus.read ram .word (physicalAddress p.pc) = (.ok 0xC, ram) := by
    rw [show physicalAddress p.pc = 0 by decide]
    dsimp only [ram]
    rfl
  have hword : p.fetch ram = (.ok ⟨0xC, 4⟩, p, ram) :=
    fetch_of_uncached (by decide) (by decide) hread
  have hdecode : Instruction.decode 0xC = .syscall := by decide
  have htrap : p.trap? ram = some (.plain .syscall) := by
    rw [trap?_of_fetch (congrArg Prod.fst hword) (by decide), hdecode]
    rfl
  have hprecise := (exception_precise hp).1 ram _ htrap
  refine ⟨hp, htrap, ?_, hprecise.handler.trans (by decide), hprecise.control.code,
    hprecise.control.resume.trans (by decide)⟩
  rw [reg, if_neg (by decide), hprecise.regs]
  decide

end Processor
end PlayStation
