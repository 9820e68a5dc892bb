import PlayStation.Proofs.Processor.Effect

/-!
# What a tick comes to

A tick either takes a trap or applies the effect of one instruction, and then
lets the due branch and the due load take effect.  `tick_eq` says this in one
equation; `settle_apply` and `tick_of_trap?_eq_some` give the processor at the
end of either kind of tick field by field.  Later files use these and never open
`tick` or `execute`.
-/

namespace PlayStation

namespace Effect

/-- The load that an effect leaves pending. -/
def load? : Effect → Option LoadDelay
  | schedule target value =>
      if target = 0 then none else some ⟨(Processor.slot target).val.toUInt8, value⟩
  | _ => none

/-- The register file at the end of a tick: a direct write comes before the due
load, and a write of either kind supersedes the due load for its register. -/
def registers (regs : Vector UInt32 32) (due : Option LoadDelay) : Effect → Vector UInt32 32
  | write target value =>
      Processor.commit (Processor.written regs target value) (Processor.superseded due target)
  | schedule target _ => Processor.commit regs (Processor.superseded due target)
  | transfer (some (link, value)) _ =>
      Processor.commit (Processor.written regs link value) (Processor.superseded due link)
  | _ => Processor.commit regs due

end Effect

namespace Processor

variable {β : Type} [Bus β]

/-- The part of an effect that does not concern registers and branches. -/
def applyUnits (p : Processor) : Effect → Processor
  | .results values => { p with hi := values.hi, lo := values.lo }
  | .control control => { p with control }
  | .cacheControl cacheControl => { p with cacheControl }
  | .cache cache => { p with cache }
  | _ => p

@[simp] theorem applyUnits_currentPc (p : Processor) (e : Effect) :
    (p.applyUnits e).currentPc = p.currentPc := by
  cases e <;> rfl

@[simp] theorem applyUnits_instruction (p : Processor) (e : Effect) :
    (p.applyUnits e).instruction = p.instruction := by
  cases e <;> rfl

/-- The word of a fetch, 0 when it failed. -/
def fetchedWord : Except Trap Fetch → UInt32
  | .ok fetched => fetched.word
  | .error _ => 0

/-- The processor as the fetched instruction finds it. -/
def ready (p : Processor) (bus : β) : Processor :=
  { (p.fetch bus).2.1.advance with instruction := fetchedWord (p.fetch bus).1 }

/-- The trap that a tick takes in place of an instruction, if it takes one. -/
def trap? (p : Processor) (bus : β) : Option Trap :=
  match (p.fetch bus).1 with
  | .error trap => some trap
  | .ok fetched =>
      if (p.ready bus).control.interruptPending then some (.plain .interrupt)
      else
        match ((p.ready bus).execute (.decode fetched.word) (p.fetch bus).2.2).1 with
        | .error trap => some trap
        | .ok _ => none

/-- The trap that a tick takes, or else the effect of its instruction, and the
bus afterwards. -/
def outcome (p : Processor) (bus : β) : Except Trap Effect × β :=
  match (p.fetch bus).1 with
  | .error trap => (.error trap, (p.fetch bus).2.2)
  | .ok fetched =>
      if (p.ready bus).control.interruptPending then (.error (.plain .interrupt), (p.fetch bus).2.2)
      else (p.ready bus).effect (.decode fetched.word) (p.fetch bus).2.2

/-- Takes the trap or applies the effect. -/
def conclude (p : Processor) : Except Trap Effect → Processor
  | .ok e => p.apply e
  | .error trap => p.raise trap

/-- A fetch touches nothing but the cache. -/
theorem fetch_processor (p : Processor) (bus : β) :
    (p.fetch bus).2.1 = { p with cache := (p.fetch bus).2.1.cache } := by
  unfold fetch
  cases p.misalignedFetch with
  | some trap => rfl
  | none =>
      dsimp only
      rcases p.cache.fetch (physicalAddress p.pc) p.fetchCached bus with ⟨_ | _, _, _⟩ <;> rfl

/-- A fetch past the cache is one read of a word. -/
theorem fetch_of_uncached {p : Processor} {bus bus' : β} {word : UInt32}
    (haligned : p.pc &&& 3 = 0) (hcached : p.fetchCached = false)
    (hread : Bus.read bus .word (physicalAddress p.pc) = (.ok word, bus')) :
    p.fetch bus = (.ok ⟨word, 4⟩, p, bus') := by
  have hnone : p.misalignedFetch = none := by rw [misalignedFetch, if_pos haligned]
  unfold fetch InstructionCache.fetch
  rw [hnone, hcached]
  simp only [Bool.false_eq_true, if_false, hread]

/-- Everything that the fetch and the latches change before an instruction is carried out. -/
theorem ready_eq (p : Processor) (bus : β) :
    p.ready bus =
      { p with
        currentPc := p.pc
        pc := p.pc + 4
        branches := ⟨none, p.branches.next⟩
        loads := ⟨none, p.loads.next⟩
        cache := (p.fetch bus).2.1.cache
        instruction := fetchedWord (p.fetch bus).1 } := by
  unfold ready
  rw [fetch_processor]
  rfl

/-- The fetched instruction finds the registers of before the tick, and the program
counter at the next word. -/
theorem reg_ready (p : Processor) (bus : β) (index : Register) :
    (p.ready bus).reg index = p.reg index := by
  rw [ready_eq]
  rfl

/-- By then the program counter has moved on by one word. -/
theorem pc_ready (p : Processor) (bus : β) : (p.ready bus).pc = p.pc + 4 := by
  rw [ready_eq]

/-- The control registers have not changed. -/
theorem control_ready (p : Processor) (bus : β) : (p.ready bus).control = p.control := by
  rw [ready_eq]

/-- **One tick in one equation.** -/
theorem tick_eq (p : Processor) (bus : β) :
    p.tick bus =
      (fetchCycles (p.fetch bus).1 + 1, ((p.ready bus).conclude (p.outcome bus).1).settle,
        (p.outcome bus).2) := by
  unfold tick outcome ready
  rcases p.fetch bus with ⟨trap | fetched, q, bus'⟩
  · rfl
  · dsimp only [dispatch, fetchedWord]
    split
    · rfl
    · rw [execute_eq]
      rcases effect _ _ _ with ⟨trap | e, after⟩ <;> rfl

/-- A trap is the error that the instruction ends in. -/
theorem trap?_eq (p : Processor) (bus : β) :
    p.trap? bus =
      match (p.outcome bus).1 with
      | .error trap => some trap
      | .ok _ => none := by
  unfold trap? outcome
  rcases (p.fetch bus).1 with trap | fetched
  · rfl
  · dsimp only
    split
    · rfl
    · rw [execute_eq]
      rcases effect _ _ _ with ⟨trap | e, after⟩ <;> rfl

/-- So a tick takes a trap exactly if it ends in that error. -/
theorem trap?_eq_some_iff {p : Processor} {bus : β} {trap : Trap} :
    p.trap? bus = some trap ↔ (p.outcome bus).1 = .error trap := by
  rw [trap?_eq]
  rcases (p.outcome bus).1 with trap | e <;> simp

/-- A tick without a trap executes the fetched word to its end. -/
theorem outcome_of_trap?_eq_none {p : Processor} {bus : β} (h : p.trap? bus = none) :
    ∃ fetched e, (p.fetch bus).1 = .ok fetched ∧ (p.outcome bus).1 = .ok e ∧
      (p.ready bus).effect (.decode fetched.word) (p.fetch bus).2.2 =
        (.ok e, (p.outcome bus).2) := by
  rw [trap?_eq] at h
  unfold outcome at h ⊢
  rcases hfetch : (p.fetch bus).1 with trap | fetched
  · rw [hfetch] at h; cases h
  · rw [hfetch] at h
    dsimp only at h ⊢
    by_cases hready : (p.ready bus).control.interruptPending
    · rw [if_pos hready] at h; cases h
    · rw [if_neg hready] at h ⊢
      rcases heffect : (p.ready bus).effect (.decode fetched.word) (p.fetch bus).2.2
        with ⟨trap | e, after⟩
      · rw [heffect] at h; cases h
      · exact ⟨fetched, e, rfl, rfl, heffect⟩

/-- Unless an interrupt is pending, the fetched instruction decides what the tick
comes to. -/
theorem outcome_of_fetch {p : Processor} {bus : β} {fetched : Fetch}
    (hfetch : (p.fetch bus).1 = .ok fetched) (hinterrupt : p.control.interruptPending = false) :
    p.outcome bus = (p.ready bus).effect (.decode fetched.word) (p.fetch bus).2.2 := by
  unfold outcome
  rw [hfetch]
  dsimp only
  rw [control_ready, if_neg (by rw [hinterrupt]; decide)]

/-- Unless an interrupt is pending, the fetched instruction decides whether the
tick takes a trap. -/
theorem trap?_of_fetch {p : Processor} {bus : β} {fetched : Fetch}
    (hfetch : (p.fetch bus).1 = .ok fetched) (hinterrupt : p.control.interruptPending = false) :
    p.trap? bus =
      match ((p.ready bus).effect (.decode fetched.word) (p.fetch bus).2.2).1 with
      | .error trap => some trap
      | .ok _ => none := by
  rw [trap?_eq, outcome_of_fetch hfetch hinterrupt]

/-- The control registers with which a trap enters the handler in place of the
instruction at the program counter. -/
def entered (p : Processor) (trap : Trap) : Control :=
  (recorded p.control trap).enterHandler trap.cause p.pendingBranch.isSome
    (if p.pendingBranch.isSome then p.pc - 4 else p.pc)

/-- The processor at the end of a tick that takes a trap. -/
theorem tick_of_trap?_eq_some {p : Processor} {bus : β} {trap : Trap}
    (h : p.trap? bus = some trap) :
    (p.tick bus).2.1 =
      { p with
        regs := commit p.regs p.pendingLoad
        currentPc := p.pc
        pc := (p.entered trap).handler
        control := p.entered trap
        branches := .empty
        loads := .empty
        cache := (p.fetch bus).2.1.cache
        instruction := fetchedWord (p.fetch bus).1 } := by
  rw [tick_eq, trap?_eq_some_iff.mp h]
  dsimp only [conclude]
  rw [raise_eq, settle_eq, ready_eq]
  rfl

/-- The processor at the end of a tick that applies an effect. -/
theorem settle_apply (p : Processor) (e : Effect) :
    (p.apply e).settle =
      { p.applyUnits e with
        regs := e.registers p.regs p.loads.current
        pc := if e.branch?.isSome then p.pc else p.branches.current.getD p.pc
        branches := ⟨e.branch? <|> p.branches.next, none⟩
        loads := ⟨e.load? <|> p.loads.next, none⟩ } := by
  cases e with
  | write target value => rw [apply, setReg_eq, settle_eq]; rfl
  | schedule target value =>
      rw [apply, setRegDelayed_eq, settle_eq]
      by_cases h : target = 0
      · subst h; rfl
      · simp only [Effect.load?, if_neg h]; rfl
  | transfer link target =>
      obtain _ | ⟨link, value⟩ := link
      · cases target <;> (rw [apply, settle_eq]; rfl)
      · cases target <;> (rw [apply, applyLink, setReg_eq, settle_eq]; rfl)
  | _ => rw [apply, settle_eq]; rfl

end Processor
end PlayStation
