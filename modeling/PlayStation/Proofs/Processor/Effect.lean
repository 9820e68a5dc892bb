import PlayStation.Proofs.Processor.Registers

/-!
# Instructions as effects

An instruction reads registers and the bus first and changes the processor
once, at its end.  This file separates the two halves.  `effect` is the
reading half: it gives the one change that an instruction asks for, as a piece
of data, or the trap that it raises.  `apply` is the writing half.

* `execute_eq` — executing an instruction is applying its effect;
* `effect_setLoads` — the reading half does not look at the load latch, with
  the exception of the loads that merge into the register they are for;
* `effectOf_of_effect` — the register that an effect writes and the branch that
  it decides are the ones that the instruction names, whatever was read.
-/

namespace PlayStation

/-- The change that an instruction makes to the processor. -/
inductive Effect where
  | nothing
  | write (target : Register) (value : UInt32)
  /-- A load, which reaches its register one instruction later. -/
  | schedule (target : Register) (value : UInt32)
  /-- A branch or jump: what it links, and the target if it is taken. -/
  | transfer (link : Option (Register × UInt32)) (target : Option UInt32)
  | results (values : HiLo)
  | control (registers : Control)
  | cacheControl (value : UInt32)
  | cache (lines : InstructionCache)

namespace Effect

/-- The register that an effect writes, at once or through the load latch. -/
def target? : Effect → Option Register
  | write target _ | schedule target _ => some target
  | transfer link _ => link.map Prod.fst
  | _ => none

/-- The branch that an effect decides. -/
def branch? : Effect → Option UInt32
  | transfer _ target => target
  | _ => none

/-- What a branch writes into its link register. -/
def link? : Effect → Option (Register × UInt32)
  | transfer link _ => link
  | _ => none

end Effect

/-- The register that an instruction writes when it completes, at once or
through the load latch. -/
def Instruction.target? : Instruction → Option Register
  | .shift _ target _ _ | .shiftBy _ target _ _ | .operate _ target _ _
  | .operateImmediate _ target _ _ | .addChecked target _ _ | .subtractChecked target _ _
  | .addCheckedImmediate target _ _ | .loadUpper target _ | .moveFromHi target
  | .moveFromLo target | .load _ target _ _ | .moveFromControl target _
  | .jumpAndLinkRegister target _ => some target
  | .jumpAndLink _ | .branchAndLink _ _ => some 31
  | _ => none

/-- The instructions that can decide a branch. -/
def Instruction.transfers : Instruction → Bool
  | .jump _ | .jumpAndLink _ | .jumpRegister _ | .jumpAndLinkRegister _ _ | .branch _ _
  | .branchAndLink _ _ => true
  | _ => false

/-- The register that an instruction links. -/
def Instruction.link? : Instruction → Option Register
  | .jumpAndLink _ | .branchAndLink _ _ => some 31
  | .jumpAndLinkRegister link _ => some link
  | _ => none

namespace Processor

variable {β : Type} [Bus β]

/-- Writes the link register of a branch, if it has one. -/
def applyLink (p : Processor) : Option (Register × UInt32) → Processor
  | some (register, value) => p.setReg register value
  | none => p

/-- Decides a branch, if it is taken. -/
def applyBranch (p : Processor) : Option UInt32 → Processor
  | some target => p.branchTo target
  | none => p

/-- Makes the change that an instruction asks for. -/
def apply (p : Processor) : Effect → Processor
  | .nothing => p
  | .write target value => p.setReg target value
  | .schedule target value => p.setRegDelayed target value
  | .transfer link target => (p.applyLink link).applyBranch target
  | .results values => { p with hi := values.hi, lo := values.lo }
  | .control control => { p with control }
  | .cacheControl cacheControl => { p with cacheControl }
  | .cache cache => { p with cache }

/-- The effect of writing a result that may not exist. -/
def checkedEffect (target : Register) : Option UInt32 → Except Trap Effect
  | some value => .ok (.write target value)
  | none => .error (.plain .overflow)

/-- The target of a conditional branch, if its condition holds. -/
def branchTarget? (p : Processor) (condition : Condition) (offset : UInt32) : Option UInt32 :=
  if p.holds condition then some (p.pc + offset) else none

/-- The effect of an instruction that does not use the bus. -/
def localEffect (p : Processor) : Instruction → Except Trap Effect
  | .shift kind target source amount => .ok (.write target (kind.apply (p.reg source) amount))
  | .shiftBy kind target source amount =>
      .ok (.write target (kind.apply (p.reg source) (p.reg amount &&& 0x1F)))
  | .operate op target a b => .ok (.write target (op.apply (p.reg a) (p.reg b)))
  | .operateImmediate op target a value => .ok (.write target (op.apply (p.reg a) value))
  | .addChecked target a b => checkedEffect target (Arithmetic.add? (p.reg a) (p.reg b))
  | .subtractChecked target a b => checkedEffect target (Arithmetic.sub? (p.reg a) (p.reg b))
  | .addCheckedImmediate target a value => checkedEffect target (Arithmetic.add? (p.reg a) value)
  | .loadUpper target value => .ok (.write target value)
  | .long op a b => .ok (.results (long op (p.reg a) (p.reg b)))
  | .moveFromHi target => .ok (.write target p.hi)
  | .moveFromLo target => .ok (.write target p.lo)
  | .moveToHi source => .ok (.results ⟨p.reg source, p.lo⟩)
  | .moveToLo source => .ok (.results ⟨p.hi, p.reg source⟩)
  | .jump target => .ok (.transfer none (some (p.jumpTarget target)))
  | .jumpAndLink target =>
      .ok (.transfer (some (31, p.returnAddress)) (some (p.jumpTarget target)))
  | .jumpRegister source => .ok (.transfer none (some (p.reg source)))
  | .jumpAndLinkRegister link source =>
      .ok (.transfer (some (link, p.returnAddress)) (some (p.reg source)))
  | .branch condition offset => .ok (.transfer none (p.branchTarget? condition offset))
  | .branchAndLink condition offset =>
      .ok (.transfer (some (31, p.returnAddress)) (p.branchTarget? condition offset))
  | .syscall => .error (.plain .syscall)
  | .breakpoint => .error (.plain .breakpoint)
  | .moveFromControl target index => .ok (.schedule target (p.control.get index))
  | .moveToControl source index => .ok (.control (p.control.write index (p.reg source)))
  | .returnFromException => .ok (.control p.control.leaveHandler)
  | .coprocessor unit =>
      if p.coprocessorUsable unit then .ok .nothing else .error (.unusable unit)
  | .unknown =>
      match p.unknownOpcode with
      | .ignore => .ok .nothing
      | .reservedInstruction => .error (.plain .reservedInstruction)
  | .load .. | .store .. => .ok .nothing

/-- The effect of a load. -/
def loadEffect (p : Processor) (kind : LoadKind) (target : Register) (address : UInt32)
    (bus : β) : Except Trap Effect × β :=
  if address &&& LoadKind.misalignment kind ≠ 0 then
    (.error (.badAddress .addressErrorLoad address), bus)
  else
    ((p.loadValue kind target address bus).1.map (.schedule target),
      (p.loadValue kind target address bus).2)

/-- The effect of writing data: nothing when the data goes to the bus. -/
def writeEffect (p : Processor) (width : Width) (address value : UInt32) (bus : β) :
    Except Trap Effect × β :=
  let physical := physicalAddress address
  let value := width.truncate value
  if physical = CacheControl.address then
    (.ok (.cacheControl value), bus)
  else if p.control.isolated then
    if Bits.flag p.cacheControl CacheControl.tagTest then
      (.ok (.cache (p.cache.invalidateLine physical)), bus)
    else
      (.ok (.cache (p.cache.fillWord physical value)), bus)
  else
    match Bus.write bus width physical value with
    | (.ok (), bus) => (.ok .nothing, bus)
    | (.error _, bus) => (.error (.plain .busErrorData), bus)

/-- The effect of changing an aligned word. -/
def updateEffect (p : Processor) (address : UInt32) (change : UInt32 → UInt32) (bus : β) :
    Except Trap Effect × β :=
  match p.readData .word address bus with
  | (.ok word, bus) => p.writeEffect .word address (change word) bus
  | (.error trap, bus) => (.error trap, bus)

/-- The effect of a store. -/
def storeEffect (p : Processor) (kind : StoreKind) (value address : UInt32) (bus : β) :
    Except Trap Effect × β :=
  if address &&& StoreKind.misalignment kind ≠ 0 then
    (.error (.badAddress .addressErrorStore address), bus)
  else
    match kind with
    | .byte => p.writeEffect .byte address value bus
    | .half => p.writeEffect .half address value bus
    | .word => p.writeEffect .word address value bus
    | .wordLeft =>
        p.updateEffect (address &&& ~~~3) (fun word => Unaligned.storeLeft address word value) bus
    | .wordRight =>
        p.updateEffect (address &&& ~~~3) (fun word => Unaligned.storeRight address word value) bus

/-- The effect of an instruction, or the trap that it raises. -/
def effect (p : Processor) (instruction : Instruction) (bus : β) : Except Trap Effect × β :=
  match instruction with
  | .load kind target base offset => p.loadEffect kind target (p.reg base + offset) bus
  | .store kind source base offset =>
      p.storeEffect kind (p.reg source) (p.reg base + offset) bus
  | local' => (p.localEffect local', bus)

/-! ## Executing an instruction is applying its effect -/

/-- Checked arithmetic writes its result or overflows. -/
theorem setChecked_eq (p : Processor) (target : Register) (result : Option UInt32) :
    p.setChecked target result = (checkedEffect target result).map p.apply := by
  cases result <;> rfl

/-- A branch is taken or not as its condition says of the registers before the tick. -/
theorem branchIf_eq (p q : Processor) (hpc : q.pc = p.pc) (condition : Condition)
    (offset : UInt32) :
    q.branchIf (p.holds condition) offset = q.applyBranch (p.branchTarget? condition offset) := by
  unfold branchIf branchTarget?
  rw [hpc]
  split <;> rfl

/-- An instruction that works on registers applies its effect. -/
theorem executeLocal_eq (p : Processor) (instruction : Instruction) :
    p.executeLocal instruction = (p.localEffect instruction).map p.apply := by
  cases instruction with
  | addChecked target a b => exact p.setChecked_eq _ _
  | subtractChecked target a b => exact p.setChecked_eq _ _
  | addCheckedImmediate target a value => exact p.setChecked_eq _ _
  | branch condition offset =>
      exact congrArg Except.ok (branchIf_eq p p rfl condition offset)
  | branchAndLink condition offset =>
      exact congrArg Except.ok (branchIf_eq p _ (by rw [setReg_eq]) condition offset)
  | coprocessor unit =>
      simp only [executeLocal, localEffect]
      split <;> rfl
  | unknown =>
      simp only [executeLocal, localEffect]
      cases p.unknownOpcode <;> rfl
  | _ => rfl

/-- So does a load, with what it reads from the bus. -/
theorem executeLoad_eq (p : Processor) (kind : LoadKind) (target : Register) (address : UInt32)
    (bus : β) :
    p.executeLoad kind target address bus =
      ((p.loadEffect kind target address bus).1.map p.apply,
        (p.loadEffect kind target address bus).2) := by
  unfold executeLoad loadEffect
  split
  · rfl
  · rcases p.loadValue kind target address bus with ⟨_ | _, _⟩ <;> rfl

theorem writeData_eq (p : Processor) (width : Width) (address value : UInt32) (bus : β) :
    p.writeData width address value bus =
      ((p.writeEffect width address value bus).1.map p.apply,
        (p.writeEffect width address value bus).2) := by
  unfold writeData writeEffect
  dsimp only
  split
  · rfl
  · split
    · split <;> rfl
    · rcases Bus.write bus width (physicalAddress address) (width.truncate value)
        with ⟨_ | _, _⟩ <;> rfl

theorem updateWord_eq (p : Processor) (address : UInt32) (change : UInt32 → UInt32) (bus : β) :
    p.updateWord address change bus =
      ((p.updateEffect address change bus).1.map p.apply,
        (p.updateEffect address change bus).2) := by
  unfold updateWord updateEffect
  rcases p.readData .word address bus with ⟨_ | word, bus'⟩
  · rfl
  · exact p.writeData_eq _ _ _ _

theorem executeStore_eq (p : Processor) (kind : StoreKind) (value address : UInt32) (bus : β) :
    p.executeStore kind value address bus =
      ((p.storeEffect kind value address bus).1.map p.apply,
        (p.storeEffect kind value address bus).2) := by
  unfold executeStore storeEffect
  split
  · rfl
  · cases kind with
    | byte => exact p.writeData_eq _ _ _ _
    | half => exact p.writeData_eq _ _ _ _
    | word => exact p.writeData_eq _ _ _ _
    | wordLeft => exact p.updateWord_eq _ _ _
    | wordRight => exact p.updateWord_eq _ _ _

/-- **An instruction is its effect.**  Executing an instruction computes its
effect from the processor and the bus, and then applies it. -/
theorem execute_eq (p : Processor) (instruction : Instruction) (bus : β) :
    p.execute instruction bus =
      ((p.effect instruction bus).1.map p.apply, (p.effect instruction bus).2) := by
  cases instruction with
  | load kind target base offset => exact p.executeLoad_eq _ _ _ _
  | store kind source base offset => exact p.executeStore_eq _ _ _ _
  | _ => exact congrArg (·, bus) (p.executeLocal_eq _)

/-! ## What the effect depends on -/

/-- The processor with another load latch. -/
def setLoads (p : Processor) (loads : DelayLatch LoadDelay) : Processor :=
  { p with loads }

end Processor

/-- Whether an instruction is a load that merges into the register `r`. -/
def Instruction.mergesInto (r : Register) : Instruction → Bool
  | .load .wordLeft target _ _ | .load .wordRight target _ _ => target = r
  | _ => false

namespace Processor

variable {β : Type} [Bus β]

/-- A load that does not merge into the register of a due load does not see its
value. -/
theorem loadValue_setLoads (p : Processor) (next : Option LoadDelay) (due due' : LoadDelay)
    (hreg : due.reg = due'.reg) (kind : LoadKind) (target : Register)
    (hmerge : kind = .wordLeft ∨ kind = .wordRight → due.reg ≠ target) (address : UInt32)
    (bus : β) :
    (p.setLoads ⟨next, some due⟩).loadValue kind target address bus =
      (p.setLoads ⟨next, some due'⟩).loadValue kind target address bus := by
  have hbase (h : due.reg ≠ target) : (p.setLoads ⟨next, some due⟩).mergeBase target =
      (p.setLoads ⟨next, some due'⟩).mergeBase target := by
    simp only [mergeBase, setLoads, if_neg h, if_neg (hreg ▸ h)]
    rfl
  cases kind with
  | wordLeft =>
      simp only [loadValue, hbase (hmerge (Or.inl rfl))]
      rfl
  | wordRight =>
      simp only [loadValue, hbase (hmerge (Or.inr rfl))]
      rfl
  | _ => rfl

/-- **The value of a due load is not read.**  Two due loads for the same
register give an instruction the same effect, unless it merges into that
register. -/
theorem effect_setLoads (p : Processor) (next : Option LoadDelay) (due due' : LoadDelay)
    (hreg : due.reg = due'.reg) (instruction : Instruction)
    (hmerge : instruction.mergesInto due.reg = false) (bus : β) :
    (p.setLoads ⟨next, some due⟩).effect instruction bus =
      (p.setLoads ⟨next, some due'⟩).effect instruction bus := by
  cases instruction with
  | load kind target base offset =>
      have hkind : kind = .wordLeft ∨ kind = .wordRight → due.reg ≠ target := by
        rintro (rfl | rfl) rfl <;> simp [Instruction.mergesInto] at hmerge
      have hvalue (address : UInt32) :=
        loadValue_setLoads p next due due' hreg kind target hkind address bus
      simp only [effect, loadEffect, hvalue]
      rfl
  | _ => rfl

/-! ## What an effect writes and decides -/

/-- The target of a jump, or of a branch whose condition holds. -/
def transferTarget? (p : Processor) : Instruction → Option UInt32
  | .jump target | .jumpAndLink target => some (p.jumpTarget target)
  | .jumpRegister source | .jumpAndLinkRegister _ source => some (p.reg source)
  | .branch condition offset | .branchAndLink condition offset =>
      p.branchTarget? condition offset
  | _ => none

/-- What an effect may write and decide, for the instruction that it is of. -/
structure EffectOf (p : Processor) (instruction : Instruction) (e : Effect) : Prop where
  target : e.target? = instruction.target?
  link : e.link? = instruction.link?.map fun register => (register, p.returnAddress)
  branch : e.branch? = p.transferTarget? instruction

/-- Checked arithmetic that does not overflow writes its target. -/
theorem checkedEffect_eq_ok {target : Register} {result : Option UInt32} {e : Effect}
    (h : checkedEffect target result = .ok e) : ∃ value, e = .write target value := by
  cases result with
  | none => cases h
  | some value => cases h; exact ⟨value, rfl⟩

/-- The effect of an instruction that works on registers is one that the instruction may have. -/
theorem effectOf_of_localEffect {p : Processor} {instruction : Instruction} {e : Effect}
    (hload : ∀ kind target base offset, instruction ≠ .load kind target base offset)
    (h : p.localEffect instruction = .ok e) : EffectOf p instruction e := by
  cases instruction with
  | addChecked target a b =>
      obtain ⟨value, rfl⟩ := checkedEffect_eq_ok h
      exact ⟨rfl, rfl, rfl⟩
  | subtractChecked target a b =>
      obtain ⟨value, rfl⟩ := checkedEffect_eq_ok h
      exact ⟨rfl, rfl, rfl⟩
  | addCheckedImmediate target a value =>
      obtain ⟨value, rfl⟩ := checkedEffect_eq_ok h
      exact ⟨rfl, rfl, rfl⟩
  | coprocessor unit =>
      simp only [localEffect] at h
      split at h
      · cases h; exact ⟨rfl, rfl, rfl⟩
      · cases h
  | unknown =>
      simp only [localEffect] at h
      split at h
      · cases h; exact ⟨rfl, rfl, rfl⟩
      · cases h
  | syscall => cases h
  | breakpoint => cases h
  | load kind target base offset => exact absurd rfl (hload _ _ _ _)
  | _ => cases h; exact ⟨rfl, rfl, rfl⟩

/-- A load that succeeds schedules a value for its target. -/
theorem loadEffect_eq_ok {p : Processor} {kind : LoadKind} {target : Register}
    {address : UInt32} {bus bus' : β} {e : Effect}
    (h : p.loadEffect kind target address bus = (.ok e, bus')) :
    ∃ value, e = .schedule target value := by
  unfold loadEffect at h
  split at h
  · cases h
  · rcases hvalue : p.loadValue kind target address bus with ⟨_ | value, after⟩
    · rw [hvalue] at h; cases h
    · rw [hvalue] at h; cases h; exact ⟨value, rfl⟩

/-- A store writes no register and decides no branch. -/
theorem writeEffect_eq_ok {p : Processor} {width : Width} {address value : UInt32}
    {bus bus' : β} {e : Effect} (h : p.writeEffect width address value bus = (.ok e, bus')) :
    e.target? = none ∧ e.link? = none ∧ e.branch? = none := by
  unfold writeEffect at h
  dsimp only at h
  split at h
  · cases h; exact ⟨rfl, rfl, rfl⟩
  · split at h
    · split at h
      · cases h; exact ⟨rfl, rfl, rfl⟩
      · cases h; exact ⟨rfl, rfl, rfl⟩
    · split at h
      · cases h; exact ⟨rfl, rfl, rfl⟩
      · cases h

/-- A store writes no register and does not branch. -/
theorem storeEffect_eq_ok {p : Processor} {kind : StoreKind} {value address : UInt32}
    {bus bus' : β} {e : Effect} (h : p.storeEffect kind value address bus = (.ok e, bus')) :
    e.target? = none ∧ e.link? = none ∧ e.branch? = none := by
  have hupdate {address : UInt32} {change : UInt32 → UInt32}
      (h : p.updateEffect address change bus = (.ok e, bus')) :
      e.target? = none ∧ e.link? = none ∧ e.branch? = none := by
    unfold updateEffect at h
    split at h
    · exact writeEffect_eq_ok h
    · cases h
  unfold storeEffect at h
  split at h
  · cases h
  · cases kind with
    | wordLeft => exact hupdate h
    | wordRight => exact hupdate h
    | _ => exact writeEffect_eq_ok h

/-- **An effect writes the register and decides the branch that its instruction
names**, whatever else was read. -/
theorem effectOf_of_effect {p : Processor} {instruction : Instruction} {bus bus' : β}
    {e : Effect} (h : p.effect instruction bus = (.ok e, bus')) : EffectOf p instruction e := by
  cases instruction with
  | load kind target base offset =>
      obtain ⟨value, rfl⟩ := loadEffect_eq_ok h
      exact ⟨rfl, rfl, rfl⟩
  | store kind source base offset =>
      obtain ⟨htarget, hlink, hbranch⟩ := storeEffect_eq_ok h
      exact ⟨htarget, hlink, hbranch⟩
  | _ => exact effectOf_of_localEffect (by simp) (congrArg Prod.fst h)

/-- Only jumps and branches have a target. -/
theorem transfers_of_transferTarget? {p : Processor} {instruction : Instruction}
    {target : UInt32} (h : p.transferTarget? instruction = some target) :
    instruction.transfers = true := by
  cases instruction with
  | jump target => rfl
  | jumpAndLink target => rfl
  | jumpRegister source => rfl
  | jumpAndLinkRegister link source => rfl
  | branch condition offset => rfl
  | branchAndLink condition offset => rfl
  | _ => cases h

end Processor
end PlayStation
