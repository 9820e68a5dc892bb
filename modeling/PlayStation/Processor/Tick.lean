import PlayStation.Processor.Execution

/-!
# One tick of the processor

A tick fetches the word at the program counter, executes it or takes an
exception, and then lets the branch and the load that fall due take effect.
It costs what the fetch cost and one cycle more; a failed fetch costs nothing.
-/

namespace PlayStation.Processor

variable {β : Type} [Bus β]

/-- The trap of an address that holds no instruction, if it is one. -/
def misalignedFetch (p : Processor) : Option Trap :=
  if p.pc &&& 3 = 0 then none else some (.badAddress .addressErrorLoad p.pc)

/-- Whether the next fetch goes through the cache. -/
def fetchCached (p : Processor) : Bool :=
  Bits.flag p.cacheControl CacheControl.enable && (Segment.of p.pc).cacheable

/-- Fetches the word at the program counter. -/
def fetch (p : Processor) (bus : β) : Except Trap Fetch × Processor × β :=
  match p.misalignedFetch with
  | some trap => (.error trap, p, bus)
  | none =>
    match p.cache.fetch (physicalAddress p.pc) p.fetchCached bus with
    | (.ok fetched, cache, bus) => (.ok fetched, { p with cache }, bus)
    | (.error _, cache, bus) => (.error (.plain .busErrorInstruction), { p with cache }, bus)

/-- Moves on to the instruction at the program counter: it becomes the current
one, and what its predecessor scheduled falls due. -/
def advance (p : Processor) : Processor :=
  { p with
    currentPc := p.pc
    pc := p.pc + 4
    branches := p.branches.advance
    loads := p.loads.advance }

/-- Executes the fetched word, or takes the exception that prevents it. -/
def dispatch (p : Processor) (fetched : Except Trap Fetch) (bus : β) : Processor × β :=
  match fetched with
  | .error trap => ({ p with instruction := 0 }.raise trap, bus)
  | .ok fetched =>
    let p := { p with instruction := fetched.word }
    if p.control.interruptPending then
      (p.enterHandler .interrupt, bus)
    else
      match p.execute (Instruction.decode fetched.word) bus with
      | (.ok p, bus) => (p, bus)
      | (.error trap, bus) => (p.raise trap, bus)

/-- Carries out the branch and the load that fall due. -/
def settle (p : Processor) : Processor :=
  let p :=
    match p.branches.current with
    | some target => { p with pc := target, branches := p.branches.cancelCurrent }
    | none => p
  match p.loads.current with
  | some load => { p with loads := p.loads.cancelCurrent }.putReg load.reg load.value
  | none => p

/-- The cycles that a fetch costs. -/
def fetchCycles : Except Trap Fetch → Nat
  | .ok fetched => fetched.cycles
  | .error _ => 0

/-- One tick, with the number of cycles it takes. -/
def tick (p : Processor) (bus : β) : Nat × Processor × β :=
  let (fetched, p, bus) := p.fetch bus
  let (p, bus) := p.advance.dispatch fetched bus
  (fetchCycles fetched + 1, p.settle, bus)

end PlayStation.Processor
