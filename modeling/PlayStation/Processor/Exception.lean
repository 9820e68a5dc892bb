/-!
# Exceptions

Why the processor leaves the running instruction for its handler, and what it
records besides the reason.
-/

namespace PlayStation

/-- The reasons for an exception. -/
inductive ExceptionCause where
  | interrupt
  | addressErrorLoad
  | addressErrorStore
  | busErrorInstruction
  | busErrorData
  | syscall
  | breakpoint
  | reservedInstruction
  | coprocessorUnusable
  | overflow
  deriving DecidableEq, Repr

/-- The code that the cause register shows. -/
def ExceptionCause.code : ExceptionCause → UInt32
  | .interrupt => 0
  | .addressErrorLoad => 4
  | .addressErrorStore => 5
  | .busErrorInstruction => 6
  | .busErrorData => 7
  | .syscall => 8
  | .breakpoint => 9
  | .reservedInstruction => 10
  | .coprocessorUnusable => 11
  | .overflow => 12

/-- What an instruction that cannot complete reports.  It has had no effect on
the processor. -/
inductive Trap where
  /-- The cause alone is recorded. -/
  | plain (cause : ExceptionCause)
  /-- The faulting address is recorded as well. -/
  | badAddress (cause : ExceptionCause) (address : UInt32)
  /-- The number of the missing coprocessor is recorded as well. -/
  | unusable (unit : UInt32)
  deriving DecidableEq, Repr

/-- The cause of a trap. -/
def Trap.cause : Trap → ExceptionCause
  | .plain cause => cause
  | .badAddress cause _ => cause
  | .unusable _ => .coprocessorUnusable

end PlayStation
