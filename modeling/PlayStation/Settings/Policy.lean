/-!
# Policies

What the machine does where the hardware's behaviour is left open.
-/

namespace PlayStation

/-- What executing a word that is no instruction does. -/
inductive UnknownOpcode where
  /-- It has no effect. -/
  | ignore
  /-- It raises the reserved instruction exception. -/
  | reservedInstruction
  deriving DecidableEq, Repr

/-- What the drawing unit does with a command that it cannot draw. -/
inductive UnhandledCommand where
  /-- The command's words are taken from the queue and dropped. -/
  | drop
  /-- The command stays at the head of the queue. -/
  | stall
  deriving DecidableEq, Repr

/-- The policies that a machine is built with. -/
structure Policies where
  unknownOpcode : UnknownOpcode := .ignore
  unhandledCommand : UnhandledCommand := .drop
  deriving DecidableEq, Repr

namespace UnknownOpcode

def name : UnknownOpcode → String
  | ignore => "ignore"
  | reservedInstruction => "reserved-instruction"

def ofName? (text : String) : Option UnknownOpcode :=
  [ignore, reservedInstruction].find? (·.name = text)

end UnknownOpcode

namespace UnhandledCommand

def name : UnhandledCommand → String
  | drop => "drop"
  | stall => "stall"

def ofName? (text : String) : Option UnhandledCommand :=
  [drop, stall].find? (·.name = text)

end UnhandledCommand
end PlayStation
