import TraceCheck.Instruction.Catalog

/-!
# `TraceCheck.Checker.Observation`: observations and their kinds

What a trace observed for an instruction is a data byte or the outcome of a conditional
branch. Which of the two an opcode takes is a matter of the instruction set, so that an
observation of the wrong kind can be told from the opcode alone and is refused.
-/

set_option autoImplicit false

namespace TraceCheck

/-- A value that a trace observed for an instruction. -/
inductive Observation where
  /-- The byte the instruction read or wrote. -/
  | data (b : Byte)
  /-- Whether a conditional branch was taken. -/
  | branch (taken : Bool)
deriving DecidableEq

/-- The operand that an observation stands for, if it is of the right kind. A branch
that was taken counts as one and a branch that was not as zero. -/
def Observation.operand? : ObservationKind → Observation → Option Byte
  | .branch, branch taken => some (Byte.ofBool taken)
  | .read, data b | .write, data b => some b
  | _, _ => none

/-- An observation of the wrong kind for its opcode. -/
structure Rejection where
  /-- The opcode. -/
  opcode : Byte
  /-- Its mnemonic. -/
  mnemonic : Mnemonic
  /-- The kind of observation it takes. -/
  expected : ObservationKind
deriving DecidableEq

/-- The text of a rejection. -/
def Rejection.message (r : Rejection) : String :=
  "opcode 0x" ++ Byte.hex r.opcode ++ " (" ++ r.mnemonic.text ++ ") expects a " ++
    r.expected.name ++ " observation"

end TraceCheck
