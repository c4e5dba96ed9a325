import TraceCheck.Arithmetic
import TraceCheck.Cell

/-!
# `TraceCheck.Instruction.Operation`: what instructions do to the cells

Opcodes that differ only in their addressing mode do the same to registers and flags.
An `Operation` is that common behaviour. Its effect on a prediction is defined in
`TraceCheck.Prediction.Effect`, and what the observed operand shows about the cells in
`TraceCheck.Prediction.Evidence`.
-/

set_option autoImplicit false

namespace TraceCheck

/-- Where a shift, a rotate, an increment or a decrement applies. -/
inductive Target where
  /-- A register. -/
  | register (r : Register)
  /-- Memory, which is not modeled. The flags follow the byte that was read. -/
  | memory
deriving DecidableEq

/-- What an instruction does to the cells. -/
inductive Operation where
  /-- The register takes the byte read. -/
  | load (r : Register)
  /-- The register is written to memory. -/
  | store (r : Register)
  /-- The register is pushed. -/
  | push (r : Register)
  /-- The register is pulled. -/
  | pull (r : Register)
  /-- The status byte is pushed. -/
  | pushStatus
  /-- The status byte is pulled. -/
  | pullStatus
  /-- Addition with carry to the accumulator. -/
  | add
  /-- Subtraction with borrow from the accumulator. -/
  | subtract
  /-- Bitwise combination with the accumulator. -/
  | combine (g : Gate)
  /-- Comparison of a register with the byte read. -/
  | compare (r : Register)
  /-- Bit test in memory: N and V from the byte, Z from the byte and the accumulator. -/
  | bitTest
  /-- Bit test of a constant: Z only. -/
  | bitTestConstant
  /-- Setting or resetting bits in memory: Z tells whether the bits met the accumulator. -/
  | changeBits
  /-- Shift by one place, a zero entering. -/
  | shift (d : Direction) (t : Target)
  /-- Shift by one place, the carry entering. -/
  | rotate (d : Direction) (t : Target)
  /-- Addition of one. -/
  | increment (t : Target)
  /-- Subtraction of one. -/
  | decrement (t : Target)
  /-- Assignment of a flag. -/
  | setFlag (f : Flag) (value : Bool)
  /-- Copy of one register into another. -/
  | transfer (source destination : Register)
  /-- Branch, taken when the flag has the given value. -/
  | branch (f : Flag) (takenWhen : Bool)
  /-- Subroutine call. -/
  | jumpSubroutine
  /-- Return from a subroutine. -/
  | returnSubroutine
  /-- Return from an interrupt handler. -/
  | returnInterrupt
  /-- Software interrupt. -/
  | breakInterrupt
  /-- No effect on any cell. -/
  | unmodeled
deriving DecidableEq

/-- A target as a listing shows it. -/
def Target.describe : Target → String
  | register r => "Register(" ++ r.letter ++ ")"
  | memory => "Memory"

namespace Operation

/-- Whether the operation affects the cells at all. -/
def isModeled (op : Operation) : Bool := op != unmodeled

/-- An operation as a listing shows it. -/
def describe : Operation → String
  | load r => "Load(" ++ r.letter ++ ")"
  | store r => "Store(" ++ r.letter ++ ")"
  | push r => "Push(" ++ r.letter ++ ")"
  | pull r => "Pull(" ++ r.letter ++ ")"
  | pushStatus => "PushStatus"
  | pullStatus => "PullStatus"
  | add => "Adc"
  | subtract => "Sbc"
  | combine .and => "And"
  | combine .or => "Ora"
  | combine .xor => "Eor"
  | compare r => "Compare(" ++ r.letter ++ ")"
  | bitTest => "Bit"
  | bitTestConstant => "BitImmediate"
  | changeBits => "TestBits"
  | shift .left t => "ShiftLeft(" ++ t.describe ++ ")"
  | shift .right t => "ShiftRight(" ++ t.describe ++ ")"
  | rotate .left t => "RotateLeft(" ++ t.describe ++ ")"
  | rotate .right t => "RotateRight(" ++ t.describe ++ ")"
  | increment t => "Increment(" ++ t.describe ++ ")"
  | decrement t => "Decrement(" ++ t.describe ++ ")"
  | setFlag f value => "SetFlag(" ++ f.name ++ ", " ++ toString value ++ ")"
  | transfer source destination =>
    "Transfer(" ++ source.letter ++ ", " ++ destination.letter ++ ")"
  | branch f takenWhen => "Branch(" ++ f.name ++ ", " ++ toString takenWhen ++ ")"
  | jumpSubroutine => "Jsr"
  | returnSubroutine => "Rts"
  | returnInterrupt => "Rti"
  | breakInterrupt => "Brk"
  | unmodeled => "Unmodeled"

end Operation

end TraceCheck
