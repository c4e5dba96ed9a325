import TraceCheck.Checker.Call

/-!
# `TraceCheck.Sweep`: one call with every byte

A sweep tries one kind of call on a prepared checker 256 times, each time from the same
start and each time with another byte in the places that were left open. What it reports
for each byte is the state line after the call, or the reason why the call was refused.
-/

set_option autoImplicit false

namespace TraceCheck

/-- The kind of call a sweep makes. An opcode or an operand that is left open takes the
byte of the sweep. -/
inductive Sweep where
  /-- Dispatch an instruction. -/
  | dispatch (opcode operand : Option Byte)
  /-- Observe a data byte. -/
  | data (opcode operand : Option Byte)
  /-- Observe a branch outcome. -/
  | branch (opcode : Option Byte) (taken : Bool)
  /-- Take an interrupt. -/
  | interrupt (status : Option Byte)

namespace Sweep

/-- The call made for a byte. -/
def call (b : Byte) : Sweep → Call
  | dispatch opcode operand => .dispatch (opcode.getD b) (operand.getD b)
  | data opcode operand => .observe (opcode.getD b) (.data (operand.getD b))
  | branch opcode taken => .observe (opcode.getD b) (.branch taken)
  | interrupt status => .interrupt (status.getD b)

/-- What is reported for a byte. -/
def line (c : Checker) (sweep : Sweep) (b : Byte) : String :=
  let outcome := c.call (sweep.call b)
  match outcome.reply with
  | .rejected r => r.message
  | _ => outcome.checker.state.line

/-- The reports for all bytes, in ascending order. -/
def lines (c : Checker) (sweep : Sweep) : List String :=
  (List.range 256).map fun n => sweep.line c (BitVec.ofNat 8 n)

end Sweep

end TraceCheck
