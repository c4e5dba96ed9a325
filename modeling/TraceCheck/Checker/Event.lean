import TraceCheck.Prediction.Evidence

/-!
# `TraceCheck.Checker.Event`: the log of a checker

A checker logs the course of the trace, which is every instruction and every hardware
interrupt, and beside it what deserves a closer look: each mismatch, and each time that
everything was forgotten. The course of the trace is logged before the mismatches that
it led to.
-/

set_option autoImplicit false

namespace TraceCheck

/-- How much an event matters to a reader of the log. -/
inductive Level where
  /-- The course of the trace. -/
  | trace
  /-- What deserves a closer look. -/
  | debug
deriving DecidableEq

/-- The name of a level. -/
def Level.name : Level → String
  | trace => "TRACE"
  | debug => "DEBUG"

/-- An entry of the log. -/
inductive Event where
  /-- An instruction was dispatched. -/
  | dispatched (opcode operand : Byte)
  /-- A hardware interrupt was taken. -/
  | interrupted (status : Byte)
  /-- An observation contradicted a known cell. -/
  | mismatched (m : Mismatch)
  /-- Everything was forgotten. -/
  | forgotten
deriving DecidableEq

namespace Event

/-- The level of an event. -/
def level : Event → Level
  | dispatched _ _ | interrupted _ => .trace
  | mismatched _ | forgotten => .debug

/-- The message of an event. -/
def message : Event → String
  | dispatched _ _ => "dispatch"
  | interrupted _ => "interrupt"
  | mismatched _ => "prediction mismatch"
  | forgotten => "symbolic state reset"

end Event

end TraceCheck
