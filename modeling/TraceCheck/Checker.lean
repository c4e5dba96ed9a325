import TraceCheck.Checker.Event
import TraceCheck.Checker.Observation
import TraceCheck.Checker.State
import TraceCheck.Prediction.Effect

/-!
# `TraceCheck.Checker`: checking a trace, one observation at a time

A checker holds its settings and its state. It is told of each instruction in the
order of execution, together with the one value the trace observed for it, and of each
hardware interrupt with the status byte that was pushed. It compares what the
observation shows with what it knew, moves its prediction on, and logs an event for the
instruction and one for each mismatch. A mismatch never stops it: it raises the fault,
which stays until a call that reports it or forgets everything.

Each of these functions is pure. A `Step` is the checker afterwards together with the
events logged on the way.
-/

set_option autoImplicit false

namespace TraceCheck

/-- A checker of one trace. -/
structure Checker where
  /-- How it predicts. -/
  settings : Settings
  /-- What it knows. -/
  state : State
deriving DecidableEq

/-- A checker after a call, and the events logged on the way. -/
structure Step where
  /-- The checker after the call. -/
  checker : Checker
  /-- The events, in order. -/
  events : List Event
deriving DecidableEq

namespace Checker

/-- A checker that knows nothing. -/
def fresh (settings : Settings) : Checker := { settings := settings, state := .blank }

/-- The checker after an observation that raised the given mismatches and led to the
given prediction. A pending fault stays pending. -/
def advance (c : Checker) (mismatches : List Mismatch) (cells : Prediction) : Checker :=
  { c with state := { cells := cells, fault := c.state.fault || !mismatches.isEmpty } }

/-- Compares evidence with the prediction as it stands, logs the mismatches under a
heading, and moves on to another prediction. -/
def takeIn (c : Checker) (heading : Event) (evidence : List Evidence) (cells : Prediction) :
    Step :=
  let mismatches := c.state.cells.mismatches evidence
  { checker := c.advance mismatches cells
    events := heading :: mismatches.map .mismatched }

/-- Applies an instruction with its observed operand: the byte read, the byte written,
or for a conditional branch any byte but zero when it was taken. -/
def dispatch (c : Checker) (opcode operand : Byte) : Step :=
  let op := (Instruction.decode opcode).operation
  c.takeIn (.dispatched opcode operand) (op.evidence operand)
    (op.effect c.settings operand c.state.cells)

/-- Applies an instruction with an observation that has to be of the kind its opcode
takes. Otherwise nothing happens at all. -/
def observe (c : Checker) (opcode : Byte) (observation : Observation) : Except Rejection Step :=
  let i := Instruction.decode opcode
  match observation.operand? i.observed with
  | some operand => .ok (c.dispatch opcode operand)
  | none => .error { opcode := opcode, mnemonic := i.mnemonic, expected := i.observed }

/-- Applies a hardware interrupt with the status byte that was pushed. -/
def interrupt (c : Checker) (status : Byte) : Step :=
  c.takeIn (.interrupted status) (statusEvidence status)
    (c.state.cells.interrupt c.settings.variant status)

/-- Forgets everything but the settings. -/
def reset (c : Checker) : Step :=
  { checker := fresh c.settings, events := [.forgotten] }

/-- The checker once its pending fault has been reported. -/
def clearFault (c : Checker) : Checker := { c with state := c.state.clearFault }

/-! ### What an instruction and an interrupt leave behind -/

@[simp] theorem settings_dispatch (c : Checker) (opcode operand : Byte) :
    (c.dispatch opcode operand).checker.settings = c.settings := rfl

theorem cells_dispatch (c : Checker) (opcode operand : Byte) :
    (c.dispatch opcode operand).checker.state.cells =
      (Instruction.decode opcode).operation.effect c.settings operand c.state.cells := rfl

/-- A fault is pending after an instruction when it was before or a mismatch was found. -/
theorem fault_dispatch (c : Checker) (opcode operand : Byte) :
    (c.dispatch opcode operand).checker.state.fault =
      (c.state.fault || !(c.state.cells.mismatches
        ((Instruction.decode opcode).operation.evidence operand)).isEmpty) := rfl

theorem events_dispatch (c : Checker) (opcode operand : Byte) :
    (c.dispatch opcode operand).events =
      .dispatched opcode operand :: (c.state.cells.mismatches
        ((Instruction.decode opcode).operation.evidence operand)).map .mismatched := rfl

@[simp] theorem settings_interrupt (c : Checker) (status : Byte) :
    (c.interrupt status).checker.settings = c.settings := rfl

theorem cells_interrupt (c : Checker) (status : Byte) :
    (c.interrupt status).checker.state.cells =
      c.state.cells.interrupt c.settings.variant status := rfl

/-- A fault is pending after an interrupt when it was before or a mismatch was found. -/
theorem fault_interrupt (c : Checker) (status : Byte) :
    (c.interrupt status).checker.state.fault =
      (c.state.fault || !(c.state.cells.mismatches (statusEvidence status)).isEmpty) := rfl

theorem events_interrupt (c : Checker) (status : Byte) :
    (c.interrupt status).events =
      .interrupted status ::
        (c.state.cells.mismatches (statusEvidence status)).map .mismatched := rfl

end Checker

end TraceCheck
