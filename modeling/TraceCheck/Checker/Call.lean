import TraceCheck.Checker

/-!
# `TraceCheck.Checker.Call`: the calls on a checker and runs of them

Everything that can be asked of a checker is a `Call`, everything it answers a `Reply`,
and `Checker.call` takes one to the other. Reports of the state come in two kinds:
`snapshot` and the other reads leave a pending fault alone, `takeSnapshot` and `render`
clear it. A run of calls is a list; `after`, `log` and `replies` say where it leads,
what it logs and what it answers.
-/

set_option autoImplicit false

namespace TraceCheck

/-- A call on a checker. -/
inductive Call where
  /-- Apply an instruction with its operand. -/
  | dispatch (opcode operand : Byte)
  /-- Apply an instruction with an observation of the right kind. -/
  | observe (opcode : Byte) (observation : Observation)
  /-- Apply a hardware interrupt. -/
  | interrupt (status : Byte)
  /-- Report the state line and clear the fault. -/
  | render
  /-- Capture the state. -/
  | snapshot
  /-- Capture the state and clear the fault. -/
  | takeSnapshot
  /-- Read the cells and the fault. -/
  | readState
  /-- Read the flags as a masked status byte. -/
  | readStatus
  /-- Read the settings. -/
  | readSettings
  /-- Forget everything. -/
  | reset
deriving DecidableEq

/-- An answer of a checker. -/
inductive Reply where
  /-- The call was carried out. -/
  | done
  /-- The observation was of the wrong kind. -/
  | rejected (r : Rejection)
  /-- The state line. -/
  | line (text : String)
  /-- A captured state. -/
  | snapshot (s : State)
  /-- The cells and the fault. -/
  | state (s : State)
  /-- The flags. -/
  | status (m : MaskedStatus)
  /-- The settings. -/
  | settings (s : Settings)
deriving DecidableEq

/-- A checker after a call, its answer and the events logged. -/
structure Outcome extends Step where
  /-- The answer. -/
  reply : Reply
deriving DecidableEq

namespace Checker

/-- An outcome without events. -/
def answer (c : Checker) (reply : Reply) : Outcome :=
  { checker := c, events := [], reply := reply }

/-- Carries out a call. -/
def call (c : Checker) : Call → Outcome
  | .dispatch opcode operand => { toStep := c.dispatch opcode operand, reply := .done }
  | .observe opcode observation =>
    match c.observe opcode observation with
    | .ok step => { toStep := step, reply := .done }
    | .error r => c.answer (.rejected r)
  | .interrupt status => { toStep := c.interrupt status, reply := .done }
  | .render => c.clearFault.answer (.line c.state.line)
  | .snapshot => c.answer (.snapshot c.state)
  | .takeSnapshot => c.clearFault.answer (.snapshot c.state)
  | .readState => c.answer (.state c.state)
  | .readStatus => c.answer (.status c.state.cells.maskedStatus)
  | .readSettings => c.answer (.settings c.settings)
  | .reset => { toStep := c.reset, reply := .done }

/-! ### Runs -/

/-- The outcome of each call of a run. -/
def outcomes (c : Checker) : List Call → List Outcome
  | [] => []
  | k :: ks => c.call k :: (c.call k).checker.outcomes ks

/-- The checker after a run. -/
def after (c : Checker) (ks : List Call) : Checker := ks.foldl (fun c k => (c.call k).checker) c

/-- The events of a run. -/
def log (c : Checker) (ks : List Call) : List Event := (c.outcomes ks).flatMap (·.events)

/-- The answers of a run. -/
def replies (c : Checker) (ks : List Call) : List Reply := (c.outcomes ks).map (·.reply)

@[simp] theorem after_nil (c : Checker) : c.after [] = c := rfl

@[simp] theorem after_cons (c : Checker) (k : Call) (ks : List Call) :
    c.after (k :: ks) = (c.call k).checker.after ks := rfl

theorem after_append (c : Checker) (ks ls : List Call) :
    c.after (ks ++ ls) = (c.after ks).after ls := List.foldl_append

@[simp] theorem log_nil (c : Checker) : c.log [] = [] := rfl

@[simp] theorem log_cons (c : Checker) (k : Call) (ks : List Call) :
    c.log (k :: ks) = (c.call k).events ++ (c.call k).checker.log ks := rfl

theorem log_append (c : Checker) (ks ls : List Call) :
    c.log (ks ++ ls) = c.log ks ++ (c.after ks).log ls := by
  induction ks generalizing c with
  | nil => rfl
  | cons k ks ih => simp [ih]

/-- No call changes the settings. -/
@[simp] theorem settings_call (c : Checker) (k : Call) :
    (c.call k).checker.settings = c.settings := by
  cases k with
  | observe opcode observation =>
    simp only [call, observe]
    cases observation.operand? (Instruction.decode opcode).observed <;> rfl
  | _ => rfl

end Checker

end TraceCheck
