import TraceCheck.Checker.Call

/-!
# `TraceCheck.Proofs.Activity`: what a call says about the processor

Of the calls on a checker only three kinds report that the traced processor did
something: a dispatched instruction, an observation of the right kind and a hardware
interrupt. `Call.activity` reads that off a call. An activity comes down to an operation
and the byte observed of it, because a hardware interrupt does to the cells what the
software interrupt does, and only the heading under which it is logged differs.

`toStep_call` says once what a call can do: take an activity in, forget everything, or
leave the cells alone and perhaps report the fault. What a call does to the cells
(`cells_call`), to the fault (`fault_call`) and which mismatches it logs
(`mismatches_call`) are read off that equation, and proofs about runs use these three
and never look at the single calls again.

A program is told by its instructions rather than by the calls that report them.
`Call.Executes` and `Call.Reports` are what the two have in common.
-/

set_option autoImplicit false

namespace TraceCheck

/-- Something the traced processor did, as the trace shows it. -/
inductive Activity where
  /-- It executed an instruction, of which the trace observed one byte. -/
  | instruction (opcode operand : Byte)
  /-- It took a hardware interrupt and pushed a status byte. -/
  | interrupt (status : Byte)
deriving DecidableEq

namespace Activity

/-- What the activity does to the cells. -/
def operation : Activity → Operation
  | instruction opcode _ => (Instruction.decode opcode).operation
  | interrupt _ => .breakInterrupt

/-- The byte observed of the activity. -/
def operand : Activity → Byte
  | instruction _ operand => operand
  | interrupt status => status

/-- The heading under which the activity is logged. -/
def heading : Activity → Event
  | instruction opcode operand => .dispatched opcode operand
  | interrupt status => .interrupted status

/-- What the activity shows about the cells before it. -/
def evidence (a : Activity) : List Evidence := a.operation.evidence a.operand

/-- The prediction after the activity. -/
def effect (settings : Settings) (p : Prediction) (a : Activity) : Prediction :=
  a.operation.effect settings a.operand p

end Activity

/-- The activity that a call reports. An observation of the wrong kind reports none. -/
def Call.activity : Call → Option Activity
  | .dispatch opcode operand => some (.instruction opcode operand)
  | .observe opcode observation =>
    (observation.operand? (Instruction.decode opcode).observed).map (.instruction opcode)
  | .interrupt status => some (.interrupt status)
  | _ => none

theorem Call.ne_reset_of_active {k : Call} {a : Activity} (h : k.activity = some a) :
    k ≠ .reset := by
  rintro rfl
  cases h

/-- Whether a call reports the fault, so that it is no longer pending. -/
def Call.reportsFault : Call → Bool
  | .render | .takeSnapshot => true
  | _ => false

/-- Whether no fault is pending after a call, because the call reports it or forgets
everything. -/
def Call.clearsFault : Call → Bool
  | .render | .takeSnapshot | .reset => true
  | _ => false

theorem Call.clearsFault_eq (k : Call) : k.clearsFault = (k.reportsFault || k = .reset) := by
  cases k <;> rfl

/-! ### Mismatches in the log -/

/-- The mismatch that an event tells of. -/
def Event.mismatch? : Event → Option Mismatch
  | mismatched m => some m
  | _ => none

/-- The mismatches logged in a step. -/
def Step.mismatches (s : Step) : List Mismatch := s.events.filterMap Event.mismatch?

/-- The mismatches logged in a run. -/
def Checker.mismatches (c : Checker) (ks : List Call) : List Mismatch :=
  (c.log ks).filterMap Event.mismatch?

namespace Checker

/-- Takes in an activity, however it was reported. -/
def take (c : Checker) (a : Activity) : Step :=
  c.takeIn a.heading a.evidence (a.effect c.settings c.state.cells)

theorem dispatch_eq_take (c : Checker) (opcode operand : Byte) :
    c.dispatch opcode operand = c.take (.instruction opcode operand) := rfl

theorem interrupt_eq_take (c : Checker) (status : Byte) :
    c.interrupt status = c.take (.interrupt status) := rfl

/-- Taking in an activity logs the mismatches between its evidence and the prediction
before it, and no others. -/
theorem mismatches_take (c : Checker) (a : Activity) :
    (c.take a).mismatches = c.state.cells.mismatches a.evidence := by
  have hmap : ∀ ms : List Mismatch,
      (ms.map Event.mismatched).filterMap Event.mismatch? = ms := by
    intro ms
    rw [List.filterMap_map]
    exact List.filterMap_some
  cases a with
  | instruction opcode operand => exact hmap _
  | interrupt status => exact hmap _

/-! ### What a call can do -/

/-- A call takes an activity in, forgets everything, or changes nothing but perhaps the
fault. -/
theorem toStep_call (c : Checker) (k : Call) :
    (c.call k).toStep =
      match k.activity with
      | some a => c.take a
      | none =>
        if k = .reset then c.reset
        else { checker := if k.reportsFault then c.clearFault else c, events := [] } := by
  cases k with
  | observe opcode observation =>
    simp only [call, observe, Call.activity]
    cases observation.operand? (Instruction.decode opcode).observed with
    | some operand => rfl
    | none => rfl
  | _ => rfl

/-- The cells after a call. -/
theorem cells_call (c : Checker) (k : Call) :
    (c.call k).checker.state.cells =
      match k.activity with
      | some a => a.effect c.settings c.state.cells
      | none => if k = .reset then Cells.blank else c.state.cells := by
  rw [toStep_call]
  cases k.activity with
  | some a => rfl
  | none =>
    by_cases hreset : k = .reset
    · simp only [if_pos hreset]; rfl
    · simp only [if_neg hreset]; split <;> rfl

/-- The events logged in a call. -/
theorem events_call (c : Checker) (k : Call) :
    (c.call k).events =
      match k.activity with
      | some a => a.heading :: (c.state.cells.mismatches a.evidence).map .mismatched
      | none => if k = .reset then [.forgotten] else [] := by
  rw [toStep_call]
  cases k.activity with
  | some a => rfl
  | none =>
    by_cases hreset : k = .reset
    · simp only [if_pos hreset]; rfl
    · simp only [if_neg hreset]

/-- The mismatches logged in a call. -/
theorem mismatches_call (c : Checker) (k : Call) :
    (c.call k).mismatches =
      match k.activity with
      | some a => c.state.cells.mismatches a.evidence
      | none => [] := by
  rw [toStep_call]
  cases k.activity with
  | some a => exact mismatches_take c a
  | none =>
    by_cases hreset : k = .reset
    · simp only [if_pos hreset]; rfl
    · simp only [if_neg hreset]; rfl

/-- The checker after a call that reports an activity. -/
theorem checker_call_of_active {c : Checker} {k : Call} {a : Activity}
    (hk : k.activity = some a) :
    (c.call k).checker =
      c.advance (c.state.cells.mismatches a.evidence) (a.effect c.settings c.state.cells) := by
  rw [toStep_call, hk]
  rfl

/-- A call that reports an activity does not clear the fault. -/
theorem clearsFault_eq_false_of_active {k : Call} {a : Activity} (h : k.activity = some a) :
    k.clearsFault = false := by
  cases k with
  | dispatch opcode operand => rfl
  | observe opcode observation => rfl
  | interrupt status => rfl
  | _ => cases h

/-- A fault is pending after a call just when the call does not clear it and it was pending
before or comes from a mismatch logged in the call. -/
theorem fault_call (c : Checker) (k : Call) :
    (c.call k).checker.state.fault = true ↔
      k.clearsFault = false ∧ (c.state.fault = true ∨ (c.call k).mismatches ≠ []) := by
  rw [mismatches_call, toStep_call]
  cases hk : k.activity with
  | some a =>
    show (c.state.fault || !(c.state.cells.mismatches a.evidence).isEmpty) = true ↔ _
    rw [clearsFault_eq_false_of_active hk, Bool.or_eq_true, Bool.not_eq_true',
      List.isEmpty_eq_false_iff]
    exact (and_iff_right rfl).symm
  | none =>
    -- No mismatch is logged, so the fault was pending before or is not pending at all.
    simp only [ne_eq, not_true_eq_false, or_false]
    cases k with
    | render => simp [Call.reportsFault, Call.clearsFault, clearFault, State.clearFault]
    | takeSnapshot => simp [Call.reportsFault, Call.clearsFault, clearFault, State.clearFault]
    | reset => simp [Call.clearsFault, reset, fresh, State.blank]
    | dispatch opcode operand => cases hk
    | interrupt status => cases hk
    | _ => simp [Call.reportsFault, Call.clearsFault]

/-! ### Mismatches of a run -/

@[simp] theorem mismatches_nil (c : Checker) : c.mismatches [] = [] := rfl

@[simp] theorem mismatches_cons (c : Checker) (k : Call) (ks : List Call) :
    c.mismatches (k :: ks) = (c.call k).mismatches ++ (c.call k).checker.mismatches ks := by
  show (c.log (k :: ks)).filterMap Event.mismatch? = _
  rw [log_cons, List.filterMap_append]
  rfl

theorem mismatches_append (c : Checker) (ks ls : List Call) :
    c.mismatches (ks ++ ls) = c.mismatches ks ++ (c.after ks).mismatches ls := by
  show (c.log (ks ++ ls)).filterMap Event.mismatch? = _
  rw [log_append, List.filterMap_append]
  rfl

/-- The calls of a run that goes on have the outcomes that they have in its two parts. -/
theorem outcomes_append (c : Checker) (ks ls : List Call) :
    c.outcomes (ks ++ ls) = c.outcomes ks ++ (c.after ks).outcomes ls := by
  induction ks generalizing c with
  | nil => rfl
  | cons k ks ih => exact congrArg (c.call k :: ·) (ih (c.call k).checker)

/-- The mismatches of a run are those of its calls, one after the other. -/
theorem mismatches_eq_flatten (c : Checker) (ks : List Call) :
    c.mismatches ks = ((c.outcomes ks).map (·.mismatches)).flatten := by
  induction ks generalizing c with
  | nil => rfl
  | cons k ks ih =>
    rw [mismatches_cons, ih]
    rfl

/-- A run keeps the settings. -/
@[simp] theorem settings_after (c : Checker) (ks : List Call) :
    (c.after ks).settings = c.settings := by
  induction ks generalizing c with
  | nil => rfl
  | cons k ks ih => rw [after_cons, ih, settings_call]

/-- A run without mismatches raises no fault. -/
theorem fault_after (c : Checker) (ks : List Call) (h : c.mismatches ks = [])
    (hfault : (c.after ks).state.fault = true) : c.state.fault = true := by
  induction ks generalizing c with
  | nil => exact hfault
  | cons k ks ih =>
    rw [mismatches_cons, List.append_eq_nil_iff] at h
    have hnext := ih (c.call k).checker h.2 hfault
    rcases ((fault_call c k).mp hnext).2 with hbefore | hnow
    · exact hbefore
    · exact absurd h.1 hnow

end Checker

/-! ### Reported instructions

An instruction is told by its mnemonic and the byte observed of it. It may have been dispatched
or observed, in any addressing mode. Where the mode matters the instruction is given in full. -/

namespace Call

/-- The call reports an instruction in a certain mode, of which a byte was observed. -/
def Executes (k : Call) (i : Instruction) (b : Byte) : Prop :=
  ∃ opcode, k.activity = some (.instruction opcode b) ∧ Instruction.decode opcode = i

namespace Executes

variable {k : Call} {i : Instruction} {b : Byte}

theorem checker (h : k.Executes i b) (c : Checker) :
    (c.call k).checker = c.advance (c.state.cells.mismatches (i.operation.evidence b))
      (i.operation.effect c.settings b c.state.cells) := by
  obtain ⟨opcode, hk, rfl⟩ := h
  exact Checker.checker_call_of_active hk

theorem cells (h : k.Executes i b) (c : Checker) :
    (c.call k).checker.state.cells = i.operation.effect c.settings b c.state.cells :=
  congrArg (·.state.cells) (h.checker c)

theorem mismatches (h : k.Executes i b) (c : Checker) :
    (c.call k).mismatches = c.state.cells.mismatches (i.operation.evidence b) := by
  obtain ⟨opcode, hk, rfl⟩ := h
  rw [Checker.mismatches_call, hk]
  rfl

end Executes

/-- The call reports an instruction of which a byte was observed. -/
def Reports (k : Call) (m : Mnemonic) (b : Byte) : Prop :=
  ∃ opcode, k.activity = some (.instruction opcode b) ∧ (Instruction.decode opcode).mnemonic = m

namespace Reports

variable {k : Call} {m : Mnemonic} {b : Byte}

theorem exists_executes (h : k.Reports m b) : ∃ mode, k.Executes ⟨m, mode⟩ b := by
  obtain ⟨opcode, hk, rfl⟩ := h
  exact ⟨(Instruction.decode opcode).mode, opcode, hk, rfl⟩

theorem checker (h : k.Reports m b) (c : Checker) :
    ∃ mode, (c.call k).checker =
      c.advance (c.state.cells.mismatches ((Instruction.operation ⟨m, mode⟩).evidence b))
        ((Instruction.operation ⟨m, mode⟩).effect c.settings b c.state.cells) := by
  obtain ⟨mode, hk⟩ := h.exists_executes
  exact ⟨mode, hk.checker c⟩

theorem cells (h : k.Reports m b) (c : Checker) :
    ∃ mode, (c.call k).checker.state.cells =
      (Instruction.operation ⟨m, mode⟩).effect c.settings b c.state.cells := by
  obtain ⟨mode, hk⟩ := h.exists_executes
  exact ⟨mode, hk.cells c⟩

theorem mismatches (h : k.Reports m b) (c : Checker) :
    ∃ mode, (c.call k).mismatches =
      c.state.cells.mismatches ((Instruction.operation ⟨m, mode⟩).evidence b) := by
  obtain ⟨mode, hk⟩ := h.exists_executes
  exact ⟨mode, hk.mismatches c⟩

end Reports

end Call

end TraceCheck
