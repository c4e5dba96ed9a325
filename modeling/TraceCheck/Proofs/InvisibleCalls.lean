import TraceCheck.Proofs.Replay
import TraceCheck.Proofs.TwoRuns

/-!
# `TraceCheck.Proofs.InvisibleCalls`: calls that the cells do not notice

Some calls make no difference to what a checker knows: reads and reports of the state,
observations that are refused, and instructions that are not modeled. `Call.isInvisible`
lists them. They may clear the fault, and an instruction is logged even if it is not modeled,
but the cells stay and no mismatch is found (`call_invisible`).

So they can be put into a run and taken out of it at any place. A change of this kind is a
list of edits, from which the run before the change and the run after it can both be read off
(`Edit.original`, `Edit.edited`). The induction goes over the edits. Its invariant is that the
two runs differ in nothing but the fault so far (`SameButFault`), which is enough because no
call looks at the fault to find out what to do to the cells.
-/

set_option autoImplicit false

namespace TraceCheck

/-- Whether a call is of a kind that the cells do not notice. It reads or reports the state,
or it is an observation of the wrong kind, or it is about an instruction that is not
modeled. -/
def Call.isInvisible : Call → Bool
  | .render | .snapshot | .takeSnapshot | .readState | .readStatus | .readSettings => true
  | .observe opcode o =>
    (o.operand? (Instruction.decode opcode).observed).isNone ||
      (Instruction.decode opcode).operation = .unmodeled
  | .dispatch opcode _ => (Instruction.decode opcode).operation = .unmodeled
  | .interrupt _ | .reset => false

/-- An invisible call reports nothing but instructions that are not modeled. -/
theorem Call.operation_of_isInvisible {k : Call} (h : k.isInvisible = true) {a : Activity}
    (ha : k.activity = some a) : a.operation = .unmodeled := by
  cases k with
  | dispatch opcode operand =>
    cases ha
    exact of_decide_eq_true h
  | observe opcode o =>
    obtain ⟨operand, hoperand, rfl⟩ := Option.map_eq_some_iff.mp ha
    -- The observation is accepted, so it is the instruction that is not modeled.
    simp only [isInvisible, hoperand, Option.isNone_some, Bool.false_or] at h
    exact of_decide_eq_true h
  | interrupt status => cases h
  | _ => cases ha

theorem Call.ne_reset_of_isInvisible {k : Call} (h : k.isInvisible = true) : k ≠ .reset := by
  rintro rfl
  cases h

namespace Checker

/-! ### One call -/

theorem SameButFault.refl (c : Checker) : c.SameButFault c := ⟨rfl, rfl⟩

theorem SameButFault.symm {c d : Checker} (h : c.SameButFault d) : d.SameButFault c :=
  ⟨h.settings.symm, h.cells.symm⟩

theorem SameButFault.trans {b c d : Checker} (h : b.SameButFault c) (h' : c.SameButFault d) :
    b.SameButFault d :=
  ⟨h.settings.trans h'.settings, h.cells.trans h'.cells⟩

/-- An invisible call finds no mismatch and changes nothing but the fault. -/
theorem call_invisible (c : Checker) {k : Call} (h : k.isInvisible = true) :
    (c.call k).mismatches = [] ∧ (c.call k).checker.SameButFault c := by
  have hreset := Call.ne_reset_of_isInvisible h
  rw [mismatches_call]
  cases ha : k.activity with
  | some a =>
    have hop := Call.operation_of_isInvisible h ha
    have hcells : (c.call k).checker.state.cells = c.state.cells := by
      rw [cells_call, ha]
      show a.operation.effect c.settings a.operand c.state.cells = c.state.cells
      rw [hop]
      rfl
    refine ⟨?_, settings_call c k, hcells⟩
    show c.state.cells.mismatches (a.operation.evidence a.operand) = []
    rw [hop]
    rfl
  | none =>
    refine ⟨rfl, settings_call c k, ?_⟩
    rw [cells_call, ha]
    exact if_neg hreset

/-- Whether a fault is pending has no influence on the cells after a call, on the events that
it logs and on the answer to an observation. -/
theorem SameButFault.call_self {c d : Checker} (h : c.SameButFault d) (k : Call) :
    (c.call k).events = (d.call k).events ∧
      (c.call k).checker.SameButFault (d.call k).checker :=
  h.call rfl Iff.rfl

/-- The answer to an observation depends on the opcode alone. -/
theorem reply_observe (c d : Checker) (opcode : Byte) (o : Observation) :
    (c.call (.observe opcode o)).reply = (d.call (.observe opcode o)).reply := by
  simp only [Checker.call, observe]
  cases o.operand? (Instruction.decode opcode).observed <;> rfl

/-- Checkers that differ in nothing but the fault log the same in a run, and differ in nothing
but the fault after it. -/
theorem SameButFault.after {c d : Checker} (h : c.SameButFault d) (ks : List Call) :
    c.log ks = d.log ks ∧ (c.after ks).SameButFault (d.after ks) := by
  constructor
  · have hevents : (c.outcomes ks).map (·.events) = (d.outcomes ks).map (·.events) :=
      outcomes_of_call (R := SameButFault) (fun _ _ k h => (h.call_self k).2)
        (fun _ _ k h => (h.call_self k).1) ks h
    show (c.outcomes ks).flatMap (·.events) = (d.outcomes ks).flatMap (·.events)
    rw [List.flatMap_def, List.flatMap_def, hevents]
  · exact after_of_call (R := SameButFault) (fun _ _ k h => (h.call_self k).2) ks h

end Checker

/-! ### Edits of a run -/

/-- A place in a run that is to be changed. -/
inductive Edit where
  /-- A call that remains. -/
  | keep (k : Call)
  /-- A call that is taken out. -/
  | delete (k : Call)
  /-- A call that is put in. -/
  | insert (k : Call)
deriving DecidableEq

namespace Edit

/-- The call of the run before the change. -/
def before? : Edit → Option Call
  | keep k | delete k => some k
  | insert _ => none

/-- The call of the run after the change. -/
def after? : Edit → Option Call
  | keep k | insert k => some k
  | delete _ => none

/-- The run before the change. -/
def original (es : List Edit) : List Call := es.filterMap before?

/-- The run after the change. -/
def edited (es : List Edit) : List Call := es.filterMap after?

/-- Whether nothing but an invisible call is put in or taken out. -/
def isInvisible : Edit → Bool
  | keep _ => true
  | delete k | insert k => k.isInvisible

end Edit

namespace Checker

open Edit

/-- Invisible edits change neither the mismatches of a run nor the cells after it. -/
theorem SameButFault.after_edits {c d : Checker} (h : c.SameButFault d) {es : List Edit}
    (hes : ∀ e ∈ es, e.isInvisible = true) :
    c.mismatches (original es) = d.mismatches (edited es) ∧
      (c.after (original es)).SameButFault (d.after (edited es)) := by
  induction es generalizing c d with
  | nil => exact ⟨rfl, h⟩
  | cons e es ih =>
    rw [List.forall_mem_cons] at hes
    obtain ⟨he, hes⟩ := hes
    cases e with
    | keep k =>
      obtain ⟨hevents, hnext⟩ := h.call_self k
      obtain ⟨hlater, hend⟩ := ih hnext hes
      have hnow : (c.call k).mismatches = (d.call k).mismatches := by
        unfold Step.mismatches
        rw [hevents]
      show c.mismatches (k :: original es) = d.mismatches (k :: edited es) ∧ _
      rw [mismatches_cons, mismatches_cons, hnow, hlater]
      exact ⟨rfl, hend⟩
    | delete k =>
      -- The first run makes a call more.
      obtain ⟨hsilent, hsame⟩ := c.call_invisible he
      obtain ⟨hlater, hend⟩ := ih (hsame.trans h) hes
      show c.mismatches (k :: original es) = d.mismatches (edited es) ∧ _
      rw [mismatches_cons, hsilent, hlater]
      exact ⟨rfl, hend⟩
    | insert k =>
      obtain ⟨hsilent, hsame⟩ := d.call_invisible he
      obtain ⟨hlater, hend⟩ := ih (h.trans hsame.symm) hes
      show c.mismatches (original es) = d.mismatches (k :: edited es) ∧ _
      rw [mismatches_cons, hsilent, hlater]
      exact ⟨rfl, hend⟩

/-- What an edited run has in common with the original. -/
structure EditsUnnoticed (c : Checker) (es : List Edit) : Prop where
  /-- The same mismatches are logged. -/
  mismatches : c.mismatches (original es) = c.mismatches (edited es)
  /-- After each call that remains, the cells are the same. -/
  cells : ∀ before k later, es = before ++ .keep k :: later →
    ((c.after (original before)).call k).checker.state.cells =
      ((c.after (edited before)).call k).checker.state.cells
  /-- Each observation that remains is answered in the same way. -/
  observed : ∀ before opcode o later, es = before ++ .keep (.observe opcode o) :: later →
    ((c.after (original before)).call (.observe opcode o)).reply =
      ((c.after (edited before)).call (.observe opcode o)).reply

/-- Reads and reports of the state, refused observations and instructions that are not modeled
can be put into a run and taken out of it at any place, and neither the cells nor the
mismatches nor the answers to other observations change. In particular nothing depends on
whether a fault is pending. -/
theorem invisible_calls_unnoticed (c : Checker) :
    (∀ es : List Edit, (∀ e ∈ es, e.isInvisible = true) → c.EditsUnnoticed es) ∧
      ∀ d : Checker, c.settings = d.settings → c.state.cells = d.state.cells → ∀ ks,
        (c.after ks).state.cells = (d.after ks).state.cells ∧ c.log ks = d.log ks := by
  constructor
  · intro es hes
    refine ⟨((SameButFault.refl c).after_edits hes).1, ?_, fun _ _ _ _ _ => reply_observe _ _ _ _⟩
    rintro before k later rfl
    have hbefore : ∀ e ∈ before, e.isInvisible = true := fun e he =>
      hes e (List.mem_append_left _ he)
    have hsame := ((SameButFault.refl c).after_edits hbefore).2
    exact (hsame.call_self k).2.cells
  · intro d hsettings hcells ks
    have hsame : c.SameButFault d := ⟨hsettings, hcells⟩
    exact ⟨(hsame.after ks).2.cells, (hsame.after ks).1⟩

/-- A stored byte and a branch that contradict what is known, with reports of the fault put in
between and others taken out. An observation of the wrong kind is refused in both runs. The
answers to the reports differ, and a fault that was pending from the start makes no difference
to the log. -/
theorem invisible_calls_unnoticed_between_mismatches :
    let c := fresh {}
    let faulty : Checker := { c with state := { c.state with fault := true } }
    let es : List Edit :=
      [.keep (.dispatch 0xA9 0x01), .insert (.dispatch 0xEA 0xFF), .keep (.dispatch 0x85 0x00),
        .insert .render, .delete (.observe 0x4C (.branch true)),
        .keep (.observe 0xD0 (.data 0x01)), .delete .takeSnapshot, .insert .readStatus,
        .keep (.observe 0xD0 (.branch false)), .keep .render]
    c.EditsUnnoticed es ∧
      c.mismatches (edited es) = [⟨.register .A, 0x01, 0x00⟩, ⟨.flag .Z, 0x00, 0x01⟩] ∧
      c.replies (original es) ≠ c.replies (edited es) ∧
      c.log (edited es) = faulty.log (edited es) := by
  intro c faulty es
  have hes : ∀ e ∈ es, e.isInvisible = true := by decide
  exact ⟨(invisible_calls_unnoticed c).1 es hes, by decide, by decide,
    ((invisible_calls_unnoticed c).2 faulty rfl rfl (edited es)).2⟩

end Checker

end TraceCheck
