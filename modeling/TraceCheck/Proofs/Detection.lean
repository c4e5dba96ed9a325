import TraceCheck.Proofs.Agreement

/-!
# `TraceCheck.Proofs.Detection`: mismatches are exactly the contradictions

A checker compares a table of evidence with what it knows. This module says what that
comparison is worth. An observation reveals the value of a cell when every processor
that can show it has that value there (`Operation.Reveals`), which is a statement about
processors alone. The evidence of an operation is exactly what its observation reveals
(`Operation.reveals_iff`).

`Checker.mismatches_exact` is the result. An instruction or an interrupt logs one
mismatch for each known cell that is revealed to hold another value, in the order of the
status byte, and it logs one at all just when no processor that agrees with the
prediction could have shown the observation. For the latter half a processor has to be
built whenever nothing was logged: `Cells.completion` takes the known values from the
prediction and all others from any state that shows the observed byte.
-/

set_option autoImplicit false

namespace TraceCheck

namespace Operation

/-- The cells that an observation tells of, in the order in which they are compared. -/
def observed : Operation → List Cell
  | store r | push r => [.register r]
  | pushStatus | breakInterrupt =>
    [.flag .N, .flag .V, .flag .D, .flag .I, .flag .Z, .flag .C]
  | branch f _ => [.flag f]
  | _ => []

/-- An observed byte reveals that a cell held a value before the operation. -/
def Reveals (operand : Byte) (op : Operation) (c : Cell) (v : Byte) : Prop :=
  ∀ m : Processor, op.Shows m operand → m.value c = v

theorem map_cell_evidence (operand : Byte) (op : Operation) :
    (op.evidence operand).map (·.cell) = op.observed := by
  cases op <;> rfl

theorem nodup_observed (op : Operation) : op.observed.Nodup := by
  have hone : ∀ c : Cell, [c].Nodup := fun c => List.nodup_cons.mpr ⟨List.not_mem_nil, .nil⟩
  cases op with
  | store r => exact hone _
  | push r => exact hone _
  | branch f takenWhen => exact hone _
  | pushStatus => decide
  | breakInterrupt => decide
  | _ => exact .nil

/-- A state can show a byte when it has the values that are listed as evidence. -/
theorem shows_iff (operand : Byte) (op : Operation) (m : Processor) :
    op.Shows m operand ↔ ∀ e ∈ op.evidence operand, m.value e.cell = e.value := by
  have hone : ∀ (c : Cell) (v : Byte),
      (∀ e ∈ [(⟨c, v⟩ : Evidence)], m.value e.cell = e.value) ↔ m.value c = v := by
    intro c v
    simp only [List.forall_mem_singleton]
  have hstatus : (∀ e ∈ statusEvidence operand, m.value e.cell = e.value) ↔
      ∀ f : Flag, operand.getLsbD f.bit = m.flag f := by
    simp only [statusEvidence, List.forall_mem_map]
    constructor
    · intro h f
      exact (Byte.ofBool_inj.mp (h f (Flag.mem_all f))).symm
    · intro h f _
      exact congrArg Byte.ofBool (h f).symm
  cases op with
  | store r => exact eq_comm.trans (hone (.register r) operand).symm
  | push r => exact eq_comm.trans (hone (.register r) operand).symm
  | pushStatus => exact hstatus.symm
  | breakInterrupt => exact hstatus.symm
  | branch f takenWhen =>
    have himplied : m.value (.flag f) = Byte.ofBool (impliedFlag takenWhen (operand != 0)) ↔
        (operand ≠ 0 ↔ m.flag f = takenWhen) := by
      rw [← impliedFlag_eq_iff, eq_comm]
      exact Byte.ofBool_inj
    exact himplied.symm.trans (hone _ _).symm
  | _ => exact iff_of_true trivial fun e he => absurd he List.not_mem_nil

end Operation

/-! ### What an observation reveals -/

/-- Any one cell of a state can be changed without touching the others. -/
theorem Cells.exists_change (m : Processor) (c : Cell) :
    ∃ n : Processor, n.value c ≠ m.value c ∧ ∀ d, d ≠ c → n.value d = m.value d := by
  cases c with
  | register r =>
    refine ⟨m.setRegister r (m.register r + 1), ?_, fun d hd => ?_⟩
    · rw [value_setRegister, if_pos rfl]
      intro h
      have hcancel : (1 : Byte) = 0 := BitVec.add_right_eq_self.mp h
      exact absurd hcancel (by decide)
    · rw [value_setRegister, if_neg hd]
  | flag f =>
    refine ⟨m.setFlag f (!m.flag f), ?_, fun d hd => ?_⟩
    · rw [value_setFlag, if_pos rfl]
      intro h
      have hsame : (!m.flag f) = m.flag f := Byte.ofBool_inj.mp h
      exact absurd hsame (by simp)
    · rw [value_setFlag, if_neg hd]

/-- What an observation reveals is what is listed as its evidence. -/
theorem Operation.reveals_iff {operand : Byte} {op : Operation} {c : Cell} {v : Byte} :
    op.Reveals operand c v ↔ (⟨c, v⟩ : Evidence) ∈ op.evidence operand := by
  constructor
  · intro h
    obtain ⟨m, hm⟩ := op.exists_shows operand
    have hvalue := h m hm
    by_cases hc : ∃ e ∈ op.evidence operand, e.cell = c
    · obtain ⟨e, he, rfl⟩ := hc
      have hlisted := (op.shows_iff operand m).mp hm e he
      rw [← hvalue, hlisted]
      exact he
    · -- A state that differs in this cell alone shows the same byte.
      obtain ⟨n, hne, hsame⟩ := Cells.exists_change m c
      have hn : op.Shows n operand := by
        rw [Operation.shows_iff]
        intro e he
        rw [hsame e.cell fun hec => hc ⟨e, he, hec⟩]
        exact (op.shows_iff operand m).mp hm e he
      exact absurd ((h n hn).trans hvalue.symm) hne
  · intro h m hm
    exact (op.shows_iff operand m).mp hm _ h

/-! ### Mismatches as contradictions -/

namespace Cells

theorem conflict_eq_none_iff {p : Prediction} {e : Evidence} :
    p.conflict e = none ↔ (p.look e.cell).Allows e.value := by
  unfold conflict
  cases p.look e.cell with
  | known v =>
    rw [Knowledge.allows_known]
    by_cases h : v = e.value
    · exact iff_of_true (if_pos h) h
    · refine iff_of_false ?_ h
      show (if v = e.value then none else some _) ≠ none
      rw [if_neg h]
      exact Option.some_ne_none _
  | unknown => simp

/-- There is no mismatch when the evidence may be true, as far as is known. -/
theorem mismatches_eq_nil_iff {p : Prediction} {es : List Evidence} :
    p.mismatches es = [] ↔ ∀ e ∈ es, (p.look e.cell).Allows e.value := by
  unfold mismatches
  rw [List.filterMap_eq_nil_iff]
  constructor
  · intro h e he
    exact conflict_eq_none_iff.mp (h e he)
  · intro h e he
    exact conflict_eq_none_iff.mpr (h e he)

/-- A status byte that contradicts nothing has the flags that are known. -/
theorem eq_ofStatus_of_no_mismatch {p : Prediction} {status : Byte}
    (h : p.mismatches (statusEvidence status) = []) {f : Flag} {v : Bool}
    (hf : p.flag f = .known v) : v = f.ofStatus status := by
  have hallowed := mismatches_eq_nil_iff.mp h ⟨.flag f, Byte.ofBool (f.ofStatus status)⟩
    (List.mem_map_of_mem (Flag.mem_all f))
  rw [look_flag, hf, Knowledge.map_known, Knowledge.allows_known] at hallowed
  exact Byte.ofBool_inj.mp hallowed

theorem mem_mismatches_iff {p : Prediction} {es : List Evidence} {e : Mismatch} :
    e ∈ p.mismatches es ↔
      (⟨e.cell, e.observed⟩ : Evidence) ∈ es ∧ p.look e.cell = .known e.predicted ∧
        e.predicted ≠ e.observed := by
  unfold mismatches
  rw [List.mem_filterMap]
  constructor
  · rintro ⟨⟨c, v⟩, hmem, hconflict⟩
    obtain ⟨hcell, hvalue, hlook, hne⟩ := conflict_eq_some_iff.mp hconflict
    rw [hcell, hvalue]
    rw [hvalue] at hne
    exact ⟨hmem, hlook, hne⟩
  · rintro ⟨hmem, hlook, hne⟩
    exact ⟨_, hmem, conflict_eq_some_iff.mpr ⟨rfl, rfl, hlook, hne⟩⟩

/-- Mismatches come in the order of the evidence, at most one for each piece of it. -/
theorem cells_mismatches_sublist (p : Prediction) (es : List Evidence) :
    ((p.mismatches es).map (·.cell)).Sublist (es.map (·.cell)) := by
  induction es with
  | nil => exact List.Sublist.slnil
  | cons e es ih =>
    unfold mismatches at ih ⊢
    rw [List.filterMap_cons]
    cases h : p.conflict e with
    | none => exact ih.cons _
    | some m =>
      simp only [List.map_cons, (conflict_eq_some_iff.mp h).1]
      exact ih.cons_cons _

/-! ### Completing a prediction to a processor -/

/-- The values that are known, and for all other cells those of a given state. -/
def completion (p : Prediction) (m : Processor) : Processor :=
  { a := p.a.toOption.getD m.a
    x := p.x.toOption.getD m.x
    y := p.y.toOption.getD m.y
    s := p.s.toOption.getD m.s
    n := p.n.toOption.getD m.n
    v := p.v.toOption.getD m.v
    d := p.d.toOption.getD m.d
    i := p.i.toOption.getD m.i
    z := p.z.toOption.getD m.z
    c := p.c.toOption.getD m.c }

theorem register_completion (p : Prediction) (m : Processor) (r : Register) :
    (p.completion m).register r = (p.register r).toOption.getD (m.register r) := by
  cases r <;> rfl

theorem flag_completion (p : Prediction) (m : Processor) (f : Flag) :
    (p.completion m).flag f = (p.flag f).toOption.getD (m.flag f) := by
  cases f <;> rfl

theorem value_completion (p : Prediction) (m : Processor) (c : Cell) :
    (p.completion m).value c = (p.look c).toOption.getD (m.value c) := by
  cases c with
  | register r => exact register_completion p m r
  | flag f =>
    show Byte.ofBool ((p.completion m).flag f) = _
    rw [flag_completion, look_flag]
    cases p.flag f <;> rfl

theorem agrees_completion (p : Prediction) (m : Processor) : p.Agrees (p.completion m) := by
  intro c u hu
  rw [value_completion, hu]
  rfl

/-- A completion has every value that the given state has and the prediction allows. -/
theorem value_completion_of_allows {p : Prediction} {m : Processor} {c : Cell}
    (h : (p.look c).Allows (m.value c)) : (p.completion m).value c = m.value c := by
  rw [value_completion]
  cases hlook : p.look c with
  | known u => exact h u hlook
  | unknown => rfl

end Cells

/-- Whatever can be shown can be shown in a step. -/
theorem Operation.steps_perform (settings : Settings) {m : Processor} {operand : Byte}
    {op : Operation} (h : op.Shows m operand) :
    op.Steps settings m operand (op.perform settings.variant m operand) :=
  ⟨h, Or.inl rfl⟩

/-- An observation that no known cell contradicts can come from a processor that agrees
with the prediction. -/
theorem Operation.exists_agrees_steps (settings : Settings) {p : Prediction} {operand : Byte}
    {op : Operation} (h : p.mismatches (op.evidence operand) = []) :
    ∃ m m' : Processor, p.Agrees m ∧ op.Steps settings m operand m' := by
  obtain ⟨m, hm⟩ := op.exists_shows operand
  have hallows := Cells.mismatches_eq_nil_iff.mp h
  have hshown := (op.shows_iff operand m).mp hm
  have hcompletion : op.Shows (p.completion m) operand := by
    rw [Operation.shows_iff]
    intro e he
    rw [Cells.value_completion_of_allows, hshown e he]
    rw [hshown e he]
    exact hallows e he
  exact ⟨p.completion m, _, p.agrees_completion m, op.steps_perform settings hcompletion⟩

/-- An observation of a processor that agrees with the prediction contradicts nothing. -/
theorem Operation.mismatches_eq_nil {settings : Settings} {p : Prediction} {m m' : Processor}
    {operand : Byte} {op : Operation} (hp : p.Agrees m)
    (h : op.Steps settings m operand m') : p.mismatches (op.evidence operand) = [] := by
  rw [Cells.mismatches_eq_nil_iff]
  intro e he
  rw [← (op.shows_iff operand m).mp h.shows e he]
  exact hp e.cell

/-! ### Detection is exact -/

/-- A cell is revealed just when it is one of the observed ones. -/
theorem Operation.mem_observed_iff {operand : Byte} {op : Operation} {c : Cell} :
    c ∈ op.observed ↔ ∃ v, op.Reveals operand c v := by
  rw [← op.map_cell_evidence operand, List.mem_map]
  constructor
  · rintro ⟨⟨c, v⟩, he, rfl⟩
    exact ⟨v, reveals_iff.mpr he⟩
  · rintro ⟨v, hv⟩
    exact ⟨⟨c, v⟩, reveals_iff.mp hv, rfl⟩

/-- The mismatches of an activity are exactly the contradictions between its observation and
a prediction. -/
structure DetectsExactly (settings : Settings) (p : Prediction) (a : Activity)
    (ms : List Mismatch) : Prop where
  /-- The cells that are compared are those whose values the observation reveals. -/
  compared : ∀ c, c ∈ a.operation.observed ↔ ∃ v, a.operation.Reveals a.operand c v
  /-- The mismatches name cells that are compared, in order. -/
  ordered : (ms.map (·.cell)).Sublist a.operation.observed
  /-- No cell is named twice. -/
  once : (ms.map (·.cell)).Nodup
  /-- There is one for each known cell that is revealed to hold another value, with both
  values. -/
  exact : ∀ e : Mismatch, e ∈ ms ↔
    a.operation.Reveals a.operand e.cell e.observed ∧ p.look e.cell = .known e.predicted ∧
      e.predicted ≠ e.observed
  /-- There is one just when no processor that agrees with the prediction could have shown
  what was observed. -/
  impossible : ms ≠ [] ↔ ¬ ∃ m m' : Processor, p.Agrees m ∧ a.Steps settings m m'

/-- Taking in an activity logs exactly the contradictions. -/
theorem Checker.detectsExactly_take (c : Checker) (a : Activity) :
    DetectsExactly c.settings c.state.cells a (c.take a).mismatches := by
  rw [mismatches_take]
  have hordered : ((c.state.cells.mismatches a.evidence).map (·.cell)).Sublist
      a.operation.observed := by
    rw [← a.operation.map_cell_evidence a.operand]
    exact Cells.cells_mismatches_sublist _ _
  refine ⟨fun d => Operation.mem_observed_iff, hordered,
    hordered.nodup a.operation.nodup_observed, fun e => ?_, ?_⟩
  · rw [Operation.reveals_iff]
    exact Cells.mem_mismatches_iff
  · constructor
    · rintro hne ⟨m, m', hagree, hstep⟩
      exact hne (Operation.mismatches_eq_nil hagree hstep)
    · intro hnone hnil
      exact hnone (Operation.exists_agrees_steps c.settings hnil)

/-- Whatever a checker knows and whether or not a fault is pending, an instruction and an
interrupt log a mismatch for each contradiction and for nothing else. -/
theorem Checker.mismatches_exact (c : Checker) :
    (∀ opcode operand, DetectsExactly c.settings c.state.cells (.instruction opcode operand)
      (c.dispatch opcode operand).mismatches) ∧
    ∀ status, DetectsExactly c.settings c.state.cells (.interrupt status)
      (c.interrupt status).mismatches := by
  constructor
  · intro opcode operand
    rw [dispatch_eq_take]
    exact c.detectsExactly_take _
  · intro status
    rw [interrupt_eq_take]
    exact c.detectsExactly_take _

end TraceCheck
