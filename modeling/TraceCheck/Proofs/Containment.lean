import TraceCheck.Proofs.Detection

/-!
# `TraceCheck.Proofs.Containment`: what becomes of a wrong cell

A checker may come to know something wrong about the processor, because a trace was
joined with false values or because it was told of something else before. This module
says what follows from that and what does not. `StepContained` gathers what one step does
to single cells: which cells stay as right or as wrong as they were, which are right when
the cells they are computed from were right, which are right in any case, and which
mismatches are logged.

Over a run, errors spread along what the operations read, and nowhere else. `Tainted`
follows them from a first set of cells, call by call, without looking at any value, and
`Checker.errors_contained` proves that every cell that is wrong after a run is tainted. The
induction goes over the run of the processor, and its invariant is that the cells that are
wrong so far are among the tainted ones.

A branch is the only operation that finds an error and leaves it where it is. All other
operations that compare a cell write the observed value to it.
-/

set_option autoImplicit false

namespace TraceCheck

namespace Operation

/-- The cells that an operation puts right, whatever was known before. -/
def repairs : Operation → List Cell
  | load r | pull r => [.register r, .flag .N, .flag .Z]
  | store r | push r => [.register r]
  | pushStatus | pullStatus | returnInterrupt | breakInterrupt => Flag.all.map .flag
  | bitTest => [.flag .N, .flag .V]
  | setFlag f _ => [.flag f]
  | _ => []

/-- A cell that is put right takes a value that the observed byte decides. -/
theorem source_of_mem_repairs (settings : Settings) (operand : Byte) {op : Operation}
    (hop : op.Proper) {c : Cell} (hc : c ∈ op.repairs) :
    ∃ v, op.source settings operand c = some (.given v) := by
  have hflags : c ∈ Flag.all.map Cell.flag → ∃ f, c = .flag f := by
    intro h
    obtain ⟨f, -, rfl⟩ := List.mem_map.mp h
    exact ⟨f, rfl⟩
  cases op with
  | load r =>
    simp only [repairs, List.mem_cons, List.not_mem_nil, or_false] at hc
    rcases hc with rfl | rfl | rfl
    · cases r <;> exact ⟨_, rfl⟩
    · exact ⟨_, rfl⟩
    · exact ⟨_, rfl⟩
  | pull r =>
    simp only [repairs, List.mem_cons, List.not_mem_nil, or_false] at hc
    rcases hc with rfl | rfl | rfl
    · cases r with
      | S => exact absurd rfl hop.2
      | _ => exact ⟨_, rfl⟩
    · exact ⟨_, rfl⟩
    · exact ⟨_, rfl⟩
  | store r =>
    obtain rfl := List.mem_singleton.mp hc
    cases r <;> exact ⟨_, rfl⟩
  | push r =>
    obtain rfl := List.mem_singleton.mp hc
    cases r <;> exact ⟨_, rfl⟩
  | pushStatus =>
    obtain ⟨f, rfl⟩ := hflags hc
    cases f <;> exact ⟨_, rfl⟩
  | pullStatus =>
    obtain ⟨f, rfl⟩ := hflags hc
    cases f <;> exact ⟨_, rfl⟩
  | returnInterrupt =>
    obtain ⟨f, rfl⟩ := hflags hc
    cases f <;> exact ⟨_, rfl⟩
  | breakInterrupt =>
    obtain ⟨f, rfl⟩ := hflags hc
    obtain ⟨variant, decimal⟩ := settings
    cases variant <;> cases f <;> exact ⟨_, rfl⟩
  | bitTest =>
    simp only [repairs, List.mem_cons, List.not_mem_nil, or_false] at hc
    rcases hc with rfl | rfl
    · exact ⟨_, rfl⟩
    · exact ⟨_, rfl⟩
  | setFlag f value =>
    obtain rfl := List.mem_singleton.mp hc
    cases f <;> exact ⟨_, rfl⟩
  | _ => exact absurd hc List.not_mem_nil

/-- The evidence of an operation lists the compared cells with the values that the
processor has there. -/
theorem mem_evidence_iff {operand : Byte} {op : Operation} {m : Processor}
    (h : op.Shows m operand) {c : Cell} {v : Byte} :
    (⟨c, v⟩ : Evidence) ∈ op.evidence operand ↔ c ∈ op.observed ∧ v = m.value c := by
  have hlisted := (op.shows_iff operand m).mp h
  rw [← op.map_cell_evidence operand, List.mem_map]
  constructor
  · intro hmem
    exact ⟨⟨_, hmem, rfl⟩, (hlisted _ hmem).symm⟩
  · rintro ⟨⟨e, he, rfl⟩, rfl⟩
    rw [hlisted e he]
    exact he

/-- A branch does not touch a flag that is known wrongly. -/
theorem not_agreesAt_effect_branch {settings : Settings} {p : Prediction} {m m' : Processor}
    {operand : Byte} {f : Flag} {takenWhen : Bool}
    (h : (branch f takenWhen).Steps settings m operand m')
    (hwrong : ¬ p.AgreesAt m (.flag f)) :
    ¬ ((branch f takenWhen).effect settings operand p).AgreesAt m' (.flag f) := by
  have hm : m' = m := by
    rcases h.moves with hperform | ⟨-, -, hop, -⟩
    · exact hperform
    · rcases hop with hop | hop <;> cases hop
  rw [hm, Cells.agreesAt_flag]
  rw [Cells.agreesAt_flag] at hwrong
  show ¬ ((p.setFlag f ((p.flag f).learn _)).flag f).Allows (m.flag f)
  rw [Cells.flag_setFlag, if_pos rfl]
  cases hf : p.flag f with
  | unknown => exact absurd (hf ▸ Knowledge.allows_unknown (m.flag f)) hwrong
  | known b =>
    rw [hf] at hwrong
    exact hwrong

end Operation

/-! ### One step -/

/-- What a step from one state of the processor to another does to the cells of a
prediction, and the mismatches that go with it. -/
structure StepContained (settings : Settings) (m : Processor) (a : Activity) (m' : Processor)
    (p q : Prediction) (ms : List Mismatch) : Prop where
  /-- A written cell takes what is known of its source, and no other cell changes. -/
  flow : ∀ c, q.look c =
    match a.operation.source settings a.operand c with
    | some s => s.value p
    | none => p.look c
  /-- A cell that is not written is right afterwards just when it was before. -/
  kept : ∀ c, c ∉ a.operation.writes settings a.operand → (q.AgreesAt m' c ↔ p.AgreesAt m c)
  /-- A written cell is right afterwards when all cells that its value depends on were. -/
  computed : ∀ c s, a.operation.source settings a.operand c = some s →
    (∀ d, s.Reads d → p.AgreesAt m d) → q.AgreesAt m' c
  /-- Some cells are right afterwards in any case. -/
  repaired : ∀ c ∈ a.operation.repairs, q.AgreesAt m' c
  /-- The mismatches name the compared cells that are known wrongly, with the known value
  and the true one. -/
  detected : ∀ e : Mismatch, e ∈ ms ↔
    e.cell ∈ a.operation.observed ∧ p.look e.cell = .known e.predicted ∧
      e.observed = m.value e.cell ∧ e.predicted ≠ e.observed
  /-- Each compared cell that is wrong is named. -/
  named : ∀ c ∈ a.operation.observed, ¬ p.AgreesAt m c → ∃ e ∈ ms, e.cell = c
  /-- A branch does not put its flag right. -/
  unrepaired : ∀ f takenWhen, a.operation = .branch f takenWhen →
    ¬ p.AgreesAt m (.flag f) → ¬ q.AgreesAt m' (.flag f)

/-- Every step of the processor is contained, whatever the prediction. -/
theorem Activity.stepContained {settings : Settings} {m m' : Processor} {a : Activity}
    (h : a.Steps settings m m') (p : Prediction) :
    StepContained settings m a m' p (a.effect settings p) (p.mismatches a.evidence) := by
  have hop := a.proper_operation
  have hdetected : ∀ e : Mismatch, e ∈ p.mismatches a.evidence ↔
      e.cell ∈ a.operation.observed ∧ p.look e.cell = .known e.predicted ∧
        e.observed = m.value e.cell ∧ e.predicted ≠ e.observed := by
    intro e
    rw [Cells.mem_mismatches_iff]
    show (⟨e.cell, e.observed⟩ : Evidence) ∈ a.operation.evidence a.operand ∧ _ ↔ _
    rw [Operation.mem_evidence_iff h.shows]
    constructor
    · rintro ⟨⟨hcell, hvalue⟩, hlook, hne⟩
      exact ⟨hcell, hlook, hvalue, hne⟩
    · rintro ⟨hcell, hlook, hvalue, hne⟩
      exact ⟨⟨hcell, hvalue⟩, hlook, hne⟩
  refine ⟨?_, ?_, ?_, ?_, hdetected, ?_, ?_⟩
  · intro c
    exact a.operation.look_effect settings a.operand p hop c
  · intro c hc
    exact Operation.agreesAt_effect_of_not_mem hop h hc
  · intro c s hs hreads
    exact Operation.agreesAt_effect_of_reads hop h hs hreads
  · intro c hc
    obtain ⟨v, hv⟩ := Operation.source_of_mem_repairs settings a.operand hop hc
    exact Operation.agreesAt_effect_of_reads hop h hv fun d hd => hd.elim
  · intro c hc hwrong
    cases hlook : p.look c with
    | unknown => exact absurd (Cells.agreesAt_of_unknown m hlook) hwrong
    | known v =>
      have hne : v ≠ m.value c := by
        rintro rfl
        exact hwrong (by rw [Cells.AgreesAt, hlook, Knowledge.allows_known])
      exact ⟨⟨c, v, m.value c⟩, (hdetected _).mpr ⟨hc, hlook, rfl, hne⟩, rfl⟩
  · intro f takenWhen hbranch hwrong
    unfold Activity.Steps at h
    unfold Activity.effect
    rw [hbranch] at h ⊢
    exact Operation.not_agreesAt_effect_branch h hwrong

/-! ### Errors spread along what is read -/

/-- The cells that may be wrong after an activity, if some may be wrong before it. -/
def Activity.Spreads (settings : Settings) (a : Activity) (wrong : Cell → Prop) (c : Cell) :
    Prop :=
  match a.operation.source settings a.operand c with
  | some s => ∃ d, s.Reads d ∧ wrong d
  | none => wrong c

/-- The cells that may be wrong after a run, if some may be wrong before it. To forget
everything is to forget all errors. -/
def Tainted (settings : Settings) : List Call → (Cell → Prop) → Cell → Prop
  | [], wrong => wrong
  | k :: ks, wrong =>
    match k.activity with
    | some a => Tainted settings ks (a.Spreads settings wrong)
    | none => Tainted settings ks fun c => k ≠ .reset ∧ wrong c

/-- A cell that is wrong after an activity is one that errors spread to. -/
theorem Activity.spreads_of_not_agreesAt {settings : Settings} {m m' : Processor} {a : Activity}
    (h : a.Steps settings m m') {p : Prediction} {wrong : Cell → Prop}
    (hwrong : ∀ c, ¬ p.AgreesAt m c → wrong c) {c : Cell}
    (hc : ¬ (a.effect settings p).AgreesAt m' c) : a.Spreads settings wrong c := by
  have hstep := Activity.stepContained h p
  unfold Activity.Spreads
  cases hs : a.operation.source settings a.operand c with
  | none =>
    rw [hstep.kept c (Operation.source_eq_none_iff.mp hs)] at hc
    exact hwrong c hc
  | some s =>
    -- If no cell that is read were wrong, this one would be right.
    refine Classical.byContradiction fun hnone => hc (hstep.computed c s hs fun d hd => ?_)
    exact Classical.byContradiction fun hd' => hnone ⟨d, hd, hwrong d hd'⟩

namespace Checker

/-- Every cell that is wrong after a run is tainted by those that may be wrong before it. -/
theorem tainted_of_not_agreesAt {settings : Settings} {m m' : Processor} {ks : List Call}
    (hrun : Processor.Run settings m ks m') (c : Checker) (hsettings : c.settings = settings)
    {wrong : Cell → Prop} (hwrong : ∀ d, ¬ c.state.cells.AgreesAt m d → wrong d) {d : Cell}
    (hd : ¬ (c.after ks).state.cells.AgreesAt m' d) : Tainted settings ks wrong d := by
  -- Both the checker and the set of cells that may be wrong move on with each call.
  induction hrun generalizing c wrong with
  | nil m => exact hwrong d hd
  | @active m m' n k ks a reported step rest ih =>
    rw [after_cons] at hd
    simp only [Tainted, reported]
    refine ih _ ((settings_call c k).trans hsettings) ?_ hd
    intro e he
    rw [cells_call] at he
    simp only [reported, hsettings] at he
    exact Activity.spreads_of_not_agreesAt step hwrong he
  | @idle m n k ks silent rest ih =>
    rw [after_cons] at hd
    simp only [Tainted, silent]
    refine ih _ ((settings_call c k).trans hsettings) ?_ hd
    intro e he
    rw [cells_call] at he
    simp only [silent] at he
    by_cases hreset : k = .reset
    · rw [if_pos hreset] at he
      exact absurd (Cells.agrees_blank m e) he
    · rw [if_neg hreset] at he
      exact ⟨hreset, hwrong e he⟩

/-- However wrong a checker is about a processor at the start, after a run of the processor
only tainted cells are wrong, and the next step repairs, detects and spreads errors as
`StepContained` says. -/
theorem errors_contained {c : Checker} {m m' : Processor} {ks : List Call}
    (hrun : Processor.Run c.settings m ks m') :
    (∀ d, ¬ (c.after ks).state.cells.AgreesAt m' d →
      Tainted c.settings ks (fun e => ¬ c.state.cells.AgreesAt m e) d) ∧
    ∀ (k : Call) (a : Activity) (n : Processor), k.activity = some a →
      a.Steps c.settings m' n →
        StepContained c.settings m' a n (c.after ks).state.cells
          (c.after (ks ++ [k])).state.cells ((c.after ks).call k).mismatches := by
  constructor
  · intro d hd
    exact tainted_of_not_agreesAt hrun c rfl (fun e he => he) hd
  · intro k a n hreported hstep
    have hstep' := Activity.stepContained hstep (c.after ks).state.cells
    rw [after_append, after_cons, after_nil, cells_call, mismatches_call]
    simp only [hreported, settings_after]
    exact hstep'

/-- A wrong accumulator that is copied to X and then overwritten: the error lives on in X,
until X is written to memory. -/
theorem errors_contained_copied_accumulator :
    let known : Prediction := { Cells.blank with a := .known 0x05 }
    let c : Checker := { settings := {}, state := { cells := known, fault := false } }
    let m : Processor := Cells.uniform 0x80 false
    let ks : List Call := [.dispatch 0xAA 0x00, .dispatch 0xA9 0x00]
    Tainted {} ks (fun e => ¬ c.state.cells.AgreesAt m e) (.register .X) ∧
      ⟨.register .X, 0x05, 0x80⟩ ∈ ((c.after ks).call (.dispatch 0x86 0x80)).mismatches := by
  intro known c m ks
  let m' : Processor := { m with a := 0x00, z := true }
  have hrun : Processor.Run c.settings m ks m' := by
    refine .active rfl ⟨trivial, Or.inl rfl⟩ ?_
    refine .active rfl ⟨trivial, Or.inl rfl⟩ ?_
    exact .of_eq (by decide)
  obtain ⟨htainted, hstep⟩ := errors_contained hrun
  have hX : ¬ (c.after ks).state.cells.AgreesAt m' (.register .X) := by
    intro h
    exact absurd (h 0x05 rfl) (by decide)
  have hstored := hstep (.dispatch 0x86 0x80) (.instruction 0x86 0x80) m' rfl
    ⟨rfl, Or.inl rfl⟩
  have hlisted : (⟨.register .X, 0x05, 0x80⟩ : Mismatch) ∈
      ((c.after ks).call (.dispatch 0x86 0x80)).mismatches :=
    (hstored.detected _).mpr ⟨List.mem_singleton.mpr rfl, rfl, rfl, by decide⟩
  exact ⟨htainted _ hX, hlisted⟩

end Checker

end TraceCheck
