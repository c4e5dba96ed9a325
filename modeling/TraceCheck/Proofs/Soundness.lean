import TraceCheck.Proofs.Detection

/-!
# `TraceCheck.Proofs.Soundness`: no false alarm

A checker that agrees with a processor, and is told what that processor does, never logs
a mismatch. `Checker.no_false_alarm` says so for runs of any length, under all settings,
and for every checker that knows nothing wrong at the start. A checker that knows nothing
at all is one of them.

The invariant is agreement at every cell. A call that reports an activity keeps it because
the activity does (`Operation.agrees_effect`), and then the observation contradicts nothing
(`Operation.mismatches_eq_nil`). A call that reports none leaves the cells alone or forgets
them all, and who knows nothing agrees with every processor. The run lemma is an induction
on the run of the processor. It starts from any checker, so it applies again to the part of
a run that lies before any of its points.
-/

set_option autoImplicit false

namespace TraceCheck

/-- A run of a processor passes through a state between any two of its calls. -/
theorem Processor.Run.split {settings : Settings} {m m' : Processor} {before later : List Call}
    (h : Processor.Run settings m (before ++ later) m') :
    ∃ n, Processor.Run settings m before n ∧ Processor.Run settings n later m' := by
  induction before generalizing m with
  | nil => exact ⟨m, Processor.Run.nil m, h⟩
  | cons k before ih =>
    cases h with
    | active reported step rest =>
      obtain ⟨n, hbefore, hlater⟩ := ih rest
      exact ⟨n, Processor.Run.active reported step hbefore, hlater⟩
    | idle silent rest =>
      obtain ⟨n, hbefore, hlater⟩ := ih rest
      exact ⟨n, Processor.Run.idle silent hbefore, hlater⟩

namespace Checker

/-! ### One call -/

/-- A call that reports an activity of a processor in agreement logs no mismatch and keeps
the agreement. -/
theorem agrees_call_of_active (c : Checker) {k : Call} {a : Activity} {m m' : Processor}
    (hagree : c.state.cells.Agrees m) (hreported : k.activity = some a)
    (hstep : a.Steps c.settings m m') :
    (c.call k).mismatches = [] ∧ (c.call k).checker.state.cells.Agrees m' := by
  rw [mismatches_call, cells_call]
  simp only [hreported]
  constructor
  · exact Operation.mismatches_eq_nil hagree hstep
  · exact Operation.agrees_effect a.proper_operation hstep hagree

/-- A call that reports no activity logs no mismatch and keeps the agreement. -/
theorem agrees_call_of_idle (c : Checker) {k : Call} {m : Processor}
    (hagree : c.state.cells.Agrees m) (hsilent : k.activity = none) :
    (c.call k).mismatches = [] ∧ (c.call k).checker.state.cells.Agrees m := by
  constructor
  · rw [mismatches_call]
    simp only [hsilent]
  · rw [cells_call]
    simp only [hsilent]
    by_cases hreset : k = .reset
    · rw [if_pos hreset]
      exact Cells.agrees_blank m
    · rw [if_neg hreset]
      exact hagree

/-! ### A run -/

/-- A run that starts in agreement logs no mismatch and ends in agreement. -/
theorem agrees_after {settings : Settings} {m m' : Processor} {ks : List Call}
    (hrun : Processor.Run settings m ks m') (c : Checker) (hsettings : c.settings = settings)
    (hagree : c.state.cells.Agrees m) :
    c.mismatches ks = [] ∧ (c.after ks).state.cells.Agrees m' := by
  -- Each call leaves another checker, which has to agree with the state reached by then.
  induction hrun generalizing c with
  | nil m => exact ⟨rfl, hagree⟩
  | active reported step rest ih =>
    rw [← hsettings] at step
    obtain ⟨hnow, hnext⟩ := c.agrees_call_of_active hagree reported step
    obtain ⟨hlater, hend⟩ := ih _ ((settings_call c _).trans hsettings) hnext
    rw [mismatches_cons, after_cons, hnow, hlater]
    exact ⟨rfl, hend⟩
  | idle silent rest ih =>
    obtain ⟨hnow, hnext⟩ := c.agrees_call_of_idle hagree silent
    obtain ⟨hlater, hend⟩ := ih _ ((settings_call c _).trans hsettings) hnext
    rw [mismatches_cons, after_cons, hnow, hlater]
    exact ⟨rfl, hend⟩

/-- The checker is right throughout a run of a processor from one state to another. -/
structure Faithful (c : Checker) (m : Processor) (ks : List Call) (m' : Processor) : Prop where
  /-- No mismatch is logged. -/
  silent : c.mismatches ks = []
  /-- At every point of the run the prediction agrees with the state that the processor has
  reached there. -/
  agrees : ∀ before later, ks = before ++ later →
    ∃ n, Processor.Run c.settings m before n ∧ Processor.Run c.settings n later m' ∧
      (c.after before).state.cells.Agrees n
  /-- A fault that is pending at any point was pending from the start. -/
  fault : ∀ before later, ks = before ++ later → (c.after before).state.fault = true →
    c.state.fault = true

theorem faithful_of_agrees {c : Checker} {m m' : Processor} {ks : List Call}
    (hagree : c.state.cells.Agrees m) (hrun : Processor.Run c.settings m ks m') :
    c.Faithful m ks m' := by
  have hsilent := (agrees_after hrun c rfl hagree).1
  refine ⟨hsilent, ?_, ?_⟩
  · rintro before later rfl
    obtain ⟨n, hbefore, hlater⟩ := hrun.split
    exact ⟨n, hbefore, hlater, (agrees_after hbefore c rfl hagree).2⟩
  · rintro before later rfl hfault
    rw [mismatches_append, List.append_eq_nil_iff] at hsilent
    exact fault_after c before hsilent.1 hfault

/-- A checker that knows nothing wrong about a processor is right throughout every run of
it, and so is one that knows nothing. -/
theorem no_false_alarm {settings : Settings} {m m' : Processor} {ks : List Call}
    (hrun : Processor.Run settings m ks m') :
    (∀ c : Checker, c.settings = settings → c.state.cells.Agrees m → c.Faithful m ks m') ∧
      (fresh settings).Faithful m ks m' := by
  have hall : ∀ c : Checker, c.settings = settings → c.state.cells.Agrees m →
      c.Faithful m ks m' := by
    rintro c rfl hagree
    exact faithful_of_agrees hagree hrun
  exact ⟨hall, hall (fresh settings) rfl (Cells.agrees_blank m)⟩

/-- A sum in decimal mode that is written to memory, branched on and interrupted, with the
accumulator and the carry of a decimal addition, and a checker that knows two cells and has
a fault pending. -/
theorem no_false_alarm_decimal_sum :
    let settings : Settings := { variant := .nmos, decimal := .unknownWhenDecimal }
    let m : Processor := Cells.uniform 0xFD false
    let m' : Processor :=
      { a := 0x04, x := 0xFD, y := 0xFD, s := 0xFA, n := true, v := true, d := true, i := true,
        z := false, c := true }
    let ks : List Call :=
      [.dispatch 0xF8 0x00, .dispatch 0xA9 0x58, .observe 0x69 (.data 0x46), .render,
        .dispatch 0x85 0x04, .dispatch 0xB0 0x01, .interrupt 0xC9]
    let known : Prediction := { Cells.blank with s := .known 0xFD, d := .known false }
    let c : Checker := { settings := settings, state := { cells := known, fault := true } }
    c.Faithful m ks m' ∧ (fresh settings).Faithful m ks m' := by
  intro settings m m' ks known c
  have hrun : Processor.Run settings m ks m' := by
    refine .active rfl ⟨trivial, Or.inl rfl⟩ ?_
    refine .active rfl ⟨trivial, Or.inl rfl⟩ ?_
    refine .active rfl ⟨trivial, Or.inr
      ⟨rfl, rfl, Or.inl rfl, 0x04, true, true, false, true, rfl⟩⟩ ?_
    refine .idle rfl ?_
    refine .active rfl ⟨rfl, Or.inl rfl⟩ ?_
    refine .active rfl ⟨show (0x01 : Byte) ≠ 0 ↔ true = true by decide, Or.inl rfl⟩ ?_
    refine .active rfl ⟨fun f => by cases f <;> rfl, Or.inl rfl⟩ ?_
    exact .of_eq (by decide)
  have hagree : known.Agrees m := by
    intro d u hu
    cases d with
    | register r =>
      cases r <;> cases hu
      rfl
    | flag f =>
      cases f <;> cases hu
      rfl
  obtain ⟨hall, hfresh⟩ := no_false_alarm hrun
  exact ⟨hall c rfl hagree, hfresh⟩

end Checker

end TraceCheck
