import Mathlib.Data.List.Induction
import TraceCheck.Proofs.Activity

/-!
# `TraceCheck.Proofs.Replay`: the log of a run is a record of it

The log tells of every instruction, of every interrupt and of every time that all was
forgotten. These events can be turned back into calls (`Event.call?`), and a log is
replayed by making the calls again. Mismatches are left out: the replay finds them itself.
The calls that come back are those of the run that have an effect on the cells, in order
(`replay_log`), and `Call.recorded` says of a single call what the log keeps of it.

`Checker.log_replays` says that nothing is lost. The replay of a log ends with the cells
that the run ended with, and it logs what the run logged, with all mismatches at their
places. What the run did besides, which is to read, to report and to refuse, leaves no trace
in the log, so the fault is the only part of the state that may differ. Two checkers that
differ in nothing but their faults (`SameButFault`) do the same to their cells and log the
same events, and this is the invariant of the run and its replay.
-/

set_option autoImplicit false

namespace TraceCheck

/-- The call that makes an event happen again. A mismatch is not called for. -/
def Event.call? : Event → Option Call
  | dispatched opcode operand => some (.dispatch opcode operand)
  | interrupted status => some (.interrupt status)
  | forgotten => some .reset
  | mismatched _ => none

/-- The calls that replay a log. -/
def replay (log : List Event) : List Call := log.filterMap Event.call?

/-- A mismatch stands in a log after the last time that everything was forgotten. -/
def MismatchAfterReset (log : List Event) : Prop :=
  ∃ before later, log = before ++ later ∧ .forgotten ∉ later ∧
    ∃ m, Event.mismatched m ∈ later

theorem replay_append (log log' : List Event) : replay (log ++ log') = replay log ++ replay log' :=
  List.filterMap_append

namespace Checker

/-! ### Checkers that differ in nothing but their faults -/

/-- Two checkers have the same settings and the same cells. -/
structure SameButFault (c d : Checker) : Prop where
  settings : c.settings = d.settings
  cells : c.state.cells = d.state.cells

/-- Calls that report the same have the same effect, whether or not a fault is pending. -/
theorem SameButFault.call {c d : Checker} (h : c.SameButFault d) {k l : Call}
    (hactivity : k.activity = l.activity) (hreset : k = .reset ↔ l = .reset) :
    (c.call k).events = (d.call l).events ∧
      (c.call k).checker.SameButFault (d.call l).checker := by
  have hcells : (c.call k).checker.state.cells = (d.call l).checker.state.cells := by
    rw [cells_call, cells_call, hactivity, h.settings, h.cells]
    simp only [hreset]
  have hsettings : (c.call k).checker.settings = (d.call l).checker.settings := by
    rw [settings_call, settings_call, h.settings]
  refine ⟨?_, hsettings, hcells⟩
  rw [events_call, events_call, hactivity, h.cells]
  simp only [hreset]

end Checker

/-! ### What a log keeps of the calls -/

/-- What the log keeps of a call: an accepted observation becomes a plain dispatch, and
calls that neither report an activity nor forget everything are not kept. -/
def Call.recorded (k : Call) : Option Call :=
  match k.activity with
  | some (.instruction opcode operand) => some (.dispatch opcode operand)
  | some (.interrupt status) => some (.interrupt status)
  | none => if k = .reset then some .reset else none

namespace Call

theorem recorded_eq_some {k l : Call} (h : k.recorded = some l) :
    k.activity = l.activity ∧ (k = .reset ↔ l = .reset) := by
  unfold recorded at h
  cases hk : k.activity with
  | some a =>
    have hactive := ne_reset_of_active hk
    rw [hk] at h
    cases a with
    | instruction opcode operand =>
      obtain rfl := Option.some.inj h
      exact ⟨rfl, by simp [hactive]⟩
    | interrupt status =>
      obtain rfl := Option.some.inj h
      exact ⟨rfl, by simp [hactive]⟩
  | none =>
    rw [hk] at h
    by_cases hreset : k = .reset
    · simp only [if_pos hreset] at h
      obtain rfl := Option.some.inj h
      exact ⟨rfl, iff_of_true hreset rfl⟩
    · simp only [if_neg hreset] at h
      cases h

theorem recorded_eq_none {k : Call} (h : k.recorded = none) :
    k.activity = none ∧ k ≠ .reset := by
  unfold recorded at h
  cases hk : k.activity with
  | some a =>
    rw [hk] at h
    cases a <;> cases h
  | none =>
    rw [hk] at h
    refine ⟨rfl, fun hreset => ?_⟩
    simp only [if_pos hreset] at h
    cases h

end Call

namespace Checker

/-- The events of a call are replayed by what the log keeps of it. -/
theorem replay_events_call (c : Checker) (k : Call) :
    replay (c.call k).events = k.recorded.toList := by
  have hmismatches : ∀ ms : List Mismatch, replay (ms.map .mismatched) = [] := by
    intro ms
    show (ms.map Event.mismatched).filterMap Event.call? = []
    rw [List.filterMap_map, List.filterMap_eq_nil_iff]
    intro m _
    rfl
  rw [events_call]
  unfold Call.recorded
  cases k.activity with
  | some a =>
    -- The heading is kept, and the mismatches behind it are not.
    show replay ([a.heading] ++ _) = _
    rw [replay_append, hmismatches, List.append_nil]
    cases a <;> rfl
  | none => by_cases hreset : k = .reset <;> simp [hreset] <;> rfl

theorem replay_log (c : Checker) (ks : List Call) :
    replay (c.log ks) = ks.filterMap Call.recorded := by
  induction ks generalizing c with
  | nil => rfl
  | cons k ks ih =>
    rw [log_cons, replay_append, replay_events_call, ih]
    cases hk : k.recorded with
    | some l => rw [List.filterMap_cons_some hk]; rfl
    | none => rw [List.filterMap_cons_none hk]; rfl

/-- The calls that the log keeps do to the cells what the whole run does, and they log the
same events. -/
theorem after_recorded {c d : Checker} (h : c.SameButFault d) (ks : List Call) :
    d.log (ks.filterMap Call.recorded) = c.log ks ∧
      (c.after ks).SameButFault (d.after (ks.filterMap Call.recorded)) := by
  induction ks generalizing c d with
  | nil => exact ⟨rfl, h⟩
  | cons k ks ih =>
    cases hk : k.recorded with
    | some l =>
      obtain ⟨hactivity, hreset⟩ := Call.recorded_eq_some hk
      obtain ⟨hevents, hnext⟩ := h.call hactivity hreset
      obtain ⟨hlater, hend⟩ := ih hnext
      rw [List.filterMap_cons_some hk, log_cons, log_cons, hevents, hlater]
      exact ⟨rfl, hend⟩
    | none =>
      -- Nothing is logged, and the cells stay.
      obtain ⟨hactivity, hreset⟩ := Call.recorded_eq_none hk
      have hevents : (c.call k).events = [] := by
        rw [events_call, hactivity]
        exact if_neg hreset
      have hnext : (c.call k).checker.SameButFault d := by
        refine ⟨?_, ?_⟩
        · rw [settings_call]
          exact h.settings
        · rw [cells_call, hactivity]
          simp only [if_neg hreset]
          exact h.cells
      rw [List.filterMap_cons_none hk, log_cons, hevents]
      exact ih hnext

end Checker

/-! ### The fault after a replay -/

/-- A mismatch behind the last reset stands in the later part of a log, or in the earlier
part when the later one has no reset. -/
theorem mismatchAfterReset_append (log log' : List Event) :
    MismatchAfterReset (log ++ log') ↔
      MismatchAfterReset log' ∨ (.forgotten ∉ log' ∧ MismatchAfterReset log) := by
  constructor
  · rintro ⟨before, later, hsplit, hkept, m, hm⟩
    rcases List.append_eq_append_iff.mp hsplit with ⟨mid, rfl, rfl⟩ | ⟨mid, rfl, rfl⟩
    · exact Or.inl ⟨mid, later, rfl, hkept, m, hm⟩
    · rw [List.mem_append, not_or] at hkept
      rcases List.mem_append.mp hm with hm | hm
      · exact Or.inr ⟨hkept.2, before, mid, rfl, hkept.1, m, hm⟩
      · exact Or.inl ⟨[], log', rfl, hkept.2, m, hm⟩
  · rintro (⟨before, later, rfl, hkept, hm⟩ | ⟨hlog', before, later, rfl, hkept, m, hm⟩)
    · exact ⟨log ++ before, later, (List.append_assoc _ _ _).symm, hkept, hm⟩
    · refine ⟨before, later ++ log', List.append_assoc _ _ _, ?_, m, List.mem_append_left _ hm⟩
      rw [List.mem_append, not_or]
      exact ⟨hkept, hlog'⟩

theorem mismatchAfterReset_of_notMem {log : List Event} (h : .forgotten ∉ log) :
    MismatchAfterReset log ↔ log.filterMap Event.mismatch? ≠ [] := by
  constructor
  · rintro ⟨before, later, rfl, -, m, hm⟩ hnil
    rw [List.filterMap_eq_nil_iff] at hnil
    exact Option.some_ne_none m (hnil _ (List.mem_append_right before hm))
  · intro hne
    obtain ⟨m, hm⟩ := List.exists_mem_of_ne_nil _ hne
    obtain ⟨e, he, hem⟩ := List.mem_filterMap.mp hm
    cases e with
    | mismatched n => exact ⟨[], log, rfl, h, n, he⟩
    | _ => cases hem

theorem not_mismatchAfterReset_forgotten : ¬ MismatchAfterReset [.forgotten] := by
  rintro ⟨before, later, hsplit, -, m, hm⟩
  have hmem : Event.mismatched m ∈ [Event.forgotten] := by
    rw [hsplit]
    exact List.mem_append_right before hm
  cases List.mem_singleton.mp hmem

namespace Checker

/-- Only a reset logs that everything was forgotten. -/
theorem forgotten_mem_events_call (c : Checker) (k : Call) :
    .forgotten ∈ (c.call k).events ↔ k = .reset := by
  rw [events_call]
  cases hk : k.activity with
  | some a =>
    have hactive := Call.ne_reset_of_active hk
    have hheading : .forgotten ≠ a.heading := by
      cases a with
      | instruction opcode operand => exact Event.noConfusion
      | interrupt status => exact Event.noConfusion
    simp [hheading, hactive]
  | none => by_cases hreset : k = .reset <;> simp [hreset]

/-- As long as nothing is reported, the fault of a new checker can be read off its log. -/
theorem fault_after_iff_log (settings : Settings) {ks : List Call}
    (h : ∀ k ∈ ks, k.reportsFault = false) :
    ((fresh settings).after ks).state.fault = true ↔
      MismatchAfterReset ((fresh settings).log ks) := by
  induction ks using List.reverseRecOn with
  | nil =>
    rw [log_nil, mismatchAfterReset_of_notMem List.not_mem_nil]
    simp [fresh, State.blank]
  | append_singleton ks k ih =>
    rw [List.forall_mem_append, List.forall_mem_singleton] at h
    rw [after_append, after_cons, after_nil, fault_call, ih h.1, log_append, log_cons, log_nil,
      List.append_nil, mismatchAfterReset_append, forgotten_mem_events_call]
    by_cases hreset : k = .reset
    · -- The log ends with the reset, and no mismatch stands behind it.
      subst hreset
      have hnone : ¬ MismatchAfterReset (((fresh settings).after ks).call .reset).events :=
        not_mismatchAfterReset_forgotten
      simp [hnone, Call.clearsFault]
    · have hkept : k.clearsFault = false := by
        rw [Call.clearsFault_eq, h.2, Bool.false_or]
        exact decide_eq_false hreset
      have hnow : MismatchAfterReset (((fresh settings).after ks).call k).events ↔
          (((fresh settings).after ks).call k).mismatches ≠ [] := by
        refine mismatchAfterReset_of_notMem ?_
        rw [forgotten_mem_events_call]
        exact hreset
      rw [hnow]
      constructor
      · rintro ⟨-, hbefore | hmismatch⟩
        · exact Or.inr ⟨hreset, hbefore⟩
        · exact Or.inl hmismatch
      · rintro (hmismatch | ⟨-, hbefore⟩)
        · exact ⟨hkept, Or.inr hmismatch⟩
        · exact ⟨hkept, Or.inl hbefore⟩

theorem reportsFault_of_mem_replay (log : List Event) :
    ∀ k ∈ replay log, k.reportsFault = false := by
  intro k hk
  obtain ⟨e, -, he⟩ := List.mem_filterMap.mp hk
  cases e with
  | mismatched m => cases he
  | _ =>
    obtain rfl := Option.some.inj he
    rfl

/-- The log of a new checker is a complete record of its run: the replay of the log ends with
the same cells, it logs the same events, mismatches included, and it leaves a fault pending
just when a mismatch was logged after the last reset. -/
theorem log_replays (settings : Settings) (ks : List Call) :
    let c := fresh settings
    (c.after (replay (c.log ks))).state.cells = (c.after ks).state.cells ∧
      c.log (replay (c.log ks)) = c.log ks ∧
      ((c.after (replay (c.log ks))).state.fault = true ↔ MismatchAfterReset (c.log ks)) := by
  intro c
  have hself : c.SameButFault c := ⟨rfl, rfl⟩
  obtain ⟨hlog, hsame⟩ := after_recorded hself ks
  rw [← replay_log c ks] at hlog hsame
  have hfault := fault_after_iff_log settings (reportsFault_of_mem_replay (c.log ks))
  rw [hlog] at hfault
  exact ⟨hsame.cells.symm, hlog, hfault⟩

end Checker

end TraceCheck
