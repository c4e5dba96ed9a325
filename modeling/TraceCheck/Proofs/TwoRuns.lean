import TraceCheck.Proofs.Activity

/-!
# `TraceCheck.Proofs.TwoRuns`: two checkers on one list of calls

Many facts about checkers compare two of them that are told the same: checkers with other
settings, with other knowledge, with and without a pending fault. Each of these facts has a
relation that a single call keeps, and this module carries relations over to runs.
`after_of_call` is for relations that every call keeps, `outcomes_of_call` besides for what
the outcomes of the calls have in common, and `after_of_silent_call` for relations that are
kept as long as the second checker logs no mismatch.

The closest that two runs can be is to go through the same states and log the same events,
call by call. This is their `course`. Two checkers in one state that differ in their settings
have the same course when no activity of the run has another effect under the settings of the
one than under those of the other (`course_eq`).
-/

set_option autoImplicit false

namespace TraceCheck

namespace Checker

/-! ### Relations that calls keep -/

section
variable {R : Checker → Checker → Prop} {c d : Checker}

/-- A call keeps a relation between predictions if the activity that it reports keeps it and if
it holds between two that know nothing. -/
theorem cells_call_of_effect {S : Prediction → Prediction → Prop} {k : Call}
    (hblank : S Cells.blank Cells.blank) (h : S c.state.cells d.state.cells)
    (heffect : ∀ a, k.activity = some a →
      S (a.effect c.settings c.state.cells) (a.effect d.settings d.state.cells)) :
    S (c.call k).checker.state.cells (d.call k).checker.state.cells := by
  rw [cells_call, cells_call]
  cases hk : k.activity with
  | some a => exact heffect a hk
  | none =>
    by_cases hreset : k = .reset
    · simp only [if_pos hreset]
      exact hblank
    · simp only [if_neg hreset]
      exact h

/-- A relation that each call keeps is kept by a run. -/
theorem after_of_call (hcall : ∀ c d k, R c d → R (c.call k).checker (d.call k).checker)
    (ks : List Call) (h : R c d) : R (c.after ks) (d.after ks) := by
  -- Over all related checkers at once, since the first call leads to another two.
  induction ks generalizing c d with
  | nil => exact h
  | cons k ks ih => exact ih (hcall c d k h)

/-- What related checkers have in common at each call, they have in common throughout a run. -/
theorem outcomes_of_call {γ : Type} {f : Outcome → γ}
    (hcall : ∀ c d k, R c d → R (c.call k).checker (d.call k).checker)
    (hcommon : ∀ c d k, R c d → f (c.call k) = f (d.call k)) (ks : List Call) (h : R c d) :
    (c.outcomes ks).map f = (d.outcomes ks).map f := by
  induction ks generalizing c d with
  | nil => rfl
  | cons k ks ih =>
    simp only [outcomes, List.map_cons]
    rw [hcommon c d k h, ih (hcall c d k h)]

/-- A relation that is kept while the second checker logs no mismatch, and keeps the first
one silent too. -/
theorem after_of_silent_call
    (hcall : ∀ c d k, R c d → (d.call k).mismatches = [] →
      (c.call k).mismatches = [] ∧ R (c.call k).checker (d.call k).checker)
    {ks : List Call} (h : R c d) (hsilent : d.mismatches ks = []) :
    c.mismatches ks = [] ∧ R (c.after ks) (d.after ks) := by
  induction ks generalizing c d with
  | nil => exact ⟨rfl, h⟩
  | cons k ks ih =>
    -- A silent run starts with a silent call and goes on silently.
    rw [mismatches_cons, List.append_eq_nil_iff] at hsilent
    obtain ⟨hnow, hnext⟩ := hcall c d k h hsilent.1
    obtain ⟨hlater, hend⟩ := ih hnext hsilent.2
    rw [mismatches_cons, hnow, hlater]
    exact ⟨rfl, hend⟩

end

/-! ### The same course -/

/-- The states that a run goes through, each with the events logged on the way to it. -/
def course (c : Checker) (ks : List Call) : List (State × List Event) :=
  (c.outcomes ks).map fun o => (o.checker.state, o.events)

@[simp] theorem course_cons (c : Checker) (k : Call) (ks : List Call) :
    c.course (k :: ks) =
      ((c.call k).checker.state, (c.call k).events) :: (c.call k).checker.course ks := rfl

/-- Two checkers in one state do the same at a call, if what the call reports has the same
effect under the settings of either. -/
theorem call_eq {c d : Checker} (hstate : c.state = d.state) {k : Call}
    (heffect : ∀ a, k.activity = some a →
      a.effect c.settings c.state.cells = a.effect d.settings c.state.cells) :
    (c.call k).checker.state = (d.call k).checker.state ∧
      (c.call k).events = (d.call k).events := by
  obtain ⟨settings, s⟩ := c
  obtain ⟨settings', s'⟩ := d
  obtain rfl : s = s' := hstate
  rw [toStep_call, toStep_call]
  cases hk : k.activity with
  | some a =>
    have h : a.effect settings s.cells = a.effect settings' s.cells := heffect a hk
    simp only [take, takeIn, advance, h, and_self]
  | none =>
    by_cases hreset : k = .reset
    · simp only [if_pos hreset]
      exact ⟨rfl, rfl⟩
    · simp only [if_neg hreset, and_true]
      split <;> rfl

/-- Two checkers that start in one state have the same course, if each activity of the run has
the same effect under the settings of either. -/
theorem course_eq {c d : Checker} (hstate : c.state = d.state) {ks : List Call}
    (heffect : ∀ before k later a, ks = before ++ k :: later → k.activity = some a →
      a.effect c.settings (c.after before).state.cells =
        a.effect d.settings (c.after before).state.cells) :
    c.course ks = d.course ks := by
  induction ks generalizing c d with
  | nil => rfl
  | cons k ks ih =>
    obtain ⟨hnext, hevents⟩ := call_eq hstate fun a hk => heffect [] k ks a rfl hk
    rw [course_cons, course_cons, hevents, hnext]
    congr 1
    refine ih hnext ?_
    rintro before l later a rfl hl
    rw [settings_call, settings_call]
    -- The first call goes in front of what comes before.
    exact heffect (k :: before) l later a rfl hl

end Checker

end TraceCheck
