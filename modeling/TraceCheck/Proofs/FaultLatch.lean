import Mathlib.Data.List.Induction
import TraceCheck.Proofs.Activity
import TraceCheck.Proofs.StateLine

/-!
# `TraceCheck.Proofs.FaultLatch`: the fault is a latch

A checker keeps one bit about the mismatches that it has found. A mismatch sets the bit, a
call that reports it or forgets everything clears it, and `fault_call` says that no other
call touches it. `fault_after_iff` carries this over to runs: after a run the fault is
pending just when a mismatch was logged since it was last cleared
(`MismatchSinceCleared`), or when it was pending all along and never cleared.

The induction takes the last call off the run and not the first, because the calls at the
end of a run decide what is pending after it.

`Checker.fault_latched` is the result for new checkers. A render shows the annotation just
when a mismatch waits to be reported, shows it once however many there are, and leaves
nothing for the next render to show.
-/

set_option autoImplicit false

namespace TraceCheck

namespace Checker

/-- A mismatch was logged since the fault was last cleared: the run ends with a stretch that
logs one, and no call of the stretch clears the fault. -/
def MismatchSinceCleared (c : Checker) (ks : List Call) : Prop :=
  ∃ before later, ks = before ++ later ∧ (∀ k ∈ later, k.clearsFault = false) ∧
    (c.after before).mismatches later ≠ []

theorem not_mismatchSinceCleared_nil (c : Checker) : ¬ c.MismatchSinceCleared [] := by
  rintro ⟨before, later, hsplit, -, hlogged⟩
  obtain ⟨rfl, rfl⟩ := List.append_eq_nil_iff.mp hsplit.symm
  exact hlogged rfl

/-- The last call of a run takes part just when it does not clear the fault. -/
theorem mismatchSinceCleared_concat (c : Checker) (ks : List Call) (k : Call) :
    c.MismatchSinceCleared (ks ++ [k]) ↔
      k.clearsFault = false ∧
        (c.MismatchSinceCleared ks ∨ ((c.after ks).call k).mismatches ≠ []) := by
  constructor
  · rintro ⟨before, later, hsplit, hkept, hlogged⟩
    rcases List.eq_nil_or_concat' later with rfl | ⟨later, l, rfl⟩
    · exact absurd rfl hlogged
    · -- The stretch is not empty, so it ends with the last call of the run.
      rw [← List.append_assoc] at hsplit
      obtain ⟨rfl, hlast⟩ := List.append_inj' hsplit rfl
      obtain rfl := List.singleton_inj.mp hlast
      rw [mismatches_append, mismatches_cons, mismatches_nil, List.append_nil] at hlogged
      refine ⟨hkept k (List.mem_append_right later (List.mem_singleton.mpr rfl)), ?_⟩
      by_cases hbefore : (c.after before).mismatches later = []
      · right
        rw [hbefore, List.nil_append] at hlogged
        rw [after_append]
        exact hlogged
      · left
        exact ⟨before, later, rfl, fun m hm => hkept m (List.mem_append_left [k] hm), hbefore⟩
  · rintro ⟨hk, ⟨before, later, rfl, hkept, hlogged⟩ | hnow⟩
    · refine ⟨before, later ++ [k], List.append_assoc before later [k], ?_, ?_⟩
      · intro l hl
        rcases List.mem_append.mp hl with hl | hl
        · exact hkept l hl
        · rw [List.mem_singleton.mp hl]
          exact hk
      · rw [mismatches_append]
        intro hnil
        exact hlogged (List.append_eq_nil_iff.mp hnil).1
    · refine ⟨ks, [k], rfl, ?_, ?_⟩
      · intro l hl
        rw [List.mem_singleton.mp hl]
        exact hk
      · rw [mismatches_cons, mismatches_nil, List.append_nil]
        exact hnow

/-- The fault is pending after a run just when a mismatch was logged since it was last
cleared, or when it was pending at the start and no call has cleared it. -/
theorem fault_after_iff (c : Checker) (ks : List Call) :
    (c.after ks).state.fault = true ↔
      c.MismatchSinceCleared ks ∨
        (c.state.fault = true ∧ ∀ k ∈ ks, k.clearsFault = false) := by
  induction ks using List.reverseRecOn with
  | nil =>
    have hnone := c.not_mismatchSinceCleared_nil
    simp [hnone]
  | append_singleton ks k ih =>
    have hall : (∀ l ∈ ks ++ [k], l.clearsFault = false) ↔
        (∀ l ∈ ks, l.clearsFault = false) ∧ k.clearsFault = false := by
      rw [List.forall_mem_append, List.forall_mem_singleton]
    rw [after_append, after_cons, after_nil, fault_call, ih, mismatchSinceCleared_concat, hall]
    constructor
    · rintro ⟨hk, (hmismatch | ⟨hfault, hkept⟩) | hnow⟩
      · exact Or.inl ⟨hk, Or.inl hmismatch⟩
      · exact Or.inr ⟨hfault, hkept, hk⟩
      · exact Or.inl ⟨hk, Or.inr hnow⟩
    · rintro (⟨hk, hmismatch | hnow⟩ | ⟨hfault, hkept, hk⟩)
      · exact ⟨hk, Or.inl (Or.inl hmismatch)⟩
      · exact ⟨hk, Or.inr hnow⟩
      · exact ⟨hk, Or.inl (Or.inr ⟨hfault, hkept⟩)⟩

/-! ### New checkers -/

theorem reply_render (c : Checker) : (c.call .render).reply = .line c.state.line := rfl

/-- What the fault of a checker tells after a run, and what a render makes of it. -/
structure Latched (c : Checker) (ks : List Call) : Prop where
  /-- The fault is pending just when a mismatch was logged since it was last cleared. -/
  pending : (c.after ks).state.fault = true ↔ c.MismatchSinceCleared ks
  /-- A render ends its line with the annotation just when the fault is pending, and the
  annotation stands nowhere else in the line. -/
  annotated : ∃ text, ((c.after ks).call .render).reply = .line text ∧
    (State.annotation <:+ text.toList ↔ c.MismatchSinceCleared ks) ∧
    ∀ before behind, text.toList = before ++ State.annotation ++ behind →
      c.MismatchSinceCleared ks ∧ behind = []
  /-- Whatever is done next, a pending fault stays pending until a call clears it. -/
  kept : ∀ later, (∀ k ∈ later, k.clearsFault = false) → (c.after ks).state.fault = true →
    (c.after (ks ++ later)).state.fault = true
  /-- The line of a second render in a row has no annotation in it. -/
  spent : ∃ text, ((c.after (ks ++ [.render])).call .render).reply = .line text ∧
    ¬ State.annotation <:+: text.toList

/-- The fault of a new checker is pending after a run just when a mismatch was logged since
the last call that clears it, and a render reports exactly that. -/
theorem fault_latched (settings : Settings) (ks : List Call) :
    (fresh settings).Latched ks := by
  have hpending : ∀ ls : List Call, ((fresh settings).after ls).state.fault = true ↔
      (fresh settings).MismatchSinceCleared ls := by
    intro ls
    rw [fault_after_iff]
    -- A new checker has no fault.
    exact or_iff_left fun h => Bool.false_ne_true h.1
  refine ⟨hpending ks, ?_, ?_, ?_⟩
  · refine ⟨_, reply_render _, ?_, ?_⟩
    · rw [State.toList_line, State.annotation_suffix_iff]
      exact hpending ks
    · intro before behind h
      rw [State.toList_line] at h
      obtain ⟨hfault, -, hbehind⟩ := State.lineChars_eq_append h
      exact ⟨(hpending ks).mp hfault, hbehind⟩
  · intro later hkept hfault
    rw [after_append, fault_after_iff]
    exact Or.inr ⟨hfault, hkept⟩
  · refine ⟨_, reply_render _, ?_⟩
    rintro ⟨before, behind, h⟩
    rw [State.toList_line] at h
    have hfault := (State.lineChars_eq_append h.symm).1
    rw [after_append, after_cons, after_nil, fault_call] at hfault
    -- The first of the two renders has cleared the fault.
    cases hfault.1

/-- Two wrong bytes are stored, and the first of two renders reports them. -/
example :
    (fresh {}).replies
        [.dispatch 0xA9 0x01, .dispatch 0x85 0x02, .dispatch 0x85 0x03, .render, .render] =
      [.done, .done, .done,
        .line "A=03 X=?? Y=?? SP=?? N=0 V=? D=? I=? Z=0 C=? prediction failed",
        .line "A=03 X=?? Y=?? SP=?? N=0 V=? D=? I=? Z=0 C=?"] := by
  decide

end Checker

end TraceCheck
