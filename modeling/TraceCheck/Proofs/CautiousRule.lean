import TraceCheck.Proofs.Dependence
import TraceCheck.Proofs.Monotonicity
import TraceCheck.Proofs.TwoRuns
import TraceCheck.Proofs.ValueIndependence

/-!
# `TraceCheck.Proofs.CautiousRule`: what the cautious decimal rule gives up

Decimal sums are not modeled. One rule takes every sum to be binary. The other gives up the
accumulator and N, V, Z, C wherever D is not known to be clear, and from there the loss
spreads: to other registers through transfers, to the carry of later rotates, to the stack
pointer through TXS. This module compares two checkers of one processor family that start in
the same state, each with one of the rules.

The cautious one never gains by its caution. It knows no more (`MoreCautious`), as long as the
other finds no mismatch, and then it finds none either. A step takes two comparisons to see
this, and the checker between them has the knowledge of the one and the rule of the other:
under one rule more knowledge leads to more knowledge (`Operation.effect_le_effect`), and
under the cautious rule the same knowledge leads to less (`Operation.effect_le_of_cautious`).

What it loses never reaches D and I, because no operation computes these (`SameControl`).
Before each sum the two checkers therefore agree whether D is clear, and if it is whenever a
sum comes up, nothing is lost at all.
-/

set_option autoImplicit false

namespace TraceCheck

/-! ### One step under two rules -/

/-- Every rule trusts binary sums while D is known to be clear. -/
theorem DecimalRule.trusts_clear (rule : DecimalRule) : rule.trusts (.known false) = true := by
  cases rule <;> rfl

theorem Cells.binaryAccumulator_cautious_le (p : Prediction) (rule : DecimalRule) :
    p.binaryAccumulator .unknownWhenDecimal ≤ p.binaryAccumulator rule := by
  cases rule with
  | unknownWhenDecimal => exact le_refl _
  | assumeBinary =>
    unfold binaryAccumulator
    by_cases hclear : DecimalRule.unknownWhenDecimal.trusts p.d = true
    · rw [if_pos hclear]
      exact le_refl _
    · rw [if_neg hclear]
      exact Knowledge.unknown_le _

theorem Cells.setArithmetic_le (p : Prediction) {k l : Knowledge ArithmeticResult} (h : k ≤ l) :
    p.setArithmetic k ≤ p.setArithmetic l := by
  cases k with
  | known r =>
    rw [Knowledge.known_le_iff.mp h]
  | unknown =>
    -- All that depends on the result is unknown on the left, and the rest is the same.
    intro c
    cases c with
    | register r =>
      rw [look_register, look_register, register_setArithmetic, register_setArithmetic]
      split
      · exact Knowledge.unknown_le _
      · exact le_refl _
    | flag f =>
      rw [look_flag, look_flag, flag_setArithmetic, flag_setArithmetic]
      refine Knowledge.map_le_map ?_ _
      cases f with
      | D => exact le_refl _
      | I => exact le_refl _
      | _ => exact Knowledge.unknown_le _

namespace Operation

variable {settings settings' : Settings} {p : Prediction}

/-- Under the cautious rule no more is known after an operation than under another rule. -/
theorem effect_le_of_cautious (hvariant : settings.variant = settings'.variant)
    (hcautious : settings.decimal = .unknownWhenDecimal) (operand : Byte) (op : Operation) :
    op.effect settings operand p ≤ op.effect settings' operand p := by
  have hA : p.binaryAccumulator settings.decimal ≤ p.binaryAccumulator settings'.decimal := by
    rw [hcautious]
    exact p.binaryAccumulator_cautious_le _
  cases op with
  | add => exact p.setArithmetic_le (Knowledge.map₂_le_map₂ hA (le_refl _) _)
  | subtract => exact p.setArithmetic_le (Knowledge.map₂_le_map₂ hA (le_refl _) _)
  | breakInterrupt =>
    show p.interrupt _ operand ≤ p.interrupt _ operand
    rw [hvariant]
  | _ => exact le_refl _

/-- Two rules that trust the same arithmetic have the same effect. -/
theorem effect_eq_of_trusts (hvariant : settings.variant = settings'.variant) (operand : Byte)
    {op : Operation}
    (htrust : op.isArithmetic = true → settings.decimal.trusts p.d = settings'.decimal.trusts p.d) :
    op.effect settings operand p = op.effect settings' operand p := by
  cases op with
  | add => simp only [effect, Cells.binaryAccumulator, htrust rfl]
  | subtract => simp only [effect, Cells.binaryAccumulator, htrust rfl]
  | breakInterrupt => simp only [effect, hvariant]
  | _ => rfl

end Operation

/-! ### Two runs -/

namespace Checker

/-- Two checkers of one processor family say the same about D and I. -/
structure SameControl (c d : Checker) : Prop where
  variant : c.settings.variant = d.settings.variant
  flags : ∀ f : Flag, f.isControl = true → c.state.cells.flag f = d.state.cells.flag f

theorem SameControl.call {c d : Checker} (h : c.SameControl d) (k : Call) :
    (c.call k).checker.SameControl (d.call k).checker := by
  constructor
  · rw [settings_call, settings_call]
    exact h.variant
  · apply cells_call_of_effect
      (S := fun p q => ∀ f : Flag, f.isControl = true → p.flag f = q.flag f)
    · intro f _
      rfl
    · exact h.flags
    · intro a _ f hf
      show (a.operation.effect _ _ _).flag f = (a.operation.effect _ _ _).flag f
      rw [Operation.flag_effect_of_isControl _ _ _ _ hf,
        Operation.flag_effect_of_isControl _ _ _ _ hf, h.variant, h.flags f hf]

/-- The first checker has the cautious rule and knows no more than the second. -/
structure MoreCautious (c d : Checker) : Prop where
  variant : c.settings.variant = d.settings.variant
  rule : c.settings.decimal = .unknownWhenDecimal
  le : c.state.cells ≤ d.state.cells

theorem MoreCautious.call {c d : Checker} (h : c.MoreCautious d) (k : Call)
    (hsilent : (d.call k).mismatches = []) :
    (c.call k).mismatches = [] ∧ (c.call k).checker.MoreCautious (d.call k).checker := by
  -- The checker between the two has the rule of the first and the knowledge of the second.
  let between : Checker := { settings := c.settings, state := d.state }
  have hbetween : (between.call k).mismatches = [] := by
    rw [mismatches_call] at hsilent ⊢
    exact hsilent
  have hsettings : c.settings = between.settings := rfl
  obtain ⟨hnow, hle⟩ := call_le_call hsettings h.le hbetween
  refine ⟨hnow, ?_, ?_, hle.trans ?_⟩
  · rw [settings_call, settings_call]
    exact h.variant
  · rw [settings_call]
    exact h.rule
  · refine cells_call_of_effect (S := (· ≤ ·)) (c := between) (le_refl _) (le_refl _) ?_
    intro a _
    exact Operation.effect_le_of_cautious h.variant h.rule a.operand a.operation

/-- D is known to be clear whenever a run comes to an addition or a subtraction. -/
def DecimalClear (c : Checker) (ks : List Call) : Prop :=
  ∀ before k later, ks = before ++ k :: later → k.isArithmetic = true →
    (c.after before).state.cells.d = .known false

theorem decimalClear_nil (c : Checker) : c.DecimalClear [] := by
  intro before k later hsplit
  exact absurd hsplit.symm (List.append_ne_nil_of_right_ne_nil before (List.cons_ne_nil k later))

theorem decimalClear_cons (c : Checker) (k : Call) (ks : List Call) :
    c.DecimalClear (k :: ks) ↔
      (k.isArithmetic = true → c.state.cells.d = .known false) ∧
        (c.call k).checker.DecimalClear ks := by
  constructor
  · intro h
    refine ⟨h [] k ks rfl, ?_⟩
    rintro before l later rfl hl
    exact h (k :: before) l later rfl hl
  · rintro ⟨hk, hks⟩ before l later hsplit hl
    cases before with
    | nil =>
      obtain ⟨rfl, rfl⟩ := List.cons.inj hsplit
      exact hk hl
    | cons m before =>
      obtain ⟨rfl, rfl⟩ := List.cons.inj hsplit
      exact hks before l later rfl hl

/-- How a checker with the cautious decimal rule goes along with one that takes all sums to be
binary. -/
structure RefinesBinary (cautious binary : Checker) (ks : List Call) : Prop where
  /-- At every point of the run the two say the same about D and I, whatever mismatches there
  are. -/
  control : ∀ before later, ks = before ++ later →
    (cautious.after before).state.cells.d = (binary.after before).state.cells.d ∧
      (cautious.after before).state.cells.i = (binary.after before).state.cells.i
  /-- As long as the second has found no mismatch, the first has found none, and every cell
  that it knows, the second knows to have the same value. -/
  silent : ∀ before later, ks = before ++ later → binary.mismatches before = [] →
    cautious.mismatches before = [] ∧
      (cautious.after before).state.cells ≤ (binary.after before).state.cells
  /-- The two agree whether D is known to be clear at all sums. -/
  clear_iff : cautious.DecimalClear ks ↔ binary.DecimalClear ks
  /-- If it is, they go through the same cells and faults and log the same events, call by
  call. -/
  same : binary.DecimalClear ks → cautious.course ks = binary.course ks

theorem refinesBinary {cautious binary : Checker}
    (hvariant : cautious.settings.variant = binary.settings.variant)
    (hcautious : cautious.settings.decimal = .unknownWhenDecimal)
    (hstate : cautious.state = binary.state) (ks : List Call) :
    cautious.RefinesBinary binary ks := by
  have hcontrol : ∀ before, (cautious.after before).SameControl (binary.after before) := by
    intro before
    refine after_of_call (R := SameControl) (fun _ _ k h => h.call k) before ⟨hvariant, ?_⟩
    intro f _
    rw [hstate]
  have hbelow : cautious.MoreCautious binary := ⟨hvariant, hcautious, by rw [hstate]⟩
  have hclear : cautious.DecimalClear ks ↔ binary.DecimalClear ks := by
    have hd : ∀ before, (cautious.after before).state.cells.d =
        (binary.after before).state.cells.d := fun before => (hcontrol before).flags .D rfl
    unfold DecimalClear
    simp only [hd]
  refine ⟨fun before _ _ => ⟨(hcontrol before).flags .D rfl, (hcontrol before).flags .I rfl⟩,
    fun before _ _ hsilent => ?_, hclear, fun hclears => ?_⟩
  · obtain ⟨hnow, hend⟩ := after_of_silent_call (R := MoreCautious) (fun _ _ k h => h.call k)
      hbelow hsilent
    exact ⟨hnow, hend.le⟩
  · -- Where D is known to be clear, both rules trust binary sums.
    rw [← hclear] at hclears
    refine course_eq hstate fun before k later a hsplit hk => ?_
    refine Operation.effect_eq_of_trusts hvariant a.operand fun hsum => ?_
    have harithmetic : k.isArithmetic = true := by
      unfold Call.isArithmetic
      rw [hk]
      exact hsum
    rw [hclears before k later hsplit harithmetic, DecimalRule.trusts_clear,
      DecimalRule.trusts_clear]

/-- The cautious decimal rule is a conservative refinement of the other one, from every state
and over every run. -/
theorem cautious_rule_refines_binary (variant : Variant) (s : State) (ks : List Call) :
    RefinesBinary
      { settings := { variant := variant, decimal := .unknownWhenDecimal }, state := s }
      { settings := { variant := variant, decimal := .assumeBinary }, state := s } ks := by
  apply refinesBinary
  · rfl
  · rfl
  · rfl

/-- A sum in decimal mode is lost under the cautious rule, and the loss goes through X into the
stack pointer and stays there over an interrupt. After a CLD nothing is lost, and both rules
find the same wrong byte. -/
theorem cautious_rule_refines_binary_lost_sum :
    let s : State := { cells := { Cells.blank with s := .known 0xFD }, fault := false }
    let cautious : Checker :=
      { settings := { variant := .nmos, decimal := .unknownWhenDecimal }, state := s }
    let binary : Checker :=
      { settings := { variant := .nmos, decimal := .assumeBinary }, state := s }
    let decimal : List Call := [.dispatch 0xF8 0x00, .dispatch 0xA9 0x19, .dispatch 0x18 0x00,
      .dispatch 0x69 0x28, .dispatch 0xAA 0x00, .dispatch 0x9A 0x00, .interrupt 0x08]
    let clear : List Call := [.dispatch 0xD8 0x00, .dispatch 0xA9 0x19, .dispatch 0x18 0x00,
      .dispatch 0x69 0x28, .dispatch 0x85 0x47, .render]
    (cautious.RefinesBinary binary decimal ∧ cautious.mismatches decimal = [] ∧
      (cautious.after decimal).state.cells.s = .unknown ∧
      (binary.after decimal).state.cells.s = .known 0x3E) ∧
    cautious.course clear = binary.course clear ∧
      cautious.mismatches clear = [⟨.register .A, 0x41, 0x47⟩] := by
  intro s cautious binary decimal clear
  have hrefines : cautious.RefinesBinary binary decimal :=
    cautious_rule_refines_binary .nmos s decimal
  have hsilent : binary.mismatches decimal = [] := by decide
  have hclear : binary.DecimalClear clear := by
    simp only [clear, decimalClear_cons]
    exact ⟨by decide, by decide, by decide, by decide, by decide, by decide, decimalClear_nil _⟩
  refine ⟨⟨hrefines, ?_, by decide, by decide⟩, ?_, by decide⟩
  · exact (hrefines.silent decimal [] (List.append_nil _).symm hsilent).1
  · exact (cautious_rule_refines_binary .nmos s clear).same hclear

end Checker

end TraceCheck
