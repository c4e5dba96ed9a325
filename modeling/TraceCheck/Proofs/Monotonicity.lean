import TraceCheck.Proofs.Detection
import TraceCheck.Proofs.InformationOrder

/-!
# `TraceCheck.Proofs.Monotonicity`: two checkers on one trace

Let two checkers be told the same things, and let one of them know everything that the
other knows. As long as the better-informed one finds no mismatch, the other finds none
either, and it still knows no more (`Checker.knows_no_more`). So whoever joins a trace
late, with nothing known, raises no alarm that a checker of the whole trace would not
raise.

The invariant of the two runs is the order of the two predictions. It would be lost
without the assumption on the mismatches. A branch that contradicts a known flag leaves
that flag alone, while a checker that did not know the flag learns the opposite from the
same branch. `Source.Fits` is what is left of the assumption for a single source, and it
says something of branches only.
-/

set_option autoImplicit false

namespace TraceCheck

namespace Source

variable {α β : Type}

/-- The flag that the source says is shown may have that value, as far as is known. -/
def Fits (q : Prediction) : Source α → Prop
  | shown f v _ => (q.flag f).Allows v
  | _ => True

@[simp] theorem fits_given {q : Prediction} (v : α) : (given v).Fits q := trivial

@[simp] theorem fits_ofRegister {q : Prediction} (r : Register) (g : Byte → α) :
    (ofRegister r g).Fits q := trivial

@[simp] theorem fits_ofCarry {q : Prediction} (g : Bool → α) : (ofCarry g).Fits q := trivial

@[simp] theorem fits_withCarry {q : Prediction} (r : Register) (g : Byte → Bool → α) :
    (withCarry r g).Fits q := trivial

@[simp] theorem fits_arithmetic {q : Prediction} (rule : DecimalRule) (g : Byte → Bool → α) :
    (arithmetic rule g).Fits q := trivial

@[simp] theorem fits_map {q : Prediction} {s : Source α} (h : α → β) :
    (s.map h).Fits q ↔ s.Fits q := by
  cases s <;> exact Iff.rfl

/-- The accumulator is trusted by whoever knows more when it is trusted by whoever knows
less. -/
theorem binaryAccumulator_le {p q : Prediction} (h : p ≤ q) (rule : DecimalRule) :
    p.binaryAccumulator rule ≤ q.binaryAccumulator rule := by
  unfold Cells.binaryAccumulator
  by_cases hp : rule.trusts p.d = true
  · have hq : rule.trusts q.d = true := by
      cases rule with
      | assumeBinary => rfl
      | unknownWhenDecimal =>
        have hclear : p.flag .D = .known false := of_decide_eq_true hp
        exact decide_eq_true (Cells.flag_le h .D false hclear)
    rw [if_pos hp, if_pos hq]
    exact Cells.register_le h .A
  · rw [if_neg hp]
    exact Knowledge.unknown_le _

/-- A value is known to whoever knows more when it is known to whoever knows less. -/
theorem value_le_value {p q : Prediction} (h : p ≤ q) {s : Source α} (hs : s.Fits q) :
    s.value p ≤ s.value q := by
  have hC : p.c ≤ q.c := Cells.flag_le h .C
  cases s with
  | given v => exact le_refl _
  | ofRegister r g => exact Knowledge.map_le_map (Cells.register_le h r) g
  | ofCarry g => exact Knowledge.map_le_map hC g
  | withCarry r g => exact Knowledge.map₂_le_map₂ (Cells.register_le h r) hC g
  | arithmetic rule g => exact Knowledge.map₂_le_map₂ (binaryAccumulator_le h rule) hC g
  | shown f v g =>
    -- The only place where it matters that nothing was contradicted.
    exact Knowledge.map_le_map (Knowledge.learn_le_learn (Cells.flag_le h f) hs) g

end Source

/-! ### Where no mismatch is found, every source fits -/

namespace Assignment

variable {q : Prediction}

/-- The sources of all assignments fit. -/
def AllFit (q : Prediction) (as : List Assignment) : Prop := ∀ a ∈ as, a.source.Fits q

@[simp] theorem allFit_nil : AllFit q [] := by
  intro a ha
  cases ha

@[simp] theorem allFit_cons {a : Assignment} {as : List Assignment} :
    AllFit q (a :: as) ↔ a.source.Fits q ∧ AllFit q as :=
  List.forall_mem_cons

@[simp] theorem allFit_append {as bs : List Assignment} :
    AllFit q (as ++ bs) ↔ AllFit q as ∧ AllFit q bs :=
  List.forall_mem_append

@[simp] theorem fits_stack (offset : Int) : (stack offset).source.Fits q := trivial

@[simp] theorem fits_probe (operand : Byte) : (probe operand).source.Fits q := trivial

@[simp] theorem allFit_flags (g : Flag → Bool) : AllFit q (flags g) := by
  intro a ha
  obtain ⟨f, -, rfl⟩ := List.mem_map.mp ha
  trivial

@[simp] theorem allFit_signs {s : Source Byte} : AllFit q (signs s) ↔ s.Fits q := by
  simp [signs]

@[simp] theorem allFit_result {t : Target} {s : Source Byte} :
    AllFit q (result t s) ↔ s.Fits q := by
  cases t <;> simp [result, put]

@[simp] theorem allFit_sum {s : Source ArithmeticResult} : AllFit q (sum s) ↔ s.Fits q := by
  simp [sum]

@[simp] theorem allFit_shifted {t : Target} {s : Source Shifted} :
    AllFit q (shifted t s) ↔ s.Fits q := by
  simp [shifted]

end Assignment

namespace Target

@[simp] theorem fits_source (t : Target) (operand : Byte) (q : Prediction) :
    (t.source operand).Fits q := by
  cases t <;> exact trivial

@[simp] theorem fits_sourceWithCarry {α : Type} (t : Target) (operand : Byte)
    (g : Byte → Bool → α) (q : Prediction) : (t.sourceWithCarry operand g).Fits q := by
  cases t <;> trivial

end Target

namespace Operation

/-- Where an observation contradicts nothing, every source fits. -/
theorem allFit_of_mismatches_eq_nil (settings : Settings) {q : Prediction} {operand : Byte}
    {op : Operation} (h : q.mismatches (op.evidence operand) = []) :
    Assignment.AllFit q (op.assignments settings operand) := by
  cases op with
  | branch f takenWhen =>
    have hlook : (q.look (.flag f)).Allows (Byte.ofBool (impliedFlag takenWhen (operand != 0))) :=
      Cells.mismatches_eq_nil_iff.mp h _ (List.mem_singleton.mpr rfl)
    have hflag : (q.flag f).Allows (impliedFlag takenWhen (operand != 0)) := by
      rw [Cells.look_flag] at hlook
      cases hf : q.flag f with
      | unknown => exact Knowledge.allows_unknown _
      | known b =>
        rw [hf] at hlook
        exact Knowledge.allows_known.mpr (Byte.ofBool_inj.mp (Knowledge.allows_known.mp hlook))
    simp only [assignments, Assignment.allFit_cons, Assignment.allFit_nil, and_true]
    exact hflag
  | transfer source destination =>
    by_cases hS : destination = .S <;> simp [assignments, hS]
  | breakInterrupt =>
    cases hD : settings.variant.clearsDecimal <;> simp [assignments, hD]
  | _ => simp [assignments]

/-- A prediction that knows less still knows less after a step, when the one that knows more
is not contradicted. -/
theorem effect_le_effect {settings : Settings} {p q : Prediction} {operand : Byte}
    {op : Operation} (hop : op.Proper) (hle : p ≤ q)
    (hq : q.mismatches (op.evidence operand) = []) :
    op.effect settings operand p ≤ op.effect settings operand q := by
  have hfits := allFit_of_mismatches_eq_nil settings hq
  intro c
  rw [look_effect settings operand p hop, look_effect settings operand q hop]
  cases hs : op.source settings operand c with
  | none => exact hle c
  | some s =>
    obtain ⟨a, ha, rfl⟩ := Assignment.exists_mem_of_lookup hs
    exact Source.value_le_value hle (hfits a ha)

end Operation

/-- Who knows less is contradicted less. -/
theorem Cells.mismatches_eq_nil_of_le {p q : Prediction} (hle : p ≤ q) {es : List Evidence}
    (hq : q.mismatches es = []) : p.mismatches es = [] := by
  rw [mismatches_eq_nil_iff] at hq ⊢
  intro e he
  exact (hq e he).anti (hle e.cell)

namespace Checker

/-! ### Two runs -/

/-- A call keeps the order of two checkers, when the one that knows more logs no mismatch. -/
theorem call_le_call {c₁ c₂ : Checker} (hsettings : c₁.settings = c₂.settings)
    (hle : c₁.state.cells ≤ c₂.state.cells) {k : Call} (hsilent : (c₂.call k).mismatches = []) :
    (c₁.call k).mismatches = [] ∧
      (c₁.call k).checker.state.cells ≤ (c₂.call k).checker.state.cells := by
  rw [mismatches_call] at hsilent ⊢
  rw [cells_call, cells_call, hsettings]
  cases hk : k.activity with
  | some a =>
    simp only [hk] at hsilent ⊢
    constructor
    · exact Cells.mismatches_eq_nil_of_le hle hsilent
    · exact Operation.effect_le_effect a.proper_operation hle hsilent
  | none =>
    refine ⟨rfl, ?_⟩
    by_cases hreset : k = .reset
    · rw [if_pos hreset, if_pos hreset]
    · rw [if_neg hreset, if_neg hreset]
      exact hle

/-- A run keeps the order of two checkers, when the one that knows more logs no mismatch. -/
theorem after_le_after {c₁ c₂ : Checker} {ks : List Call} (hsettings : c₁.settings = c₂.settings)
    (hle : c₁.state.cells ≤ c₂.state.cells) (hsilent : c₂.mismatches ks = []) :
    c₁.mismatches ks = [] ∧ (c₁.after ks).state.cells ≤ (c₂.after ks).state.cells := by
  induction ks generalizing c₁ c₂ with
  | nil => exact ⟨rfl, hle⟩
  | cons k ks ih =>
    rw [mismatches_cons, List.append_eq_nil_iff] at hsilent
    obtain ⟨hnow, hnext⟩ := call_le_call hsettings hle hsilent.1
    have hsettings' : (c₁.call k).checker.settings = (c₂.call k).checker.settings := by
      rw [settings_call, settings_call, hsettings]
    obtain ⟨hlater, hend⟩ := ih hsettings' hnext hsilent.2
    rw [mismatches_cons, hnow, hlater]
    exact ⟨rfl, hend⟩

/-- One checker stays behind another throughout a run. -/
structure StaysBehind (c₁ c₂ : Checker) (ks : List Call) : Prop where
  /-- It logs no mismatch. -/
  silent : c₁.mismatches ks = []
  /-- At every point of the run it knows no cell that the other does not know or knows
  differently. -/
  le : ∀ before later, ks = before ++ later →
    (c₁.after before).state.cells ≤ (c₂.after before).state.cells

theorem staysBehind_of_le {c₁ c₂ : Checker} {ks : List Call}
    (hsettings : c₁.settings = c₂.settings) (hle : c₁.state.cells ≤ c₂.state.cells)
    (hsilent : c₂.mismatches ks = []) : c₁.StaysBehind c₂ ks := by
  refine ⟨(after_le_after hsettings hle hsilent).1, ?_⟩
  rintro before later rfl
  rw [mismatches_append, List.append_eq_nil_iff] at hsilent
  exact (after_le_after hsettings hle hsilent.1).2

/-- As long as a checker finds no mismatch, every checker that knows less at the start finds
none either and goes on knowing less, and so does one that joins the trace at this point,
whatever the history of the first. -/
theorem knows_no_more {c₂ : Checker} {ks : List Call} (hsilent : c₂.mismatches ks = []) :
    (∀ c₁ : Checker, c₁.settings = c₂.settings → c₁.state.cells ≤ c₂.state.cells →
      c₁.StaysBehind c₂ ks) ∧
    ∀ (c : Checker) (history : List Call), c₂ = c.after history →
      (fresh c.settings).StaysBehind c₂ ks := by
  constructor
  · intro c₁ hsettings hle
    exact staysBehind_of_le hsettings hle hsilent
  · rintro c history rfl
    exact staysBehind_of_le (settings_after c history).symm (Cells.blank_le _) hsilent

/-- A carry and a zero that only the better-informed checker predicts are branched on and
pushed. -/
theorem knows_no_more_of_sum :
    let history : List Call := [.dispatch 0xA9 0x80, .dispatch 0x18 0x00]
    let ks : List Call :=
      [.dispatch 0x69 0x80, .dispatch 0xF0 0x01, .render, .dispatch 0x08 0x47, .interrupt 0x47]
    let c₂ : Checker := (fresh {}).after history
    let known : Prediction := { c₂.state.cells with a := .unknown, z := .unknown }
    let c₁ : Checker := { settings := {}, state := { cells := known, fault := true } }
    c₁.StaysBehind c₂ ks ∧ (fresh {}).StaysBehind c₂ ks := by
  intro history ks c₂ known c₁
  have hsilent : c₂.mismatches ks = [] := by decide
  have hle : known ≤ c₂.state.cells := by
    intro d u hu
    cases d with
    | register r => cases r <;> cases hu
    | flag f => cases f <;> cases hu <;> rfl
  obtain ⟨hall, hjoins⟩ := knows_no_more hsilent
  exact ⟨hall c₁ rfl hle, hjoins (fresh {}) history rfl⟩

/-- A branch that contradicts one checker teaches the other the opposite, so the assumption
on the mismatches is needed. -/
example :
    let known : Prediction := { Cells.blank with z := .known false }
    let c : Checker := { settings := {}, state := { cells := known, fault := false } }
    (c.after [.dispatch 0xF0 0x01]).state.cells.z = .known false ∧
      ((fresh {}).after [.dispatch 0xF0 0x01]).state.cells.z = .known true := by
  decide

end Checker

end TraceCheck
