import Mathlib.Data.List.Basic
import TraceCheck.Proofs.Dependence
import TraceCheck.Proofs.TwoRuns

/-!
# `TraceCheck.Proofs.VariantIndependence`: where the processor family shows

The two processor families differ in one thing: on entering an interrupt handler the 65C02
clears D, and the NMOS 6502 leaves it as pushed. Two checkers that start in one state and
differ in the family alone may thus come to differ in D. This module says that this is all,
as long as sums are taken to be binary. No other cell is computed from D
(`Operation.decimal_notMem_inputs`), so none ever differs, and neither do the mismatches that
name other cells.

The invariant of the two runs is `Cells.DifferInDecimal`. It says besides which way D differs,
if it does: the checker of the 65C02 knows it to be clear and the other knows it to be set.
That is preserved because D is never computed. Whatever an operation does to D, it does to both
(`Control.apply_pair`), and only interrupts make the difference.

Where no interrupt pushes a status byte with D set, there is nothing to clear. Then the two
runs have the same course, under either decimal rule.
-/

set_option autoImplicit false

namespace TraceCheck

namespace Cells

variable {p q : Prediction}

/-- Two predictions are the same but for D, and if they differ there, the first knows D to be
clear and the second knows it to be set. -/
structure DifferInDecimal (p q : Prediction) : Prop where
  others : ∀ c, c ≠ .flag .D → p.look c = q.look c
  decimal : p.d = q.d ∨ (p.d = .known false ∧ q.d = .known true)

theorem DifferInDecimal.refl (p : Prediction) : p.DifferInDecimal p :=
  ⟨fun _ _ => rfl, Or.inl rfl⟩

/-- Predictions that are the same but for one cell have the same mismatches elsewhere. -/
theorem filter_mismatches_congr {d : Cell} (h : ∀ c, c ≠ d → p.look c = q.look c)
    (es : List Evidence) :
    (p.mismatches es).filter (·.cell ≠ d) = (q.mismatches es).filter (·.cell ≠ d) := by
  unfold mismatches
  rw [List.filter_filterMap, List.filter_filterMap]
  refine List.filterMap_congr fun e _ => ?_
  by_cases he : e.cell = d
  · -- Whatever conflict there is names the cell that is left out.
    have hnone : ∀ r : Prediction, (r.conflict e).filter (fun m => m.cell ≠ d) = none := by
      intro r
      rw [Option.filter_eq_none_iff]
      intro m hm
      simp [(conflict_eq_some_iff.mp hm).1, he]
    rw [hnone, hnone]
  · rw [conflict_congr (h e.cell he)]

end Cells

/-! ### One step of the two families -/

/-- Two values of D that are the same, or clear and set, stay so when the same is done to
both. -/
theorem Control.apply_pair (x : Control) {k l : Knowledge Bool}
    (h : k = l ∨ (k = .known false ∧ l = .known true)) :
    x.apply k = x.apply l ∨ (x.apply k = .known false ∧ x.apply l = .known true) := by
  rcases h with rfl | ⟨rfl, rfl⟩
  · exact Or.inl rfl
  · cases x with
    | keep => exact Or.inr ⟨rfl, rfl⟩
    | take b => exact Or.inl rfl
    | learn b => exact Or.inr ⟨rfl, rfl⟩

namespace Operation

variable {settings settings' : Settings} {p q : Prediction}

/-- Only interrupts do different things to D on the two families. -/
theorem control_decimal_eq {op : Operation} (h : op ≠ .breakInterrupt) (variant variant' : Variant)
    (operand : Byte) : op.control variant operand .D = op.control variant' operand .D := by
  cases op with
  | breakInterrupt => exact absurd rfl h
  | _ => rfl

/-- An operation on the two families makes no difference but in D. -/
theorem differInDecimal_effect (hcmos : settings = { variant := .cmos, decimal := .assumeBinary })
    (hnmos : settings' = { variant := .nmos, decimal := .assumeBinary }) (operand : Byte)
    {op : Operation} (hop : op.Proper) (h : p.DifferInDecimal q) :
    (op.effect settings operand p).DifferInDecimal (op.effect settings' operand q) := by
  constructor
  · -- Another cell has the same source on both families, and D is not looked at for it.
    intro c hc
    have hrule : settings'.decimal = settings.decimal := by rw [hcmos, hnmos]
    have hbinary : settings.decimal = .assumeBinary := by rw [hcmos]
    refine look_effect_congr hop (source_eq_of_decimal_eq hrule operand op hc) fun d hd => ?_
    refine h.others d ?_
    rintro rfl
    exact decimal_notMem_inputs hbinary operand op hc hd
  · show (op.effect _ operand p).flag .D = (op.effect _ operand q).flag .D ∨
      ((op.effect _ operand p).flag .D = .known false ∧
        (op.effect _ operand q).flag .D = .known true)
    rw [flag_effect_of_isControl _ _ _ _ rfl, flag_effect_of_isControl _ _ _ _ rfl, hcmos, hnmos]
    by_cases hbreak : op = .breakInterrupt
    · subst hbreak
      -- The 65C02 clears D, and the other takes it from the status byte.
      show Knowledge.known false = .known (Flag.D.ofStatus operand) ∨
        (Knowledge.known false = .known false ∧
          Knowledge.known (Flag.D.ofStatus operand) = .known true)
      cases Flag.D.ofStatus operand with
      | false => exact Or.inl rfl
      | true => exact Or.inr ⟨rfl, rfl⟩
    · rw [control_decimal_eq hbreak .cmos .nmos]
      exact Control.apply_pair _ h.decimal

/-- Where D is clear in the status byte there is nothing to clear. -/
theorem effect_eq_of_clear_status (hrule : settings.decimal = settings'.decimal) (operand : Byte)
    {op : Operation} (hclear : op = .breakInterrupt → Flag.D.ofStatus operand = false) :
    op.effect settings operand p = op.effect settings' operand p := by
  cases op with
  | add => simp only [effect, hrule]
  | subtract => simp only [effect, hrule]
  | breakInterrupt =>
    refine Cells.ext_cells (fun r => ?_) fun f => ?_
    · show (p.interrupt _ _).register r = (p.interrupt _ _).register r
      rw [Cells.register_interrupt, Cells.register_interrupt]
    · show (p.interrupt _ _).flag f = (p.interrupt _ _).flag f
      rw [Cells.flag_interrupt, Cells.flag_interrupt, hclear rfl]
      simp only [Bool.and_false]
  | _ => rfl

end Operation

/-! ### The status bytes of interrupts -/

/-- Of all instructions only BRK does what an interrupt does. -/
theorem Instruction.mnemonic_of_breakInterrupt {i : Instruction}
    (h : i.operation = .breakInterrupt) : i.mnemonic = .BRK := by
  obtain ⟨mnemonic, mode⟩ := i
  cases mnemonic with
  | BRK => rfl
  | BIT =>
    have hbit : (if mode = .immediate then Operation.bitTestConstant else .bitTest) =
        .breakInterrupt := h
    split at hbit <;> cases hbit
  | _ => cases h

/-- The status byte that a BRK or a hardware interrupt pushes. -/
def Activity.interruptStatus? : Activity → Option Byte
  | instruction opcode operand =>
    if (Instruction.decode opcode).mnemonic = .BRK then some operand else none
  | interrupt status => some status

theorem Activity.interruptStatus?_eq_some {a : Activity} (h : a.operation = .breakInterrupt) :
    a.interruptStatus? = some a.operand := by
  cases a with
  | instruction opcode operand => exact if_pos (Instruction.mnemonic_of_breakInterrupt h)
  | interrupt status => rfl

/-- The status byte that a call reports to be pushed by a BRK or a hardware interrupt. -/
def Call.interruptStatus? (k : Call) : Option Byte := k.activity.bind Activity.interruptStatus?

namespace Checker

/-! ### Two runs -/

/-- Two checkers of the two families, with binary sums, that differ in D at most. -/
structure VariantTwins (c d : Checker) : Prop where
  cmos : c.settings = { variant := .cmos, decimal := .assumeBinary }
  nmos : d.settings = { variant := .nmos, decimal := .assumeBinary }
  cells : c.state.cells.DifferInDecimal d.state.cells

theorem VariantTwins.call {c d : Checker} (h : c.VariantTwins d) (k : Call) :
    (c.call k).checker.VariantTwins (d.call k).checker := by
  refine ⟨?_, ?_, ?_⟩
  · rw [settings_call]
    exact h.cmos
  · rw [settings_call]
    exact h.nmos
  · apply cells_call_of_effect (S := Cells.DifferInDecimal) (.refl _) h.cells
    intro a _
    exact Operation.differInDecimal_effect h.cmos h.nmos a.operand a.proper_operation h.cells

theorem VariantTwins.mismatches_call {c d : Checker} (h : c.VariantTwins d) (k : Call) :
    (c.call k).mismatches.filter (·.cell ≠ .flag .D) =
      (d.call k).mismatches.filter (·.cell ≠ .flag .D) := by
  rw [Checker.mismatches_call, Checker.mismatches_call]
  cases k.activity with
  | some a => exact Cells.filter_mismatches_congr h.cells.others a.evidence
  | none => rfl

/-- What a checker of the 65C02 and one of the NMOS 6502 have in common in a run. -/
structure DifferInDecimalOnly (cmos nmos : Checker) (ks : List Call) : Prop where
  /-- At every point of the run all cells but D are the same. -/
  others : ∀ before later, ks = before ++ later → ∀ c, c ≠ .flag .D →
    (cmos.after before).state.cells.look c = (nmos.after before).state.cells.look c
  /-- If D differs, it is known to be clear on the 65C02 and to be set on the NMOS 6502. -/
  decimal : ∀ before later, ks = before ++ later →
    (cmos.after before).state.cells.d ≠ (nmos.after before).state.cells.d →
    (cmos.after before).state.cells.d = .known false ∧
      (nmos.after before).state.cells.d = .known true
  /-- At each call the same mismatches are logged, apart from those that name D. -/
  mismatches : (cmos.outcomes ks).map (fun o => o.mismatches.filter (·.cell ≠ .flag .D)) =
    (nmos.outcomes ks).map fun o => o.mismatches.filter (·.cell ≠ .flag .D)

theorem VariantTwins.differInDecimalOnly {c d : Checker} (h : c.VariantTwins d)
    (ks : List Call) : c.DifferInDecimalOnly d ks := by
  have hafter : ∀ before, (c.after before).VariantTwins (d.after before) := fun before =>
    after_of_call (R := VariantTwins) (fun _ _ k h => h.call k) before h
  refine ⟨fun before _ _ => (hafter before).cells.others, fun before _ _ hne => ?_, ?_⟩
  · exact (hafter before).cells.decimal.resolve_left hne
  · exact outcomes_of_call (R := VariantTwins) (fun _ _ k h => h.call k)
      (fun _ _ k h => h.mismatches_call k) ks h

/-- The processor family shows in D only, from every state and over every run with binary
sums. Where no BRK and no interrupt pushes a status byte with bit 3 set, it does not show at
all, whatever the decimal rule is. -/
theorem variant_shows_in_decimal_only (s : State) (ks : List Call) :
    DifferInDecimalOnly
        { settings := { variant := .cmos, decimal := .assumeBinary }, state := s }
        { settings := { variant := .nmos, decimal := .assumeBinary }, state := s } ks ∧
      ∀ rule : DecimalRule,
        (∀ k ∈ ks, ∀ status, k.interruptStatus? = some status → status.getLsbD 3 = false) →
        course { settings := { variant := .cmos, decimal := rule }, state := s } ks =
          course { settings := { variant := .nmos, decimal := rule }, state := s } ks := by
  constructor
  · apply VariantTwins.differInDecimalOnly
    exact ⟨rfl, rfl, .refl s.cells⟩
  intro rule hclear
  apply course_eq
  · rfl
  rintro before k later a rfl hk
  apply Operation.effect_eq_of_clear_status
  · rfl
  intro hbreak
  refine hclear k (List.mem_append_right before List.mem_cons_self) a.operand ?_
  unfold Call.interruptStatus?
  rw [hk]
  exact Activity.interruptStatus?_eq_some hbreak

/-- An interrupt in decimal mode leaves D clear on the 65C02 and set on the NMOS 6502, and the
status byte that the handler pushes contradicts the first. Where D is clear in all bytes that
interrupts push, the two runs have the same course. -/
theorem variant_shows_in_decimal_only_pushed_status :
    let cmos := fresh { variant := .cmos, decimal := .assumeBinary }
    let nmos := fresh { variant := .nmos, decimal := .assumeBinary }
    let decimal : List Call :=
      [.dispatch 0xF8 0x00, .interrupt 0x2B, .dispatch 0x08 0x3F, .dispatch 0x85 0x07]
    let clear : List Call :=
      [.dispatch 0x00 0x31, .dispatch 0x69 0x01, .interrupt 0xE7, .dispatch 0x40 0x3B, .render]
    (cmos.DifferInDecimalOnly nmos decimal ∧ cmos.mismatches decimal = [⟨.flag .D, 0, 1⟩] ∧
      nmos.mismatches decimal = []) ∧
    course (fresh { variant := .cmos, decimal := .unknownWhenDecimal }) clear =
      course (fresh { variant := .nmos, decimal := .unknownWhenDecimal }) clear := by
  intro cmos nmos decimal clear
  have hclear : ∀ k ∈ clear, ∀ status, k.interruptStatus? = some status →
      status.getLsbD 3 = false := by
    simp only [clear, List.forall_mem_cons]
    refine ⟨?_, ?_, ?_, ?_, ?_, fun _ h => absurd h List.not_mem_nil⟩
    all_goals
      intro status h
      cases h
    · rfl
    · rfl
  refine ⟨⟨?_, by decide, by decide⟩, ?_⟩
  · exact (variant_shows_in_decimal_only .blank decimal).1
  · exact (variant_shows_in_decimal_only .blank clear).2 .unknownWhenDecimal hclear

end Checker

end TraceCheck
