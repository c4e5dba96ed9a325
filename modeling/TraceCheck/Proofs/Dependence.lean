import Mathlib.Data.List.Basic
import TraceCheck.Proofs.DataFlow

/-!
# `TraceCheck.Proofs.Dependence`: what is looked at to compute a cell

`Source.Reads` asks which cells the value of a source can vary with. This module asks which
cells are looked at, whether or not they matter in the end. An accumulator combined with a
zero is looked at: the result of the conjunction is unknown when the accumulator is, though
it is zero in any case. `Source.inputs` lists the cells that are looked at, and what is known
of a value follows from what is known of these (`Source.value_congr`). `Assignment.Within`
says of a list of assignments that it looks at cells of one kind only. `Operation.inputs`
lists the inputs of a cell after an operation, and `Operation.look_effect_congr` says that two
predictions which look the same at the inputs of a cell lead to the same cell, under two
settings as well as under one.

Two flags stand apart. No operation computes D or I. They are kept, taken from the observed
byte or learned from it, and `Operation.control` says which, without a word about any other
cell and without the decimal rule. In the other direction D is looked at by additions and
subtractions under the cautious rule and by nothing else (`Operation.decimal_notMem_inputs`).
-/

set_option autoImplicit false

namespace TraceCheck

namespace Cells

variable {p q : Prediction}

theorem flag_eq_of_look {f : Flag} (h : p.look (.flag f) = q.look (.flag f)) :
    p.flag f = q.flag f := by
  rw [look_flag, look_flag] at h
  cases hp : p.flag f <;> cases hq : q.flag f <;> simp_all [Byte.ofBool_inj]

theorem conflict_congr {e : Evidence} (h : p.look e.cell = q.look e.cell) :
    p.conflict e = q.conflict e := by
  unfold conflict
  rw [h]

/-- What is logged follows from what is known of the cells that are compared. -/
theorem mismatches_congr {es : List Evidence} (h : ∀ e ∈ es, p.look e.cell = q.look e.cell) :
    p.mismatches es = q.mismatches es :=
  List.filterMap_congr fun e he => conflict_congr (h e he)

end Cells

/-! ### The inputs of a source -/

/-- The cells that a sum is computed from. The cautious rule has a look at D beside them. -/
def DecimalRule.reads : DecimalRule → List Cell
  | assumeBinary => [.register .A, .flag .C]
  | unknownWhenDecimal => [.register .A, .flag .C, .flag .D]

/-- The cell of a target. Memory has none. -/
def Target.cells : Target → List Cell
  | register r => [.register r]
  | memory => []

@[simp] theorem Target.cells_register (r : Register) :
    (Target.register r).cells = [.register r] := rfl

theorem Target.forall_mem_cells {t : Target} {P : Cell → Prop} :
    (∀ c ∈ t.cells, P c) ↔ ∀ r, t = .register r → P (.register r) := by
  cases t <;> simp [cells]

namespace Source

variable {α β : Type}

/-- The cells that are looked at to compute a value. -/
def inputs : Source α → List Cell
  | given _ => []
  | ofRegister r _ => [.register r]
  | ofCarry _ => [.flag .C]
  | withCarry r _ => [.register r, .flag .C]
  | arithmetic .assumeBinary _ => [.register .A, .flag .C]
  | arithmetic .unknownWhenDecimal _ => [.register .A, .flag .C, .flag .D]
  | shown f _ _ => [.flag f]

@[simp] theorem inputs_given (v : α) : (given v).inputs = [] := rfl

@[simp] theorem inputs_ofRegister (r : Register) (g : Byte → α) :
    (ofRegister r g).inputs = [.register r] := rfl

@[simp] theorem inputs_ofCarry (g : Bool → α) : (ofCarry g).inputs = [.flag .C] := rfl

@[simp] theorem inputs_withCarry (r : Register) (g : Byte → Bool → α) :
    (withCarry r g).inputs = [.register r, .flag .C] := rfl

@[simp] theorem inputs_shown (f : Flag) (v : Bool) (g : Bool → α) :
    (shown f v g).inputs = [.flag f] := rfl

@[simp] theorem inputs_map (h : α → β) (s : Source α) : (s.map h).inputs = s.inputs := by
  cases s with
  | arithmetic rule g => cases rule <;> rfl
  | _ => rfl

@[simp] theorem inputs_arithmetic (rule : DecimalRule) (g : Byte → Bool → α) :
    (arithmetic rule g).inputs = rule.reads := by
  cases rule <;> rfl

/-- What is known of a value follows from what is known of its inputs. -/
theorem value_congr {s : Source α} {p q : Prediction}
    (h : ∀ c ∈ s.inputs, p.look c = q.look c) : s.value p = s.value q := by
  have hregister : ∀ r, Cell.register r ∈ s.inputs → p.register r = q.register r :=
    fun r hr => h (.register r) hr
  have hflag : ∀ f, Cell.flag f ∈ s.inputs → p.flag f = q.flag f :=
    fun f hf => Cells.flag_eq_of_look (h (.flag f) hf)
  cases s with
  | given v => rfl
  | ofRegister r g =>
    show (p.register r).map g = (q.register r).map g
    rw [hregister r (by simp)]
  | ofCarry g =>
    show (p.flag .C).map g = (q.flag .C).map g
    rw [hflag .C (by simp)]
  | withCarry r g =>
    show Knowledge.map₂ g (p.register r) (p.flag .C) =
      Knowledge.map₂ g (q.register r) (q.flag .C)
    rw [hregister r (by simp), hflag .C (by simp)]
  | arithmetic rule g =>
    show Knowledge.map₂ g (if rule.trusts (p.flag .D) then p.register .A else .unknown)
        (p.flag .C) =
      Knowledge.map₂ g (if rule.trusts (q.flag .D) then q.register .A else .unknown) (q.flag .C)
    -- Whether the accumulator is trusted depends on D under the cautious rule alone.
    have htrust : rule.trusts (p.flag .D) = rule.trusts (q.flag .D) := by
      cases rule with
      | assumeBinary => rfl
      | unknownWhenDecimal => rw [hflag .D (by simp [inputs])]
    rw [htrust, hregister .A (by cases rule <;> simp [inputs]),
      hflag .C (by cases rule <;> simp [inputs])]
  | shown f v g =>
    show ((p.flag f).learn v).map g = ((q.flag f).learn v).map g
    rw [hflag f (by simp)]

end Source

theorem Assignment.mem_of_lookup {as : List Assignment} {c : Cell} {s : Source Byte}
    (h : lookup as c = some s) : (⟨c, s⟩ : Assignment) ∈ as := by
  obtain ⟨a, ha, rfl⟩ := Option.map_eq_some_iff.mp h
  have hcell : a.cell = c := by simpa using List.find?_some ha
  rw [← hcell]
  exact List.mem_of_find?_eq_some ha

namespace Operation

/-- The cells that are looked at to compute a cell after an operation. A cell that is not
written keeps its own value. -/
def inputs (settings : Settings) (operand : Byte) (op : Operation) (c : Cell) : List Cell :=
  match op.source settings operand c with
  | some s => s.inputs
  | none => [c]

/-- Predictions that look the same at the inputs of a cell lead to the same knowledge of the
cell, also under two settings if these assign the cell from the same source. -/
theorem look_effect_congr {settings settings' : Settings} {operand : Byte} {op : Operation}
    (hop : op.Proper) {p q : Prediction} {c : Cell}
    (hsource : op.source settings' operand c = op.source settings operand c)
    (h : ∀ d ∈ op.inputs settings operand c, p.look d = q.look d) :
    (op.effect settings operand p).look c = (op.effect settings' operand q).look c := by
  rw [look_effect settings operand p hop, look_effect settings' operand q hop, hsource]
  unfold inputs at h
  cases hs : op.source settings operand c with
  | some s =>
    rw [hs] at h
    exact Source.value_congr h
  | none =>
    rw [hs] at h
    exact h c (List.mem_singleton.mpr rfl)

end Operation

/-! ### The inputs of a list of assignments -/

namespace Assignment

/-- All values are computed from cells with a property. -/
def Within (P : Cell → Prop) (as : List Assignment) : Prop :=
  ∀ a ∈ as, ∀ c ∈ a.source.inputs, P c

variable {P : Cell → Prop}

@[simp] theorem within_nil : Within P [] := fun _ ha => absurd ha List.not_mem_nil

@[simp] theorem within_cons {a : Assignment} {as : List Assignment} :
    Within P (a :: as) ↔ (∀ c ∈ a.source.inputs, P c) ∧ Within P as := List.forall_mem_cons

@[simp] theorem within_append {as bs : List Assignment} :
    Within P (as ++ bs) ↔ Within P as ∧ Within P bs := List.forall_mem_append

@[simp] theorem inputs_stack (offset : Int) : (stack offset).source.inputs = [.register .S] := rfl

@[simp] theorem inputs_probe (operand : Byte) :
    (probe operand).source.inputs = [.register .A] := rfl

@[simp] theorem within_flags (g : Flag → Bool) : Within P (flags g) := by
  intro a ha c hc
  obtain ⟨f, -, rfl⟩ := List.mem_map.mp ha
  cases hc

@[simp] theorem within_signs {s : Source Byte} : Within P (signs s) ↔ ∀ c ∈ s.inputs, P c := by
  simp [signs]

@[simp] theorem within_result {t : Target} {s : Source Byte} :
    Within P (result t s) ↔ ∀ c ∈ s.inputs, P c := by
  cases t <;> simp [result, put]

@[simp] theorem within_sum {s : Source ArithmeticResult} :
    Within P (sum s) ↔ ∀ c ∈ s.inputs, P c := by
  simp [sum]

@[simp] theorem within_shifted {t : Target} {s : Source Shifted} :
    Within P (shifted t s) ↔ ∀ c ∈ s.inputs, P c := by
  simp [shifted]

end Assignment

namespace Target

@[simp] theorem inputs_source (t : Target) (operand : Byte) :
    (t.source operand).inputs = t.cells := by
  cases t <;> rfl

@[simp] theorem inputs_sourceWithCarry {α : Type} (t : Target) (operand : Byte)
    (g : Byte → Bool → α) : (t.sourceWithCarry operand g).inputs = t.cells ++ [.flag .C] := by
  cases t <;> rfl

end Target

/-! ### The decimal flag as an input -/

namespace Operation

/-- Where sums are binary, nothing but a branch on D looks at D. -/
theorem within_ne_decimal {settings : Settings} (hrule : settings.decimal = .assumeBinary)
    (operand : Byte) {op : Operation} (hop : ∀ b, op ≠ .branch .D b) :
    Assignment.Within (· ≠ .flag .D) (op.assignments settings operand) := by
  cases op with
  | add => simp [assignments, DecimalRule.reads, hrule]
  | subtract => simp [assignments, DecimalRule.reads, hrule]
  | transfer source destination => by_cases hS : destination = .S <;> simp [assignments, hS]
  | branch f takenWhen =>
    have hf : f ≠ .D := by
      rintro rfl
      exact hop takenWhen rfl
    simp [assignments, hf]
  | breakInterrupt => cases hD : settings.variant.clearsDecimal <;> simp [assignments, hD]
  | _ => simp [assignments, or_imp, forall_and, Target.forall_mem_cells]

/-- Where sums are binary, D is looked at for the sake of D alone. -/
theorem decimal_notMem_inputs {settings : Settings} (hrule : settings.decimal = .assumeBinary)
    (operand : Byte) (op : Operation) {c : Cell} (hc : c ≠ .flag .D) :
    .flag .D ∉ op.inputs settings operand c := by
  intro hD
  unfold inputs at hD
  cases hs : op.source settings operand c with
  | some s =>
    rw [hs] at hD
    have hmem := Assignment.mem_of_lookup hs
    by_cases hbranch : ∃ b, op = .branch .D b
    · -- A branch on D would learn D itself.
      obtain ⟨b, rfl⟩ := hbranch
      cases List.mem_singleton.mp hmem
      exact hc rfl
    · exact within_ne_decimal hrule operand (fun b h => hbranch ⟨b, h⟩) _ hmem _ hD rfl
  | none =>
    rw [hs] at hD
    exact hc (List.mem_singleton.mp hD).symm

/-! ### The flags that are not computed -/

/-- The only place where the processor family shows is what an interrupt assigns to D. -/
theorem source_eq_of_decimal_eq {settings settings' : Settings}
    (hrule : settings'.decimal = settings.decimal) (operand : Byte) (op : Operation) {c : Cell}
    (hc : c ≠ .flag .D) : op.source settings' operand c = op.source settings operand c := by
  obtain ⟨variant, decimal⟩ := settings
  obtain ⟨variant', decimal'⟩ := settings'
  obtain rfl : decimal' = decimal := hrule
  cases op with
  | breakInterrupt =>
    cases c with
    | register r => cases variant <;> cases variant' <;> rfl
    | flag f =>
      cases f with
      | D => exact absurd rfl hc
      | _ => cases variant <;> cases variant' <;> rfl
  | _ => rfl

end Operation

/-- What can become of a flag that is not computed. -/
inductive Control where
  /-- It stays as it is. -/
  | keep
  /-- It takes a value. -/
  | take (b : Bool)
  /-- It takes a value if nothing was known of it. -/
  | learn (b : Bool)
deriving DecidableEq

namespace Control

/-- What is known of the flag afterwards. -/
def apply : Control → Knowledge Bool → Knowledge Bool
  | keep, k => k
  | take b, _ => .known b
  | learn b, k => k.learn b

end Control

/-- D and I, which no operation computes. -/
def Flag.isControl : Flag → Bool
  | D | I => true
  | _ => false

theorem Flag.isControl_iff {f : Flag} : f.isControl = true ↔ f = .D ∨ f = .I := by
  cases f <;> simp [isControl]

namespace Operation

/-- What an operation makes of a flag that it does not compute. An interrupt sets I, and
clears D or leaves it as pushed. -/
def control (variant : Variant) (operand : Byte) (f : Flag) : Operation → Control
  | pushStatus | pullStatus | returnInterrupt => .take (f.ofStatus operand)
  | breakInterrupt =>
    .take (if f = .I then true else !variant.clearsDecimal && f.ofStatus operand)
  | setFlag g b => if f = g then .take b else .keep
  | branch g takenWhen =>
    if f = g then .learn (impliedFlag takenWhen (operand != 0)) else .keep
  | _ => .keep

/-- D and I after an operation follow from what was known of the same flag and from the
observed byte, and no decimal rule matters. -/
theorem flag_effect_of_isControl (settings : Settings) (operand : Byte) (p : Prediction)
    (op : Operation) {f : Flag} (hf : f.isControl = true) :
    (op.effect settings operand p).flag f =
      (op.control settings.variant operand f).apply (p.flag f) := by
  cases op with
  | setFlag g b =>
    show (Cells.setFlag p g (.known b)).flag f = _
    rw [Cells.flag_setFlag]
    by_cases hg : f = g <;> simp [control, hg, Control.apply]
  | branch g takenWhen =>
    show (Cells.setFlag p g ((p.flag g).learn _)).flag f = _
    rw [Cells.flag_setFlag]
    by_cases hg : f = g <;> simp [control, hg, Control.apply]
  | breakInterrupt =>
    show (p.interrupt settings.variant operand).flag f = _
    rw [Cells.flag_interrupt]
    obtain rfl | rfl := Flag.isControl_iff.mp hf <;> rfl
  | combine g => obtain rfl | rfl := Flag.isControl_iff.mp hf <;> rfl
  | compare r => obtain rfl | rfl := Flag.isControl_iff.mp hf <;> rfl
  | bitTest => obtain rfl | rfl := Flag.isControl_iff.mp hf <;> rfl
  | transfer source destination =>
    obtain rfl | rfl := Flag.isControl_iff.mp hf <;> cases destination <;> rfl
  | _ =>
    -- The lemmas on the writes tell the flags of a result from the other ones.
    obtain rfl | rfl := Flag.isControl_iff.mp hf <;>
      simp [effect, control, Control.apply, Cells.flag_setNZ, Cells.flag_setArithmetic,
        Cells.flag_setShifted, Cells.flag_setCount, Cells.flag_probeBits]

end Operation

end TraceCheck
