import Mathlib.Data.Set.BooleanAlgebra
import Mathlib.Order.CompletePartialOrder
import TraceCheck.Proofs.DataFlow

/-!
# `TraceCheck.Proofs.KnownCells`: how operations move the set of the known cells

Whether a new value is known depends on which cells are known and hardly ever on their
values. Each assignment of `Operation.assignments` says by its source which cells have to be
known (`Source.KnownIn`), and the sources of an operation have the same shape whatever byte
is observed and whatever the settings are (`Operation.knownAfter_assignments`). So every
operation moves the set of the known cells by a function of its own,
`Operation.propagate`, and `Operation.knownCells_effect` proves it.

One value does matter. Under the cautious decimal rule the sum of two known bytes is known
only while the decimal flag is known to be clear. The function of an addition or a
subtraction therefore takes one more argument, which says whether binary arithmetic is
trusted, and no other function depends on it (`Operation.propagate_congr`).

The functions are monotone. With trust they keep the full set, they never lose the flags D
and I, and all instructions but TXS keep the stack pointer.
-/

set_option autoImplicit false

namespace TraceCheck

/-- The cells whose value is known. -/
def Cells.knownCells (p : Prediction) : Set Cell := {c | (p.look c).isKnown = true}

theorem Cells.mem_knownCells_flag {p : Prediction} {f : Flag} :
    Cell.flag f ∈ p.knownCells ↔ (p.flag f).isKnown = true := by
  show ((p.flag f).map Byte.ofBool).isKnown = true ↔ _
  rw [Knowledge.isKnown_map]

theorem Cells.knownCells_blank : Cells.blank.knownCells = ∅ := by
  ext c
  show (Cells.blank.look c).isKnown = true ↔ False
  rw [Cells.look_blank]
  exact iff_of_false Bool.false_ne_true id

theorem Cells.isKnown_binaryAccumulator (p : Prediction) (rule : DecimalRule) :
    (p.binaryAccumulator rule).isKnown = (rule.trusts p.d && p.a.isKnown) := by
  unfold Cells.binaryAccumulator
  cases rule.trusts p.d <;> rfl

/-! ### When the value of a source is known -/

namespace Source

variable {α β : Type} {trusts : DecimalRule → Bool} {K L : Set Cell}

/-- The value is known to whoever knows the cells of a set and may compute in binary under
the rules that are trusted. -/
def KnownIn (trusts : DecimalRule → Bool) (K : Set Cell) : Source α → Prop
  | given _ => True
  | ofRegister r _ => .register r ∈ K
  | ofCarry _ => .flag .C ∈ K
  | withCarry r _ => .register r ∈ K ∧ .flag .C ∈ K
  | arithmetic rule _ => trusts rule = true ∧ .register .A ∈ K ∧ .flag .C ∈ K
  | shown _ _ _ => True

@[simp] theorem knownIn_given (v : α) : (given v).KnownIn trusts K ↔ True := Iff.rfl

@[simp] theorem knownIn_ofRegister (r : Register) (g : Byte → α) :
    (ofRegister r g).KnownIn trusts K ↔ .register r ∈ K := Iff.rfl

@[simp] theorem knownIn_ofCarry (g : Bool → α) :
    (ofCarry g).KnownIn trusts K ↔ .flag .C ∈ K := Iff.rfl

@[simp] theorem knownIn_withCarry (r : Register) (g : Byte → Bool → α) :
    (withCarry r g).KnownIn trusts K ↔ .register r ∈ K ∧ .flag .C ∈ K := Iff.rfl

@[simp] theorem knownIn_arithmetic (rule : DecimalRule) (g : Byte → Bool → α) :
    (arithmetic rule g).KnownIn trusts K ↔
      trusts rule = true ∧ .register .A ∈ K ∧ .flag .C ∈ K := Iff.rfl

@[simp] theorem knownIn_shown (f : Flag) (v : Bool) (g : Bool → α) :
    (shown f v g).KnownIn trusts K ↔ True := Iff.rfl

@[simp] theorem knownIn_map (h : α → β) (s : Source α) :
    (s.map h).KnownIn trusts K ↔ s.KnownIn trusts K := by
  cases s <;> exact Iff.rfl

/-- Whether a value is known depends on which cells are known and on no value but that of
the decimal flag. -/
theorem isKnown_value (s : Source α) (p : Prediction) :
    (s.value p).isKnown = true ↔ s.KnownIn (·.trusts p.d) p.knownCells := by
  have hC : Cell.flag .C ∈ p.knownCells ↔ p.c.isKnown = true := Cells.mem_knownCells_flag
  cases s with
  | given v => exact iff_of_true rfl trivial
  | ofRegister r g =>
    show ((p.register r).map g).isKnown = true ↔ (p.register r).isKnown = true
    rw [Knowledge.isKnown_map]
  | ofCarry g =>
    show (p.c.map g).isKnown = true ↔ Cell.flag .C ∈ p.knownCells
    rw [Knowledge.isKnown_map, hC]
  | withCarry r g =>
    show (Knowledge.map₂ g (p.register r) p.c).isKnown = true ↔
      (p.register r).isKnown = true ∧ Cell.flag .C ∈ p.knownCells
    rw [Knowledge.isKnown_map₂, Bool.and_eq_true, hC]
  | arithmetic rule g =>
    show (Knowledge.map₂ g (p.binaryAccumulator rule) p.c).isKnown = true ↔
      rule.trusts p.d = true ∧ p.a.isKnown = true ∧ Cell.flag .C ∈ p.knownCells
    rw [Knowledge.isKnown_map₂, Cells.isKnown_binaryAccumulator, Bool.and_eq_true,
      Bool.and_eq_true, hC, and_assoc]
  | shown f v g =>
    refine iff_of_true ?_ trivial
    show (((p.flag f).learn v).map g).isKnown = true
    rw [Knowledge.isKnown_map, Knowledge.isKnown_learn]

theorem KnownIn.mono {s : Source α} (h : s.KnownIn trusts K) (hKL : K ⊆ L) :
    s.KnownIn trusts L := by
  cases s with
  | given v => trivial
  | ofRegister r g => exact hKL h
  | ofCarry g => exact hKL h
  | withCarry r g => exact ⟨hKL h.1, hKL h.2⟩
  | arithmetic rule g => exact ⟨h.1, hKL h.2.1, hKL h.2.2⟩
  | shown f v g => trivial

/-- Whoever knows everything and trusts every rule knows every value. -/
theorem knownIn_univ (s : Source α) : s.KnownIn (fun _ => true) Set.univ := by
  cases s with
  | withCarry r g => exact ⟨trivial, trivial⟩
  | arithmetic rule g => exact ⟨rfl, trivial, trivial⟩
  | _ => trivial

end Source

/-! ### When a cell is known after assignments -/

namespace Assignment

variable {trusts trusts' : DecimalRule → Bool} {K L : Set Cell} {c : Cell}

/-- A cell is known after the assignments of a list when the value it takes is known, or
when it takes none and was known before. -/
def KnownAfter (trusts : DecimalRule → Bool) (K : Set Cell) (as : List Assignment) (c : Cell) :
    Prop :=
  match lookup as c with
  | some s => s.KnownIn trusts K
  | none => c ∈ K

theorem knownAfter_cons (a : Assignment) (as : List Assignment) :
    KnownAfter trusts K (a :: as) c ↔
      if a.cell = c then a.source.KnownIn trusts K else KnownAfter trusts K as c := by
  unfold KnownAfter
  rw [lookup_cons]
  by_cases hc : a.cell = c
  · simp only [if_pos hc]
  · simp only [if_neg hc]

theorem KnownAfter.cons {a : Assignment} {as : List Assignment}
    (ha : a.source.KnownIn trusts K) (h : KnownAfter trusts K as c) :
    KnownAfter trusts K (a :: as) c := by
  rw [knownAfter_cons]
  split
  · exact ha
  · exact h

/-- The cell of an assignment and what has to be known for it to be known. -/
def demand (trusts : DecimalRule → Bool) (K : Set Cell) (a : Assignment) : Cell × Prop :=
  (a.cell, a.source.KnownIn trusts K)

@[simp] theorem demand_mk (c : Cell) (s : Source Byte) :
    demand trusts K ⟨c, s⟩ = (c, s.KnownIn trusts K) := rfl

@[simp] theorem demand_stack (offset : Int) :
    demand trusts K (stack offset) = (.register .S, .register .S ∈ K) := rfl

@[simp] theorem demand_probe (operand : Byte) :
    demand trusts K (probe operand) = (.flag .Z, .register .A ∈ K) := rfl

@[simp] theorem map_demand_flags (g : Flag → Bool) :
    (flags g).map (demand trusts K) = Flag.all.map fun f => (.flag f, True) := rfl

@[simp] theorem map_demand_signs (s : Source Byte) :
    (signs s).map (demand trusts K) =
      [(.flag .N, s.KnownIn trusts K), (.flag .Z, s.KnownIn trusts K)] := by
  simp [signs]

@[simp] theorem map_demand_put (t : Target) (s : Source Byte) :
    (put t s).map (demand trusts K) =
      match t with
      | .register r => [(.register r, s.KnownIn trusts K)]
      | .memory => [] := by
  cases t <;> rfl

/-- Lists of assignments with the same demands leave the same cells known. -/
theorem knownAfter_congr {as bs : List Assignment}
    (h : as.map (demand trusts K) = bs.map (demand trusts' K)) :
    KnownAfter trusts K as c ↔ KnownAfter trusts' K bs c := by
  induction as generalizing bs with
  | nil =>
    cases bs with
    | nil => exact Iff.rfl
    | cons b bs => cases h
  | cons a as ih =>
    cases bs with
    | nil => cases h
    | cons b bs =>
      obtain ⟨hhead, htail⟩ := List.cons.inj h
      obtain ⟨hcell, hsource⟩ := Prod.mk.inj hhead
      rw [knownAfter_cons, knownAfter_cons, hcell, hsource, ih htail]

theorem KnownAfter.mono {as : List Assignment} (h : KnownAfter trusts K as c) (hKL : K ⊆ L) :
    KnownAfter trusts L as c := by
  unfold KnownAfter at h ⊢
  cases hs : lookup as c with
  | some s =>
    rw [hs] at h
    exact Source.KnownIn.mono h hKL
  | none =>
    rw [hs] at h
    exact hKL h

theorem knownAfter_univ (as : List Assignment) : KnownAfter (fun _ => true) Set.univ as c := by
  unfold KnownAfter
  cases lookup as c with
  | some s => exact s.knownIn_univ
  | none => trivial

end Assignment

/-! ### What an operation makes of the set of the known cells -/

namespace Operation

variable {K L : Set Cell}

/-- Whether the operation computes in binary where the decimal rule allows it. -/
def isArithmetic : Operation → Bool
  | add | subtract => true
  | _ => false

/-- The cells that are known after an operation, given the cells known before it and
whether binary arithmetic is trusted. They are read off the assignments for the default
settings and the byte zero, because those for other settings and bytes give the same. -/
def propagate (trusted : Bool) (op : Operation) (K : Set Cell) : Set Cell :=
  {c | Assignment.KnownAfter (fun _ => trusted) K (op.assignments {} 0) c}

/-- Two assignments of an operation, for whatever settings and bytes, ask for the same cells,
and addition and subtraction ask besides for trust in their rules. -/
theorem knownAfter_assignments {settings settings' : Settings} (operand operand' : Byte)
    {op : Operation} {trusts trusts' : DecimalRule → Bool}
    (h : op.isArithmetic = true → trusts settings.decimal = trusts' settings'.decimal)
    (c : Cell) :
    Assignment.KnownAfter trusts K (op.assignments settings operand) c ↔
      Assignment.KnownAfter trusts' K (op.assignments settings' operand') c := by
  cases op with
  | breakInterrupt =>
    -- The 65C02 has one assignment more, to a flag whose value is given in any case.
    obtain ⟨variant, decimal⟩ := settings
    obtain ⟨variant', decimal'⟩ := settings'
    cases c with
    | register r => cases variant <;> cases variant' <;> cases r <;> exact Iff.rfl
    | flag f => cases variant <;> cases variant' <;> cases f <;> exact Iff.rfl
  | add =>
    refine Assignment.knownAfter_congr ?_
    simp [assignments, Assignment.sum, h rfl]
  | subtract =>
    refine Assignment.knownAfter_congr ?_
    simp [assignments, Assignment.sum, h rfl]
  | shift d t =>
    refine Assignment.knownAfter_congr ?_
    cases t <;> simp [assignments, Assignment.shifted, Assignment.result, Target.source]
  | rotate d t =>
    refine Assignment.knownAfter_congr ?_
    cases t <;> simp [assignments, Assignment.shifted, Assignment.result, Target.sourceWithCarry]
  | increment t =>
    refine Assignment.knownAfter_congr ?_
    cases t <;> simp [assignments, Assignment.result, Target.source]
  | decrement t =>
    refine Assignment.knownAfter_congr ?_
    cases t <;> simp [assignments, Assignment.result, Target.source]
  | transfer source destination =>
    refine Assignment.knownAfter_congr ?_
    by_cases hS : destination = .S <;> simp [assignments, Assignment.result, hS]
  | _ =>
    refine Assignment.knownAfter_congr ?_
    simp [assignments, Assignment.result]

/-- The cells known after an operation follow from those known before. -/
theorem knownCells_effect (settings : Settings) (operand : Byte) (p : Prediction)
    {op : Operation} (h : op.Proper) :
    (op.effect settings operand p).knownCells =
      op.propagate (settings.decimal.trusts p.d) p.knownCells := by
  ext c
  have hassigned : c ∈ op.propagate (settings.decimal.trusts p.d) p.knownCells ↔
      Assignment.KnownAfter (·.trusts p.d) p.knownCells (op.assignments settings operand) c := by
    refine knownAfter_assignments 0 operand ?_ c
    intro _
    rfl
  rw [hassigned]
  show ((op.effect settings operand p).look c).isKnown = true ↔ _
  rw [look_effect settings operand p h]
  unfold Assignment.KnownAfter source
  cases Assignment.lookup (op.assignments settings operand) c with
  | some s => exact s.isKnown_value p
  | none => exact Iff.rfl

/-- The more is known before, the more is known after. -/
theorem propagate_mono (trusted : Bool) (op : Operation) : Monotone (op.propagate trusted) := by
  intro K L hKL c hc
  exact Assignment.KnownAfter.mono hc hKL

/-- The trust in binary arithmetic matters to addition and subtraction only. -/
theorem propagate_congr {trusted trusted' : Bool} {op : Operation}
    (h : op.isArithmetic = true → trusted = trusted') :
    op.propagate trusted = op.propagate trusted' := by
  funext K
  ext c
  exact knownAfter_assignments 0 0 h c

/-- Where everything is known, everything stays known. -/
theorem propagate_univ (op : Operation) : op.propagate true Set.univ = Set.univ := by
  rw [Set.eq_univ_iff_forall]
  intro c
  exact Assignment.knownAfter_univ _

/-- D and I are only ever assigned from the observed byte, so they stay known. -/
theorem flag_mem_propagate (trusted : Bool) (op : Operation) {f : Flag} (hf : f = .D ∨ f = .I)
    (h : Cell.flag f ∈ K) : Cell.flag f ∈ op.propagate trusted K := by
  show Assignment.KnownAfter _ K (op.assignments {} 0) (.flag f)
  cases op with
  | setFlag g value => exact Assignment.KnownAfter.cons trivial h
  | branch g takenWhen => exact Assignment.KnownAfter.cons trivial h
  | pushStatus => rcases hf with rfl | rfl <;> trivial
  | pullStatus => rcases hf with rfl | rfl <;> trivial
  | returnInterrupt => rcases hf with rfl | rfl <;> trivial
  | breakInterrupt => rcases hf with rfl | rfl <;> trivial
  | shift d t => rcases hf with rfl | rfl <;> cases t <;> exact h
  | rotate d t => rcases hf with rfl | rfl <;> cases t <;> exact h
  | increment t => rcases hf with rfl | rfl <;> cases t <;> exact h
  | decrement t => rcases hf with rfl | rfl <;> cases t <;> exact h
  | transfer source destination => rcases hf with rfl | rfl <;> cases destination <;> exact h
  | _ => rcases hf with rfl | rfl <;> exact h

end Operation

/-- Only TXS copies another register into the stack pointer. Every other instruction that
writes the stack pointer moves it by a constant. -/
theorem Instruction.stack_mem_propagate (i : Instruction) (trusted : Bool) (K : Set Cell) :
    Cell.register .S ∈ i.operation.propagate trusted K ↔
      if i.mnemonic = .TXS then Cell.register .X ∈ K else Cell.register .S ∈ K := by
  obtain ⟨mnemonic, mode⟩ := i
  -- Shifts and counts apply to the accumulator or to memory.
  have htarget : ∀ op : Target → Operation,
      (Cell.register .S ∈ (op (.register .A)).propagate trusted K ↔ Cell.register .S ∈ K) →
      (Cell.register .S ∈ (op .memory).propagate trusted K ↔ Cell.register .S ∈ K) →
      (Cell.register .S ∈ (op mode.target).propagate trusted K ↔ Cell.register .S ∈ K) := by
    intro op haccumulator hmemory
    cases mode with
    | accumulator => exact haccumulator
    | _ => exact hmemory
  cases mnemonic with
  | ASL => exact htarget (.shift .left) Iff.rfl Iff.rfl
  | LSR => exact htarget (.shift .right) Iff.rfl Iff.rfl
  | ROL => exact htarget (.rotate .left) Iff.rfl Iff.rfl
  | ROR => exact htarget (.rotate .right) Iff.rfl Iff.rfl
  | INC => exact htarget .increment Iff.rfl Iff.rfl
  | DEC => exact htarget .decrement Iff.rfl Iff.rfl
  | BIT =>
    show Cell.register .S ∈ (if mode = .immediate then Operation.bitTestConstant
      else Operation.bitTest).propagate trusted K ↔ _
    split <;> exact Iff.rfl
  | _ => exact Iff.rfl

end TraceCheck
