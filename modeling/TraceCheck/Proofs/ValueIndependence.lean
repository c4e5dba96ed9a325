import Mathlib.Data.List.Forall2
import TraceCheck.Proofs.KnownCells

/-!
# `TraceCheck.Proofs.ValueIndependence`: what is known does not depend on values

After any trace it is fixed which cells are known, before a single byte of the trace has
been observed: the opcodes, the interrupts and the resets decide it alone. Two checkers that
know the same cells go on knowing the same cells on two traces that differ in all their
bytes, and it makes no difference whether these bytes raise mismatches.

`knownCells_call` is the reason. A call moves the set of the known cells by the function of
the operation that it reports, and calls that report the same move it by the same function
(`Call.Alike.propagate_eq`). Two runs in step are therefore one composition of functions
applied to two sets (`Checker.InStep.exists_transfer`), and since the functions are monotone
whoever knows more at the start knows more at the end.

Under the cautious decimal rule the functions of additions and subtractions depend on what is
known of the decimal flag, so there the two checkers have to agree about that flag.
`Checker.InStep` says so.
-/

set_option autoImplicit false

namespace TraceCheck

/-! ### Calls -/

/-- The opcode of the activity, if it is an instruction. -/
def Activity.opcode? : Activity → Option Byte
  | instruction opcode _ => some opcode
  | interrupt _ => none

theorem Activity.operation_eq_of_opcode? {a b : Activity} (h : a.opcode? = b.opcode?) :
    a.operation = b.operation := by
  cases a with
  | instruction opcode operand =>
    cases b with
    | instruction opcode' operand' =>
      obtain rfl : opcode = opcode' := Option.some.inj h
      rfl
    | interrupt status => cases h
  | interrupt status =>
    cases b with
    | instruction opcode' operand' => cases h
    | interrupt status' => rfl

namespace Call

/-- Two calls report the same opcode, or both an interrupt, or both are resets, or neither
is any of these. The bytes may differ. -/
def Alike (k l : Call) : Prop :=
  k.activity.map Activity.opcode? = l.activity.map Activity.opcode? ∧ (k = .reset ↔ l = .reset)

/-- Whether the call reports an addition or a subtraction. -/
def isArithmetic (k : Call) : Bool := k.activity.any (·.operation.isArithmetic)

/-- The call is a TXS. -/
def IsTXS (k : Call) : Prop :=
  ∃ opcode operand, k.activity = some (.instruction opcode operand) ∧
    (Instruction.decode opcode).mnemonic = .TXS

/-- The cells that are known after a call. -/
def propagate (trusted : Bool) (k : Call) (K : Set Cell) : Set Cell :=
  match k.activity with
  | some a => a.operation.propagate trusted K
  | none => if k = .reset then ∅ else K

/-- Calls that are alike do the same to the set of the known cells. -/
theorem Alike.propagate_eq {k l : Call} (h : k.Alike l) (trusted : Bool) :
    k.propagate trusted = l.propagate trusted := by
  obtain ⟨hopcode, hreset⟩ := h
  funext K
  unfold propagate
  cases hk : k.activity with
  | some a =>
    cases hl : l.activity with
    | some b =>
      rw [hk, hl] at hopcode
      show a.operation.propagate trusted K = b.operation.propagate trusted K
      rw [Activity.operation_eq_of_opcode? (Option.some.inj hopcode)]
    | none =>
      rw [hk, hl] at hopcode
      cases hopcode
  | none =>
    cases hl : l.activity with
    | some b =>
      rw [hk, hl] at hopcode
      cases hopcode
    | none => simp only [hreset]

theorem propagate_mono (trusted : Bool) (k : Call) : Monotone (k.propagate trusted) := by
  intro K L hKL
  unfold propagate
  cases k.activity with
  | some a => exact a.operation.propagate_mono trusted hKL
  | none =>
    show (if k = .reset then ∅ else K) ⊆ (if k = .reset then ∅ else L)
    split
    · exact subset_rfl
    · exact hKL

/-- Trust in binary arithmetic matters to additions and subtractions only. -/
theorem propagate_congr {trusted trusted' : Bool} {k : Call}
    (h : k.isArithmetic = true → trusted = trusted') :
    k.propagate trusted = k.propagate trusted' := by
  funext K
  unfold propagate
  unfold isArithmetic at h
  cases hk : k.activity with
  | some a =>
    rw [hk] at h
    exact congrFun (Operation.propagate_congr h) K
  | none => rfl

theorem propagate_univ {k : Call} (h : k ≠ .reset) :
    k.propagate true Set.univ = Set.univ := by
  unfold propagate
  cases k.activity with
  | some a => exact a.operation.propagate_univ
  | none => exact if_neg h

theorem flag_mem_propagate (trusted : Bool) {k : Call} (hk : k ≠ .reset) {f : Flag}
    (hf : f = .D ∨ f = .I) {K : Set Cell} (h : Cell.flag f ∈ K) :
    Cell.flag f ∈ k.propagate trusted K := by
  unfold propagate
  cases k.activity with
  | some a => exact a.operation.flag_mem_propagate trusted hf h
  | none =>
    show Cell.flag f ∈ if k = .reset then ∅ else K
    rw [if_neg hk]
    exact h

/-- A known stack pointer is lost in two ways. -/
theorem stack_notMem_propagate_iff (trusted : Bool) (k : Call) {K : Set Cell}
    (h : Cell.register .S ∈ K) :
    Cell.register .S ∉ k.propagate trusted K ↔
      k = .reset ∨ k.IsTXS ∧ Cell.register .X ∉ K := by
  unfold propagate IsTXS
  cases hk : k.activity with
  | some a =>
    have hreset := ne_reset_of_active hk
    cases a with
    | instruction opcode operand =>
      show Cell.register .S ∉ (Instruction.decode opcode).operation.propagate trusted K ↔ _
      rw [Instruction.stack_mem_propagate]
      by_cases hTXS : (Instruction.decode opcode).mnemonic = .TXS
      · simp [hTXS, hreset]
      · simp [hTXS, hreset, h]
    | interrupt status =>
      have hkept : Cell.register .S ∈ Operation.breakInterrupt.propagate trusted K := h
      simp [Activity.operation, hkept, hreset]
  | none =>
    show Cell.register .S ∉ (if k = .reset then ∅ else K) ↔ _
    by_cases hreset : k = .reset
    · simp [hreset]
    · simp [hreset, h]

end Call

/-! ### Runs -/

namespace Checker

/-- The cells whose value a checker knows. -/
def knownCells (c : Checker) : Set Cell := c.state.cells.knownCells

/-- Whether a checker computes sums in binary as things stand. -/
def trustsBinary (c : Checker) : Bool := c.settings.decimal.trusts c.state.cells.d

/-- The cells known after a call follow from those known before, and from the decimal flag
where the rule asks for it. -/
theorem knownCells_call (c : Checker) (k : Call) :
    (c.call k).checker.knownCells = k.propagate c.trustsBinary c.knownCells := by
  unfold knownCells Call.propagate
  rw [cells_call]
  cases k.activity with
  | some a =>
    exact Operation.knownCells_effect c.settings a.operand c.state.cells a.proper_operation
  | none =>
    by_cases hreset : k = .reset
    · simp only [if_pos hreset]
      exact Cells.knownCells_blank
    · simp only [if_neg hreset]

theorem trustsBinary_of_assumeBinary {c : Checker} (h : c.settings.decimal = .assumeBinary) :
    c.trustsBinary = true := by
  unfold trustsBinary
  rw [h]
  rfl

/-- Two checkers are told of the same opcodes, interrupts and resets in the same places.
The bytes observed may differ, and so may the processor families. Under the cautious
decimal rule the two know the same of the decimal flag before each addition and
subtraction. -/
structure InStep (c₁ c₂ : Checker) (ks ls : List Call) : Prop where
  alike : List.Forall₂ Call.Alike ks ls
  rule : c₁.settings.decimal = c₂.settings.decimal
  decimal : c₁.settings.decimal = .unknownWhenDecimal →
    ∀ n k, ks[n]? = some k → k.isArithmetic = true →
      (c₁.after (ks.take n)).state.cells.d = (c₂.after (ls.take n)).state.cells.d

namespace InStep

variable {c₁ c₂ : Checker} {k l : Call} {ks ls : List Call}

/-- The first call makes the same of either set of known cells. -/
theorem propagate_eq (h : InStep c₁ c₂ (k :: ks) (l :: ls)) :
    l.propagate c₂.trustsBinary = k.propagate c₁.trustsBinary := by
  obtain ⟨hkl, -⟩ := List.forall₂_cons.mp h.alike
  rw [← hkl.propagate_eq]
  refine Call.propagate_congr fun harithmetic => ?_
  unfold trustsBinary
  rw [← h.rule]
  cases hrule : c₁.settings.decimal with
  | assumeBinary => rfl
  | unknownWhenDecimal =>
    have hd : c₁.state.cells.d = c₂.state.cells.d := h.decimal hrule 0 k rfl harithmetic
    rw [hd]

theorem tail (h : InStep c₁ c₂ (k :: ks) (l :: ls)) :
    InStep (c₁.call k).checker (c₂.call l).checker ks ls := by
  obtain ⟨-, hks⟩ := List.forall₂_cons.mp h.alike
  refine ⟨hks, ?_, fun hrule n j hj hreads => ?_⟩
  · rw [settings_call, settings_call]
    exact h.rule
  · rw [settings_call] at hrule
    exact h.decimal hrule (n + 1) j hj hreads

/-- After each call the known cells of both checkers come from those at the start by one
monotone function. -/
theorem exists_transfer (h : InStep c₁ c₂ ks ls) (n : Nat) :
    ∃ F : Set Cell → Set Cell, Monotone F ∧
      (c₁.after (ks.take n)).knownCells = F c₁.knownCells ∧
      (c₂.after (ls.take n)).knownCells = F c₂.knownCells := by
  induction ks generalizing c₁ c₂ ls n with
  | nil =>
    obtain rfl := List.forall₂_nil_left_iff.mp h.alike
    rw [List.take_nil]
    exact ⟨id, monotone_id, rfl, rfl⟩
  | cons k ks ih =>
    obtain ⟨l, ls, -, -, rfl⟩ := List.forall₂_cons_left_iff.mp h.alike
    cases n with
    | zero => exact ⟨id, monotone_id, rfl, rfl⟩
    | succ n =>
      obtain ⟨F, hF, h₁, h₂⟩ := ih h.tail n
      rw [knownCells_call] at h₁ h₂
      rw [h.propagate_eq] at h₂
      exact ⟨F ∘ k.propagate c₁.trustsBinary, hF.comp (k.propagate_mono _), h₁, h₂⟩

end InStep

/-! ### What stays known -/

/-- Where every call but a reset keeps a property, a run without a reset keeps it. -/
theorem after_of_not_reset {P : Checker → Prop}
    (hcall : ∀ c k, k ≠ .reset → P c → P (c.call k).checker) (c : Checker) (ks : List Call)
    (hks : .reset ∉ ks) (h : P c) : P (c.after ks) := by
  induction ks generalizing c with
  | nil => exact h
  | cons k ks ih =>
    rw [List.mem_cons, not_or] at hks
    obtain ⟨hk, hks⟩ := hks
    exact ih (c.call k).checker hks (hcall c k (Ne.symm hk) h)

/-- Once all cells are known they stay known until a reset, whatever is observed and whether
or not it contradicts them. -/
theorem knownCells_after_eq_univ {c : Checker} (hrule : c.settings.decimal = .assumeBinary)
    (h : c.knownCells = Set.univ) {ks : List Call} (hks : .reset ∉ ks) :
    (c.after ks).knownCells = Set.univ := by
  refine (after_of_not_reset
    (P := fun c => c.settings.decimal = .assumeBinary ∧ c.knownCells = Set.univ)
    ?_ c ks hks ⟨hrule, h⟩).2
  intro c k hk hc
  obtain ⟨hrule, h⟩ := hc
  rw [settings_call, knownCells_call, trustsBinary_of_assumeBinary hrule, h]
  exact ⟨hrule, Call.propagate_univ hk⟩

theorem flag_mem_knownCells_after {c : Checker} {f : Flag} (hf : f = .D ∨ f = .I)
    (h : Cell.flag f ∈ c.knownCells) {ks : List Call} (hks : .reset ∉ ks) :
    Cell.flag f ∈ (c.after ks).knownCells := by
  refine after_of_not_reset (P := fun c => Cell.flag f ∈ c.knownCells) ?_ c ks hks h
  intro c k hk h
  rw [knownCells_call]
  exact Call.flag_mem_propagate _ hk hf h

/-- How the set of the known cells moves from one checker on. -/
structure KnownCellsFlow (c : Checker) : Prop where
  /-- Where sums are taken to be binary, a call moves the set by its own function. -/
  transfer : c.settings.decimal = .assumeBinary →
    ∀ k, (c.call k).checker.knownCells = k.propagate true c.knownCells
  /-- Once all cells are known they stay known until a reset, even where what is observed
  contradicts them. -/
  full : c.settings.decimal = .assumeBinary → c.knownCells = Set.univ →
    ∀ ks, .reset ∉ ks → (c.after ks).knownCells = Set.univ
  /-- D and I, once known, are forgotten by a reset only, under either decimal rule. -/
  kept : ∀ f, f = .D ∨ f = .I → Cell.flag f ∈ c.knownCells →
    ∀ ks, .reset ∉ ks → Cell.flag f ∈ (c.after ks).knownCells
  /-- A known stack pointer is lost by a reset and by a TXS of an unknown X, under either
  decimal rule and in no other way. -/
  stack : Cell.register .S ∈ c.knownCells → ∀ k,
    (Cell.register .S ∉ (c.call k).checker.knownCells ↔
      k = .reset ∨ k.IsTXS ∧ Cell.register .X ∉ c.knownCells)

theorem knownCellsFlow (c : Checker) : c.KnownCellsFlow where
  transfer hrule k := by
    rw [knownCells_call, trustsBinary_of_assumeBinary hrule]
  full hrule h _ hks := knownCells_after_eq_univ hrule h hks
  kept _ hf h _ hks := flag_mem_knownCells_after hf h hks
  stack h k := by
    rw [knownCells_call]
    exact Call.stack_notMem_propagate_iff _ k h

/-- Which cells are known depends on the opcodes, the interrupts and the resets alone. Two
checkers that know the same cells know the same cells after each call of two traces that
differ in all their bytes, and a checker that knows more cells goes on knowing more. What a
call does to the set of the known cells is a monotone function that keeps the full set. -/
theorem known_cells_value_independent :
    (∀ c₁ c₂ ks ls, InStep c₁ c₂ ks ls → ∀ n,
      (c₁.knownCells = c₂.knownCells →
        (c₁.after (ks.take n)).knownCells = (c₂.after (ls.take n)).knownCells) ∧
      (c₁.knownCells ⊆ c₂.knownCells →
        (c₁.after (ks.take n)).knownCells ⊆ (c₂.after (ls.take n)).knownCells)) ∧
    (∀ k : Call, Monotone (k.propagate true) ∧
      (k ≠ .reset → k.propagate true Set.univ = Set.univ)) ∧
    ∀ c : Checker, c.KnownCellsFlow := by
  refine ⟨fun c₁ c₂ ks ls h n => ?_, fun k => ⟨k.propagate_mono true, Call.propagate_univ⟩,
    knownCellsFlow⟩
  obtain ⟨F, hF, h₁, h₂⟩ := h.exists_transfer n
  rw [h₁, h₂]
  exact ⟨congrArg F, fun hK => hF hK⟩

/-- A 65C02 and an NMOS 6502 on two sums of other numbers, with one interrupt after them that
leaves the decimal flags apart. Under the cautious decimal rule both know the sum, because
both know that the decimal flag is clear. -/
theorem known_cells_of_two_sums :
    let c₁ := fresh { variant := .cmos, decimal := .unknownWhenDecimal }
    let c₂ := fresh { variant := .nmos, decimal := .unknownWhenDecimal }
    let ks : List Call := [.dispatch 0xA9 0x14, .dispatch 0x18 0x00, .dispatch 0xD8 0x00,
      .dispatch 0x69 0x22, .interrupt 0xFF]
    let ls : List Call := [.dispatch 0xA9 0xF0, .dispatch 0x18 0x7E, .dispatch 0xD8 0x01,
      .dispatch 0x69 0x9B, .interrupt 0x08]
    InStep c₁ c₂ ks ls ∧ c₁.knownCells = c₂.knownCells ∧
      (∀ n, (c₁.after (ks.take n)).knownCells = (c₂.after (ls.take n)).knownCells) ∧
      Cell.register .A ∈ (c₁.after ks).knownCells ∧
      (c₁.after ks).state.cells.d ≠ (c₂.after ls).state.cells.d := by
  intro c₁ c₂ ks ls
  have halike : List.Forall₂ Call.Alike ks ls := by
    have step : ∀ opcode operand operand',
        Call.Alike (.dispatch opcode operand) (.dispatch opcode operand') := by
      intro opcode operand operand'
      exact ⟨rfl, iff_of_false Call.noConfusion Call.noConfusion⟩
    exact .cons (step _ _ _) (.cons (step _ _ _) (.cons (step _ _ _) (.cons (step _ _ _)
      (.cons ⟨rfl, by decide⟩ .nil))))
  have hsteps : InStep c₁ c₂ ks ls := by
    refine ⟨halike, rfl, ?_⟩
    intro _ n k hk hsum
    -- The sum is the only call that asks for the decimal flag.
    match n with
    | 0 => cases hk; cases hsum
    | 1 => cases hk; cases hsum
    | 2 => cases hk; cases hsum
    | 3 => rfl
    | 4 => cases hk; cases hsum
    | n + 5 => cases hk
  refine ⟨hsteps, rfl, ?_, rfl, by decide⟩
  intro n
  exact (known_cells_value_independent.1 c₁ c₂ ks ls hsteps n).1 rfl

end Checker

end TraceCheck
