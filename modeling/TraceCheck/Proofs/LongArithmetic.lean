import TraceCheck.Proofs.ByteNumbers
import TraceCheck.Proofs.Subtraction

/-!
# `TraceCheck.Proofs.LongArithmetic`: sums and differences of any length in a trace

A program adds two long numbers one byte after the other: it clears the carry, and for each byte
from the lowest up it loads the byte of the first number, adds that of the second and stores the
result (`Call.Columns`). It subtracts in the same way with the carry set. A checker that follows
such a trace is given the bytes of the numbers and the bytes that were stored, and it finds
exactly the wrong ones among the latter (`Checker.long_arithmetic_exact`).

One column is computed by the arithmetic unit from its own bytes and the carry of the column
before, and from nothing else (`Call.Columns.column`): the load replaces whatever the store
before it left in the accumulator, also where that was wrong, and neither of them touches the
carry. A run of columns is therefore the chain of `Byte.chain`, with one judgement for each
store, and what the chain is as numbers is said in `TraceCheck.Proofs.ByteNumbers`.
-/

set_option autoImplicit false

namespace TraceCheck

open Byte

/-- A mnemonic computes with the accumulator, the operand and the carry. -/
inductive Mnemonic.Computes : Mnemonic → (Byte → Byte → Bool → ArithmeticResult) → Prop where
  | sum : Computes .ADC addWithCarry
  | difference : Computes .SBC subtractWithBorrow

theorem Mnemonic.Computes.effect {m : Mnemonic} {unit : Byte → Byte → Bool → ArithmeticResult}
    (h : m.Computes unit) (mode : Mode) (settings : Settings) (operand : Byte) (p : Prediction) :
    (Instruction.mk m mode).operation.effect settings operand p =
      p.setArithmetic (Knowledge.map₂ (fun a c => unit a operand c)
        (p.binaryAccumulator settings.decimal) p.c) := by
  cases h <;> rfl

theorem Mnemonic.Computes.evidence {m : Mnemonic} {unit : Byte → Byte → Bool → ArithmeticResult}
    (h : m.Computes unit) (mode : Mode) (operand : Byte) :
    (Instruction.mk m mode).operation.evidence operand = [] := by
  cases h <;> rfl

namespace Call

/-- The calls for the columns of a long sum or difference, lowest byte first: the byte of the
first number is loaded, that of the second is added to it or subtracted from it, and a byte is
stored. -/
inductive Columns (m : Mnemonic) :
    List Byte → List Byte → List Byte → List Call → Prop where
  | nil : Columns m [] [] [] []
  | cons {a b s : Byte} {as bs ss : List Byte} {load compute store : Call} {ks : List Call}
      (hload : load.Reports .LDA a) (hcompute : compute.Reports m b)
      (hstore : store.Reports .STA s) (rest : Columns m as bs ss ks) :
      Columns m (a :: as) (b :: bs) (s :: ss) (load :: compute :: store :: ks)

theorem Columns.length_eq {m : Mnemonic} {as bs ss : List Byte} {ks : List Call}
    (h : Columns m as bs ss ks) : as.length = bs.length := by
  induction h with
  | nil => rfl
  | cons hload hcompute hstore rest ih => rw [List.length_cons, List.length_cons, ih]

end Call

/-- The judgement of a stored byte: a mismatch if it is not the predicted one. -/
def judge (predicted stored : Byte) : List Mismatch :=
  if predicted = stored then [] else [⟨.register .A, predicted, stored⟩]

/-- A store of the accumulator is judged by what is known of it. -/
theorem mismatches_store {p : Prediction} {v : Byte} (h : p.a = .known v) (s : Byte) :
    p.mismatches ((Operation.store .A).evidence s) = judge v s :=
  Cells.mismatches_singleton (e := ⟨.register .A, s⟩) h

/-- The mismatches of the calls of all columns. Only the last call of a column, which stores,
can raise one. -/
def judgements (predicted stored : List Byte) : List (List Mismatch) :=
  (List.zipWith judge predicted stored).flatMap fun ms => [[], [], ms]

theorem judgements_cons (v s : Byte) (vs ss : List Byte) :
    judgements (v :: vs) (s :: ss) = [[], [], judge v s] ++ judgements vs ss := rfl

namespace Checker

variable {c : Checker} {m : Mnemonic} {unit : Byte → Byte → Bool → ArithmeticResult}

/-! ### One column -/

/-- A store is judged by what was computed between the load and the store. -/
theorem outcomes_column {a v s : Byte} {load compute store : Call} (hload : load.Reports .LDA a)
    (hstore : store.Reports .STA s)
    (hcomputed : (c.after [load, compute]).state.cells.a = .known v)
    (hsilent : ((c.call load).checker.call compute).mismatches = []) :
    (c.outcomes [load, compute, store]).map (·.mismatches) = [[], [], judge v s] := by
  obtain ⟨mode, hnone⟩ := hload.mismatches c
  obtain ⟨mode', hjudged⟩ := hstore.mismatches (c.after [load, compute])
  have hstored : ((c.after [load, compute]).call store).mismatches = judge v s := by
    rw [hjudged]
    exact mismatches_store hcomputed s
  show [(c.call load).mismatches, ((c.call load).checker.call compute).mismatches,
    ((c.after [load, compute]).call store).mismatches] = _
  rw [hnone, hsilent, hstored]
  rfl

/-- What a checker knows and has logged after a column with a result. -/
structure ColumnDone (c d : Checker) (r : ArithmeticResult) : Prop where
  settings : d.settings = c.settings
  decimal : d.state.cells.d = c.state.cells.d
  carry : d.state.cells.c = .known r.carry
  overflow : d.state.cells.v = .known r.overflow
  negative : d.state.cells.n = .known r.value.msb

/-- A column ends with the flags of its result, and it is judged by its result. -/
theorem column (hm : m.Computes unit) {a b s : Byte} {carry : Bool} {load compute store : Call}
    (hload : load.Reports .LDA a) (hcompute : compute.Reports m b)
    (hstore : store.Reports .STA s)
    (htrust : c.settings.decimal.trusts c.state.cells.d = true)
    (hcarry : c.state.cells.c = .known carry) :
    c.ColumnDone (c.after [load, compute, store]) (unit a b carry) ∧
      (c.outcomes [load, compute, store]).map (·.mismatches) =
        [[], [], judge (unit a b carry).value s] := by
  let loaded := (c.call load).checker
  let computed := (loaded.call compute).checker
  obtain ⟨mode, hloaded⟩ := hload.cells c
  obtain ⟨mode', hcomputed⟩ := hcompute.cells loaded
  obtain ⟨mode'', hstored⟩ := hstore.cells computed
  have hresult : computed.state.cells =
      loaded.state.cells.setArithmetic (.known (unit a b carry)) := by
    rw [hm.effect, settings_call, show loaded.state.cells = _ from hloaded] at hcomputed
    rw [show computed.state.cells = _ from hcomputed, show loaded.state.cells = _ from hloaded]
    -- The load has changed neither the carry nor the decimal flag.
    show Cells.setArithmetic _ (Knowledge.map₂ _
      (if c.settings.decimal.trusts c.state.cells.d then .known a else .unknown)
      c.state.cells.c) = _
    rw [if_pos htrust, hcarry]
    rfl
  have hafter : (c.after [load, compute, store]).state.cells =
      (loaded.state.cells.setArithmetic (.known (unit a b carry))).setRegister .A (.known s) := by
    rw [← hresult]
    exact hstored
  constructor
  · refine ⟨settings_after c _, ?_, ?_, ?_, ?_⟩
    · rw [hafter, show loaded.state.cells = _ from hloaded]
      rfl
    · rw [hafter]
      rfl
    · rw [hafter]
      rfl
    · rw [hafter]
      rfl
  · obtain ⟨mode₁, hsilent⟩ := hcompute.mismatches loaded
    rw [hm.evidence, Cells.mismatches_nil] at hsilent
    refine outcomes_column hload hstore ?_ hsilent
    show computed.state.cells.a = _
    rw [hresult]
    rfl

/-! ### All columns -/

/-- The flags after columns with results are those of the last one, and those from before where
there is no column. -/
structure ColumnsDone (c d : Checker) (rs : List ArithmeticResult) : Prop where
  carry : d.state.cells.c = lastOf (fun r => .known r.carry) c.state.cells.c rs
  overflow : d.state.cells.v = lastOf (fun r => .known r.overflow) c.state.cells.v rs
  negative : d.state.cells.n = lastOf (fun r => .known r.value.msb) c.state.cells.n rs

/-- The columns compute the chain and are judged by it. -/
theorem columns (hm : m.Computes unit) {as bs ss : List Byte} {ks : List Call}
    (hks : Call.Columns m as bs ss ks)
    (htrust : c.settings.decimal.trusts c.state.cells.d = true) {carry : Bool}
    (hcarry : c.state.cells.c = .known carry) :
    c.ColumnsDone (c.after ks) (chain unit as bs carry) ∧
      (c.outcomes ks).map (·.mismatches) =
        judgements ((chain unit as bs carry).map ArithmeticResult.value) ss := by
  induction hks generalizing c carry with
  | nil => exact ⟨⟨rfl, rfl, rfl⟩, rfl⟩
  | @cons a b s as bs ss load compute store ks hload hcompute hstore rest ih =>
    obtain ⟨hdone, hjudged⟩ := column hm hload hcompute hstore htrust hcarry
    have htrust' : (c.after [load, compute, store]).settings.decimal.trusts
        (c.after [load, compute, store]).state.cells.d = true := by
      rw [hdone.settings, hdone.decimal]
      exact htrust
    obtain ⟨hrest, hjudged'⟩ := ih htrust' hdone.carry
    constructor
    · refine ⟨?_, ?_, ?_⟩
      · rw [chain, lastOf_cons, ← hdone.carry]
        exact hrest.carry
      · rw [chain, lastOf_cons, ← hdone.overflow]
        exact hrest.overflow
      · rw [chain, lastOf_cons, ← hdone.negative]
        exact hrest.negative
    · show (c.outcomes ([load, compute, store] ++ ks)).map (·.mismatches) = _
      rw [outcomes_append, List.map_append, hjudged, hjudged', chain, List.map_cons,
        judgements_cons]

/-- How a checker judges a long addition. -/
structure SumJudged (c : Checker) (ks : List Call) (as bs ss : List Byte) : Prop where
  /-- The first call raises no mismatch, and a store raises one just when the byte is not the
  digit of the sum at its place. -/
  mismatches : (c.outcomes ks).map (·.mismatches) =
    [] :: judgements (digits as.length (number as + number bs)) ss
  /-- C tells whether the sum has a digit more. -/
  carry : (c.after ks).state.cells.c =
    .known (decide (256 ^ as.length ≤ number as + number bs))
  /-- V tells whether the sum in two's complement does not fit. -/
  overflow : as ≠ [] → (c.after ks).state.cells.v =
    .known (decide (¬ Fits as.length (signed as + signed bs)))

/-- How a checker judges a long subtraction. -/
structure DifferenceJudged (c : Checker) (ks : List Call) (as bs ss : List Byte) : Prop where
  /-- The first call raises no mismatch, and a store raises one just when the byte is not the
  digit of the difference at its place, modulo a power of 256. -/
  mismatches : (c.outcomes ks).map (·.mismatches) =
    [] :: judgements
      (digits as.length (((number as : Int) - number bs) % 256 ^ as.length).toNat) ss
  /-- C tells whether the first number is at least the second. -/
  carry : (c.after ks).state.cells.c = .known (decide (number bs ≤ number as))
  /-- V tells whether the difference in two's complement does not fit. -/
  overflow : as ≠ [] → (c.after ks).state.cells.v =
    .known (decide (¬ Fits as.length (signed as - signed bs)))
  /-- N and V together tell whether the first number is smaller in two's complement. -/
  sign : as ≠ [] → ∃ n v, (c.after ks).state.cells.n = .known n ∧
    (c.after ks).state.cells.v = .known v ∧ (n ^^ v) = decide (signed as < signed bs)

/-- All columns behind an instruction that sets or clears the carry. -/
theorem columns_after_setFlag (hm : m.Computes unit) {as bs ss : List Byte} {start : Call}
    {ks : List Call} {mnemonic : Mnemonic} {ignored : Byte} {carry : Bool}
    (hset : ∀ mode, (Instruction.mk mnemonic mode).operation = .setFlag .C carry)
    (hstart : start.Reports mnemonic ignored) (hks : Call.Columns m as bs ss ks)
    (htrust : c.settings.decimal = .assumeBinary ∨ c.state.cells.d = .known false) :
    (c.call start).checker.ColumnsDone (c.after (start :: ks)) (chain unit as bs carry) ∧
      (c.call start).checker.state.cells.c = .known carry ∧
      (c.outcomes (start :: ks)).map (·.mismatches) =
        [] :: judgements ((chain unit as bs carry).map ArithmeticResult.value) ss := by
  obtain ⟨mode, hcells⟩ := hstart.cells c
  obtain ⟨mode', hnone⟩ := hstart.mismatches c
  rw [hset] at hcells hnone
  have hcarry : (c.call start).checker.state.cells.c = .known carry := by
    rw [hcells]
    rfl
  have htrust' : (c.call start).checker.settings.decimal.trusts
      (c.call start).checker.state.cells.d = true := by
    rw [settings_call, hcells]
    exact DecimalRule.trusts_iff.mpr htrust
  obtain ⟨hdone, hjudged⟩ := columns hm hks htrust' hcarry
  refine ⟨hdone, hcarry, ?_⟩
  show (c.call start).mismatches :: ((c.call start).checker.outcomes ks).map (·.mismatches) = _
  rw [hnone, hjudged]
  rfl

theorem sumJudged {as bs ss : List Byte} {start : Call} {ks : List Call} {ignored : Byte}
    (hstart : start.Reports .CLC ignored) (hks : Call.Columns .ADC as bs ss ks)
    (htrust : c.settings.decimal = .assumeBinary ∨ c.state.cells.d = .known false) :
    c.SumJudged (start :: ks) as bs ss := by
  have hlength := hks.length_eq
  obtain ⟨hdone, hcarry, hjudged⟩ :=
    columns_after_setFlag .sum (fun _ => rfl) hstart hks htrust
  refine ⟨?_, ?_, fun hne => ?_⟩
  · rw [hjudged, map_value_chain_add hlength]
    rfl
  · rw [hdone.carry, hcarry, lastOf_map, carry_chain_add hlength]
    rfl
  · obtain ⟨init, last, hchain, hoverflow, -⟩ := exists_last_chain_add hlength hne false
    rw [hdone.overflow, hchain, lastOf_concat, hoverflow]
    simp only [Bool.toNat_false, Int.natCast_zero, Int.add_zero]

theorem differenceJudged {as bs ss : List Byte} {start : Call} {ks : List Call} {ignored : Byte}
    (hstart : start.Reports .SEC ignored) (hks : Call.Columns .SBC as bs ss ks)
    (htrust : c.settings.decimal = .assumeBinary ∨ c.state.cells.d = .known false) :
    c.DifferenceJudged (start :: ks) as bs ss := by
  have hlength := hks.length_eq
  obtain ⟨hdone, hcarry, hjudged⟩ :=
    columns_after_setFlag .difference (fun _ => rfl) hstart hks htrust
  refine ⟨?_, ?_, fun hne => ?_, fun hne => ?_⟩
  · rw [hjudged, map_value_chain_subtract hlength]
  · rw [hdone.carry, hcarry, lastOf_map, carry_chain_subtract hlength]
  · obtain ⟨init, last, hchain, hoverflow, -⟩ := exists_last_chain_subtract hlength hne
    rw [hdone.overflow, hchain, lastOf_concat, hoverflow]
  · obtain ⟨init, last, hchain, -, hsign⟩ := exists_last_chain_subtract hlength hne
    refine ⟨last.value.msb, last.overflow, ?_, ?_, ?_⟩
    · rw [hdone.negative, hchain, lastOf_concat]
    · rw [hdone.overflow, hchain, lastOf_concat]
    · exact hsign

/-- In the trace of a long addition or subtraction, whatever was known before it and however
long it is, a checker with binary sums finds a mismatch at the bytes that were stored wrongly
and at no others. The flags afterwards are those of the whole numbers. -/
theorem long_arithmetic_exact (c : Checker)
    (htrust : c.settings.decimal = .assumeBinary ∨ c.state.cells.d = .known false)
    (as bs ss : List Byte) (start : Call) (ignored : Byte) (ks : List Call) :
    (start.Reports .CLC ignored → Call.Columns .ADC as bs ss ks →
        c.SumJudged (start :: ks) as bs ss) ∧
      (start.Reports .SEC ignored → Call.Columns .SBC as bs ss ks →
        c.DifferenceJudged (start :: ks) as bs ss) :=
  ⟨fun hstart hks => sumJudged hstart hks htrust,
    fun hstart hks => differenceJudged hstart hks htrust⟩

/-- Two negative numbers of two bytes are added under the cautious rule, and the low byte of the
sum is stored wrongly. Then a byte is subtracted from the lowest number of two bytes. Both results
have the wrong sign. -/
theorem long_arithmetic_exact_two_bytes :
    let c := (fresh { decimal := .unknownWhenDecimal }).after [.dispatch 0xD8 0x00]
    let sum : List Call := [.dispatch 0x18 0x00,
      .dispatch 0xA5 0xFF, .dispatch 0x6D 0x02, .dispatch 0x85 0x07,
      .observe 0xB5 (.data 0x80), .observe 0x7D (.data 0x80), .observe 0x95 (.data 0x01)]
    let difference : List Call := [.dispatch 0x38 0x00,
      .dispatch 0xA9 0x00, .dispatch 0xE9 0x01, .dispatch 0x8D 0xFF,
      .dispatch 0xA1 0x80, .dispatch 0xF2 0x00, .dispatch 0x92 0x7F]
    ((c.outcomes sum).map (·.mismatches) =
        [[], [], [], [⟨.register .A, 0x01, 0x07⟩], [], [], []] ∧
      (c.after sum).state.cells.c = .known true ∧ (c.after sum).state.cells.v = .known true) ∧
    (c.outcomes difference).map (·.mismatches) = [[], [], [], [], [], [], []] ∧
      (c.after difference).state.cells.c = .known true ∧
      ∃ n v, (c.after difference).state.cells.n = .known n ∧
        (c.after difference).state.cells.v = .known v ∧ (n ^^ v) = true := by
  intro c sum difference
  have hclear : c.settings.decimal = .assumeBinary ∨ c.state.cells.d = .known false :=
    Or.inr (by decide)
  have hadded : Call.Columns .ADC [0xFF, 0x80] [0x02, 0x80] [0x07, 0x01] sum.tail :=
    .cons ⟨0xA5, rfl, by decide⟩ ⟨0x6D, rfl, by decide⟩ ⟨0x85, rfl, by decide⟩
      (.cons ⟨0xB5, rfl, by decide⟩ ⟨0x7D, rfl, by decide⟩ ⟨0x95, rfl, by decide⟩ .nil)
  have hsubtracted : Call.Columns .SBC [0x00, 0x80] [0x01, 0x00] [0xFF, 0x7F] difference.tail :=
    .cons ⟨0xA9, rfl, by decide⟩ ⟨0xE9, rfl, by decide⟩ ⟨0x8D, rfl, by decide⟩
      (.cons ⟨0xA1, rfl, by decide⟩ ⟨0xF2, rfl, by decide⟩ ⟨0x92, rfl, by decide⟩ .nil)
  have hsum := (long_arithmetic_exact c hclear _ _ _ (.dispatch 0x18 0x00) 0x00 _).1
    ⟨0x18, rfl, by decide⟩ hadded
  have hdifference := (long_arithmetic_exact c hclear _ _ _ (.dispatch 0x38 0x00) 0x00 _).2
    ⟨0x38, rfl, by decide⟩ hsubtracted
  refine ⟨⟨hsum.mismatches.trans (by decide), hsum.carry.trans (by decide),
    (hsum.overflow (by decide)).trans (by decide)⟩, hdifference.mismatches.trans (by decide),
    hdifference.carry.trans (by decide), ?_⟩
  exact hdifference.sign (by decide)

end Checker

end TraceCheck
