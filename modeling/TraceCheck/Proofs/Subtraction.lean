import TraceCheck.Proofs.Detection

/-!
# `TraceCheck.Proofs.Subtraction`: subtraction, addition and comparison

The arithmetic unit subtracts by itself: it takes an exact difference and looks at its sign,
and nothing is shared with the addition. A comparison goes a third way, with the order of bytes
and a difference that wraps. This module says that the three agree.

* A subtraction is the addition of the complement, in all that is known afterwards. On bytes
  this is `Byte.subtractWithBorrow_eq`.
* With the carry set a subtraction is a comparison that keeps its result
  (`Cells.flags_compare_eq`).
* What a branch tests after a comparison is the order of the two numbers as unsigned numbers.
  `OrderTest` names the four branches that ask about it. The outcome that each must have is
  `OrderTest.holds`, and an outcome raises a mismatch just when it is another one, also after
  other such branches whose outcomes were wrong: a branch leaves a known flag alone
  (`Cells.flag_effect_of_branch`).
-/

set_option autoImplicit false

namespace TraceCheck

/-! ### Cells -/

/-- Whether a rule trusts binary arithmetic, said in words. -/
theorem DecimalRule.trusts_iff {rule : DecimalRule} {d : Knowledge Bool} :
    rule.trusts d = true ↔ rule = .assumeBinary ∨ d = .known false := by
  cases rule <;> simp [trusts]

namespace Cells

variable {p : Prediction} {settings : Settings}

/-- A sum is known just when the accumulator and the carry are known and the rule allows it. -/
theorem sum_eq_known_iff {g : Byte → Bool → ArithmeticResult} {rule : DecimalRule} {v : Byte} :
    (p.setArithmetic (Knowledge.map₂ g (p.binaryAccumulator rule) p.c)).a = .known v ↔
      ∃ a c, p.a = .known a ∧ p.c = .known c ∧ rule.trusts p.d = true ∧ (g a c).value = v := by
  show (Knowledge.map₂ g (p.binaryAccumulator rule) p.c).map ArithmeticResult.value = .known v ↔ _
  unfold binaryAccumulator
  cases rule.trusts p.d with
  | false => simp
  | true =>
    cases p.a with
    | unknown => simp
    | known a =>
      cases p.c with
      | unknown => simp
      | known c => simp

/-- A comparison with the accumulator gives the flags N, Z and C of a subtraction with the carry
set, where that is binary. -/
theorem flags_compare_eq (htrust : settings.decimal.trusts p.d = true) (m : Byte) :
    let compared := (Operation.compare .A).effect settings m p
    let subtracted := Operation.subtract.effect settings m (p.setFlag .C (.known true))
    compared.n = subtracted.n ∧ compared.z = subtracted.z ∧ compared.c = subtracted.c := by
  intro compared subtracted
  have haccumulator :
      (Cells.setFlag p .C (.known true)).binaryAccumulator settings.decimal = p.a :=
    if_pos htrust
  have hsubtracted : subtracted = (Cells.setFlag p .C (.known true)).setArithmetic
      (Knowledge.map₂ (fun a c => Byte.subtractWithBorrow a m c) p.a (.known true)) := by
    rw [← haccumulator]
    rfl
  rw [hsubtracted]
  show ((p.a).map (· - m)).map BitVec.msb = _ ∧ ((p.a).map (· - m)).map (· == 0) = _ ∧
    (p.a).map (fun v => decide (m ≤ v)) = _
  cases p.a with
  | unknown => exact ⟨rfl, rfl, rfl⟩
  | known a =>
    have hvalue := Byte.value_subtractWithBorrow_true a m
    have hcarry := Byte.carry_subtractWithBorrow_true a m
    refine ⟨?_, ?_, ?_⟩
    · exact congrArg (fun v : Byte => Knowledge.known v.msb) hvalue.symm
    · exact congrArg (fun v : Byte => Knowledge.known (v == 0)) hvalue.symm
    · exact congrArg Knowledge.known hcarry.symm

/-- A branch leaves every known flag alone, its own as well. -/
theorem flag_effect_of_branch (f : Flag) (takenWhen : Bool) (operand : Byte) {g : Flag} {b : Bool}
    (h : p.flag g = .known b) :
    ((Operation.branch f takenWhen).effect settings operand p).flag g = .known b := by
  show (Cells.setFlag p f ((p.flag f).learn _)).flag g = .known b
  rw [flag_setFlag]
  by_cases hg : g = f
  · subst hg
    rw [if_pos rfl, h]
    rfl
  · rw [if_neg hg, h]

/-- A branch teaches something of no other flag than its own. -/
theorem flag_effect_branch_of_ne {f g : Flag} (takenWhen : Bool) (operand : Byte) (h : g ≠ f) :
    ((Operation.branch f takenWhen).effect settings operand p).flag g = p.flag g := by
  show (Cells.setFlag p f ((p.flag f).learn _)).flag g = p.flag g
  rw [flag_setFlag, if_neg h]

/-- A branch contradicts no flag of which nothing is known. -/
theorem mismatches_branch_of_unknown {f : Flag} (takenWhen : Bool) (operand : Byte)
    (h : p.flag f = .unknown) :
    p.mismatches ((Operation.branch f takenWhen).evidence operand) = [] := by
  rw [mismatches_eq_nil_iff, Operation.evidence, List.forall_mem_singleton, look_flag, h]
  exact Knowledge.allows_unknown _

end Cells

/-! ### Comparisons and the branches behind them -/

/-- A mnemonic compares a register with the byte read. -/
inductive Mnemonic.Compares : Mnemonic → Register → Prop where
  | accumulator : Compares .CMP .A
  | indexX : Compares .CPX .X
  | indexY : Compares .CPY .Y

theorem Mnemonic.Compares.operation {m : Mnemonic} {r : Register} (h : m.Compares r)
    (mode : Mode) : (Instruction.mk m mode).operation = .compare r := by
  cases h <;> rfl

/-- What a branch behind a comparison can ask of the register and the byte it was compared
with, both taken as unsigned numbers. -/
inductive OrderTest where
  /-- BCS: the register is at least the byte. -/
  | atLeast
  /-- BCC: the register is below the byte. -/
  | below
  /-- BEQ: they are equal. -/
  | equal
  /-- BNE: they are different. -/
  | different
deriving DecidableEq

namespace OrderTest

/-- The branch that asks. -/
def mnemonic : OrderTest → Mnemonic
  | atLeast => .BCS
  | below => .BCC
  | equal => .BEQ
  | different => .BNE

/-- The flag that the branch looks at. -/
def flag : OrderTest → Flag
  | atLeast | below => .C
  | equal | different => .Z

/-- The value of the flag for which the branch is taken. -/
def takenWhen : OrderTest → Bool
  | atLeast | equal => true
  | below | different => false

/-- The answer for a register value and a byte. -/
def holds (t : OrderTest) (v m : Byte) : Bool :=
  match t with
  | atLeast => decide (m.toNat ≤ v.toNat)
  | below => decide (v.toNat < m.toNat)
  | equal => v == m
  | different => v != m

theorem operation_mnemonic (t : OrderTest) (mode : Mode) :
    (Instruction.mk t.mnemonic mode).operation = .branch t.flag t.takenWhen := by
  cases t <;> rfl

/-- After a comparison of a known register the tested flag tells the answer. -/
theorem flag_compare_of_known (t : OrderTest) {settings : Settings} {p : Prediction}
    {r : Register} {v : Byte} (h : p.register r = .known v) (m : Byte) :
    ((Operation.compare r).effect settings m p).flag t.flag =
      .known (t.holds v m == t.takenWhen) := by
  have hC : ((Operation.compare r).effect settings m p).flag .C =
      .known (decide (m.toNat ≤ v.toNat)) := by
    show (p.register r).map (fun v => decide (m ≤ v)) = _
    rw [h]
    rfl
  have hZ : ((Operation.compare r).effect settings m p).flag .Z = .known (v == m) := by
    show ((p.register r).map (· - m)).map (· == 0) = _
    rw [h]
    show Knowledge.known (v - m == 0) = .known (v == m)
    rw [Knowledge.known.injEq, Bool.eq_iff_iff, beq_iff_eq, beq_iff_eq, BitVec.sub_eq_iff_eq_add]
    show v = 0#8 + m ↔ v = m
    rw [BitVec.zero_add]
  cases t with
  | atLeast =>
    rw [flag, hC, holds, takenWhen, beq_true]
  | below =>
    -- BCC is taken when the carry is clear, and that is when a borrow was needed.
    rw [flag, hC, holds, takenWhen, beq_false, ← decide_not]
    simp only [Nat.not_lt]
  | equal =>
    rw [flag, hZ, holds, takenWhen, beq_true]
  | different =>
    rw [flag, hZ, holds, takenWhen, beq_false, bne, Bool.not_not]

theorem flag_compare_of_unknown (t : OrderTest) {settings : Settings} {p : Prediction}
    {r : Register} (h : p.register r = .unknown) (m : Byte) :
    ((Operation.compare r).effect settings m p).flag t.flag = .unknown := by
  have hC : ((Operation.compare r).effect settings m p).flag .C = .unknown := by
    show (p.register r).map (fun v => decide (m ≤ v)) = _
    rw [h]
    rfl
  have hZ : ((Operation.compare r).effect settings m p).flag .Z = .unknown := by
    show ((p.register r).map (· - m)).map (· == 0) = _
    rw [h]
    rfl
  cases t with
  | atLeast => exact hC
  | below => exact hC
  | equal => exact hZ
  | different => exact hZ

end OrderTest

/-- The call reports an order test with its outcome. -/
def Call.Tests (k : Call) (t : OrderTest) (taken : Bool) : Prop :=
  ∃ operand, k.Reports t.mnemonic operand ∧ (operand != 0) = taken

/-- The call reports an order test of some kind and outcome. -/
def Call.IsOrderTest (k : Call) : Prop := ∃ t taken, k.Tests t taken

namespace Call.Tests

variable {k : Call} {t : OrderTest} {taken : Bool}

/-- A test does to a checker what its branch does. -/
theorem exists_branch (h : k.Tests t taken) (c : Checker) :
    ∃ operand, (operand != 0) = taken ∧
      (c.call k).checker.state.cells =
        (Operation.branch t.flag t.takenWhen).effect c.settings operand c.state.cells ∧
      (c.call k).mismatches =
        c.state.cells.mismatches ((Operation.branch t.flag t.takenWhen).evidence operand) := by
  obtain ⟨operand, hk, htaken⟩ := h
  obtain ⟨mode, hcells⟩ := hk.cells c
  obtain ⟨mode', hmismatches⟩ := hk.mismatches c
  rw [t.operation_mnemonic] at hcells hmismatches
  exact ⟨operand, htaken, hcells, hmismatches⟩

/-- What is known of a flag stays known in a test, whatever the outcome. -/
theorem flag_of_known (h : k.Tests t taken) (c : Checker) {g : Flag} {b : Bool}
    (hg : c.state.cells.flag g = .known b) :
    (c.call k).checker.state.cells.flag g = .known b := by
  obtain ⟨operand, -, hcells, -⟩ := h.exists_branch c
  rw [hcells]
  exact Cells.flag_effect_of_branch _ _ _ hg

/-- A test of one flag teaches nothing of another. -/
theorem flag_of_ne (h : k.Tests t taken) (c : Checker) {g : Flag} (hg : g ≠ t.flag) :
    (c.call k).checker.state.cells.flag g = c.state.cells.flag g := by
  obtain ⟨operand, -, hcells, -⟩ := h.exists_branch c
  rw [hcells]
  exact Cells.flag_effect_branch_of_ne _ _ hg

/-- A test leaves the registers alone. -/
theorem register (h : k.Tests t taken) (c : Checker) (r : Register) :
    (c.call k).checker.state.cells.register r = c.state.cells.register r := by
  obtain ⟨operand, -, hcells, -⟩ := h.exists_branch c
  rw [hcells]
  exact Cells.register_setFlag _ _ _ r

/-- Where the tested flag is known, a test is judged by the value that its outcome implies. -/
theorem mismatches_of_known (h : k.Tests t taken) (c : Checker) {b : Bool}
    (hflag : c.state.cells.flag t.flag = .known b) :
    (c.call k).mismatches =
      if b = (taken == t.takenWhen) then []
      else [⟨.flag t.flag, Byte.ofBool b, Byte.ofBool (taken == t.takenWhen)⟩] := by
  obtain ⟨operand, rfl, -, hmismatches⟩ := h.exists_branch c
  have himplied : impliedFlag t.takenWhen (operand != 0) = ((operand != 0) == t.takenWhen) := by
    cases operand != 0 <;> cases t.takenWhen <;> rfl
  have hlook : c.state.cells.look (.flag t.flag) = .known (Byte.ofBool b) := by
    rw [Cells.look_flag, hflag]
    rfl
  rw [hmismatches, Operation.evidence, Cells.mismatches_singleton hlook, himplied]
  simp only [Byte.ofBool_inj]

/-- Where the answer is known, another outcome raises a mismatch. -/
theorem mismatches_ne_nil_iff (h : k.Tests t taken) (c : Checker) {answer : Bool}
    (hflag : c.state.cells.flag t.flag = .known (answer == t.takenWhen)) :
    (c.call k).mismatches ≠ [] ↔ taken ≠ answer := by
  have hsame : (answer == t.takenWhen) = (taken == t.takenWhen) ↔ taken = answer := by
    cases answer <;> cases taken <;> cases t.takenWhen <;> decide
  rw [h.mismatches_of_known c hflag]
  split
  · next hright => exact iff_of_false (fun hne => hne rfl) (fun hne => hne (hsame.mp hright))
  · next hwrong =>
    exact iff_of_true (List.cons_ne_nil _ _) (fun hright => hwrong (hsame.mpr hright))

/-- Where nothing is known, the outcome is believed. -/
theorem learns (h : k.Tests t taken) (c : Checker)
    (hflag : c.state.cells.flag t.flag = .unknown) :
    (c.call k).mismatches = [] ∧
      (c.call k).checker.state.cells.flag t.flag = .known (taken == t.takenWhen) := by
  obtain ⟨operand, rfl, hcells, hmismatches⟩ := h.exists_branch c
  constructor
  · rw [hmismatches]
    exact Cells.mismatches_branch_of_unknown _ _ hflag
  · rw [hcells]
    show (Cells.setFlag c.state.cells t.flag ((c.state.cells.flag t.flag).learn _)).flag t.flag = _
    rw [Cells.flag_setFlag, if_pos rfl, hflag]
    show Knowledge.known (impliedFlag t.takenWhen (operand != 0)) = _
    cases t.takenWhen <;> cases operand != 0 <;> rfl

end Call.Tests

namespace Checker

/-! ### Runs of order tests -/

/-- A flag that is known stays known through a run of order tests. -/
theorem flag_after_tests {c : Checker} {tests : List Call} (htests : ∀ k ∈ tests, k.IsOrderTest)
    {g : Flag} {b : Bool} (hg : c.state.cells.flag g = .known b) :
    (c.after tests).state.cells.flag g = .known b := by
  induction tests generalizing c with
  | nil => exact hg
  | cons k tests ih =>
    rw [List.forall_mem_cons] at htests
    obtain ⟨⟨t, taken, hk⟩, htests⟩ := htests
    exact ih htests (hk.flag_of_known c hg)

/-- A flag that no order test of a run looks at stays as it is. -/
theorem flag_after_other_tests {c : Checker} {tests : List Call} {g : Flag}
    (htests : ∀ k ∈ tests, ∃ t taken, k.Tests t taken ∧ g ≠ t.flag) :
    (c.after tests).state.cells.flag g = c.state.cells.flag g := by
  induction tests generalizing c with
  | nil => rfl
  | cons k tests ih =>
    rw [List.forall_mem_cons] at htests
    obtain ⟨⟨t, taken, hk, hne⟩, htests⟩ := htests
    rw [after_cons, ih htests, hk.flag_of_ne c hne]

/-- How addition, subtraction and comparison belong together for a checker. -/
structure ArithmeticCoheres (c : Checker) : Prop where
  /-- To subtract a byte and to add its complement lead to the same checker, whatever is known
  and under either decimal rule. -/
  complement : ∀ m subtract add, subtract.Reports .SBC m → add.Reports .ADC (255 - m) →
    (c.call subtract).checker = (c.call add).checker
  /-- A difference is computed when the accumulator and the carry are known and sums are binary.
  The exact one has nine bits and a sign, and the result is the exact one modulo 256. -/
  difference : ∀ m subtract v, subtract.Reports .SBC m →
    ((c.call subtract).checker.state.cells.a = .known v ↔
      ∃ a carry, c.state.cells.a = .known a ∧ c.state.cells.c = .known carry ∧
        (c.settings.decimal = .assumeBinary ∨ c.state.cells.d = .known false) ∧
        (-256 ≤ Byte.difference a m carry ∧ Byte.difference a m carry ≤ 255) ∧
        (v.toNat : Int) = ((a.toNat : Int) - m.toNat - (1 - carry.toNat)) % 256)
  /-- Where sums are binary, a comparison with the accumulator keeps A and V, and N, Z and C are
  those after setting the carry and subtracting. -/
  comparison : (c.settings.decimal = .assumeBinary ∨ c.state.cells.d = .known false) →
    ∀ m b compare set subtract, compare.Reports .CMP m → set.Reports .SEC b →
      subtract.Reports .SBC m →
      let compared := (c.call compare).checker.state.cells
      let subtracted := (c.after [set, subtract]).state.cells
      (compared.a = c.state.cells.a ∧ compared.v = c.state.cells.v) ∧
        compared.n = subtracted.n ∧ compared.z = subtracted.z ∧ compared.c = subtracted.c
  /-- Behind a comparison of a known register every order test with the wrong outcome raises a
  mismatch and no other does, also after other order tests. -/
  judged : ∀ mnemonic r m compare, mnemonic.Compares r → compare.Reports mnemonic m →
    ∀ v, c.state.cells.register r = .known v → ∀ tests, (∀ k ∈ tests, k.IsOrderTest) →
      ∀ k t taken, k.Tests t taken →
        ((((c.call compare).checker.after tests).call k).mismatches ≠ [] ↔ taken ≠ t.holds v m)
  /-- Behind a comparison of an unknown register the first order test that looks at a flag
  raises no mismatch and makes the flag known. -/
  resolved : ∀ mnemonic r m compare, mnemonic.Compares r → compare.Reports mnemonic m →
    c.state.cells.register r = .unknown →
      ∀ k t taken, k.Tests t taken →
      ∀ tests, (∀ l ∈ tests, ∃ u taken', l.Tests u taken' ∧ t.flag ≠ u.flag) →
        let tested := ((c.call compare).checker.after tests).call k
        tested.mismatches = [] ∧
          tested.checker.state.cells.flag t.flag = .known (taken == t.takenWhen)

/-- A subtraction and the addition of the complement lead to the same checker. -/
theorem call_subtract_eq (c : Checker) {m : Byte} {subtract add : Call}
    (hsubtract : subtract.Reports .SBC m) (hadd : add.Reports .ADC (255 - m)) :
    (c.call subtract).checker = (c.call add).checker := by
  obtain ⟨mode, hchecker⟩ := hsubtract.checker c
  obtain ⟨mode', hchecker'⟩ := hadd.checker c
  have heffect : Operation.subtract.effect c.settings m c.state.cells =
      Operation.add.effect c.settings (255 - m) c.state.cells := by
    simp only [Operation.effect, Byte.subtractWithBorrow_eq]
  rw [hchecker, hchecker']
  show c.advance [] (Operation.subtract.effect c.settings m c.state.cells) =
    c.advance [] (Operation.add.effect c.settings (255 - m) c.state.cells)
  rw [heffect]

/-- What a subtraction leaves in the accumulator. -/
theorem accumulator_subtract_iff (c : Checker) {m : Byte} {subtract : Call}
    (hsubtract : subtract.Reports .SBC m) (v : Byte) :
    (c.call subtract).checker.state.cells.a = .known v ↔
      ∃ a carry, c.state.cells.a = .known a ∧ c.state.cells.c = .known carry ∧
        (c.settings.decimal = .assumeBinary ∨ c.state.cells.d = .known false) ∧
        (-256 ≤ Byte.difference a m carry ∧ Byte.difference a m carry ≤ 255) ∧
        (v.toNat : Int) = ((a.toNat : Int) - m.toNat - (1 - carry.toNat)) % 256 := by
  obtain ⟨mode, hcells⟩ := hsubtract.cells c
  rw [hcells]
  refine Cells.sum_eq_known_iff.trans ?_
  simp only [DecimalRule.trusts_iff]
  constructor
  · rintro ⟨a, carry, ha, hcarry, htrust, rfl⟩
    exact ⟨a, carry, ha, hcarry, htrust, Byte.difference_mem_range a m carry,
      Byte.toNat_value_subtractWithBorrow a m carry⟩
  · rintro ⟨a, carry, ha, hcarry, htrust, -, hv⟩
    refine ⟨a, carry, ha, hcarry, htrust, BitVec.eq_of_toNat_eq ?_⟩
    have hvalue := Byte.toNat_value_subtractWithBorrow a m carry
    omega

/-- Addition, subtraction, comparison and the branches behind a comparison are computed in four
ways, and they agree for every checker, whatever it knows. -/
theorem arithmetic_coheres (c : Checker) : c.ArithmeticCoheres where
  complement m subtract add hsubtract hadd := c.call_subtract_eq hsubtract hadd
  difference m subtract v hsubtract := c.accumulator_subtract_iff hsubtract v
  comparison htrust m b compare set subtract hcompare hset hsubtract := by
    intro compared subtracted
    obtain ⟨mode, hcompared⟩ := hcompare.cells c
    obtain ⟨mode', hcarry⟩ := hset.cells c
    obtain ⟨mode'', hsubtracted⟩ := hsubtract.cells (c.call set).checker
    rw [hcarry, settings_call] at hsubtracted
    have hflags := Cells.flags_compare_eq (DecimalRule.trusts_iff.mpr htrust) m
    refine ⟨?_, ?_⟩
    · rw [show compared = _ from hcompared]
      exact ⟨rfl, rfl⟩
    · rw [show compared = _ from hcompared, show subtracted = _ from hsubtracted]
      exact hflags
  judged mnemonic r m compare hr hcompare v hv tests htests k t taken hk := by
    obtain ⟨mode, hcells⟩ := hcompare.cells c
    rw [hr.operation] at hcells
    refine hk.mismatches_ne_nil_iff _ (flag_after_tests htests ?_)
    rw [hcells]
    exact t.flag_compare_of_known hv m
  resolved mnemonic r m compare hr hcompare hunknown k t taken hk tests htests := by
    obtain ⟨mode, hcells⟩ := hcompare.cells c
    rw [hr.operation] at hcells
    refine hk.learns _ ?_
    rw [flag_after_other_tests htests, hcells]
    exact t.flag_compare_of_unknown hunknown m

/-- A byte is subtracted from itself with the carry clear, which is where a borrow begins, and
is compared with itself. A BCC that is taken is wrong then, and the BCS after it is judged as if
the BCC had not been there. -/
theorem arithmetic_coheres_at_borrow :
    let c := (fresh { decimal := .unknownWhenDecimal }).after
      [.dispatch 0xD8 0x00, .dispatch 0xA9 0x40, .dispatch 0x18 0x00]
    let compared := (c.call (.dispatch 0xC9 0x40)).checker
    ((c.call (.dispatch 0xE9 0x40)).checker = (c.call (.observe 0x7D (.data 0xBF))).checker ∧
      (c.call (.dispatch 0xE9 0x40)).checker.state.cells.a = .known 0xFF) ∧
    compared.state.cells.c = (c.after [.dispatch 0x38 0x00, .dispatch 0xF5 0x40]).state.cells.c ∧
    (compared.call (.observe 0x90 (.branch true))).mismatches ≠ [] ∧
    ¬ ((compared.after [.observe 0x90 (.branch true)]).call (.dispatch 0xB0 0x80)).mismatches ≠ []
    := by
  intro c compared
  have hc := arithmetic_coheres c
  have hsubtract : Call.Reports (.dispatch 0xE9 0x40) .SBC 0x40 := ⟨0xE9, rfl, by decide⟩
  have hcompare : Call.Reports (.dispatch 0xC9 0x40) .CMP 0x40 := ⟨0xC9, rfl, by decide⟩
  have hbelow : Call.Tests (.observe 0x90 (.branch true)) .below true :=
    ⟨0x01, ⟨0x90, rfl, by decide⟩, by decide⟩
  have hatLeast : Call.Tests (.dispatch 0xB0 0x80) .atLeast true :=
    ⟨0x80, ⟨0xB0, rfl, by decide⟩, by decide⟩
  have hjudged := hc.judged _ _ _ _ .accumulator hcompare 0x40 (by decide)
  refine ⟨⟨?_, ?_⟩, ?_, ?_, ?_⟩
  · exact hc.complement _ _ _ hsubtract ⟨0x7D, rfl, by decide⟩
  · exact (hc.difference _ _ _ hsubtract).mpr ⟨0x40, false, by decide, by decide,
      Or.inr (by decide), by decide, by decide⟩
  · exact (hc.comparison (Or.inr (by decide)) 0x40 0x00 _ _ _ hcompare ⟨0x38, rfl, by decide⟩
      ⟨0xF5, rfl, by decide⟩).2.2.2
  · exact (hjudged [] (by simp) _ _ _ hbelow).mpr (by decide)
  · rw [hjudged [_] (List.forall_mem_singleton.mpr ⟨_, _, hbelow⟩) _ _ _ hatLeast]
    decide

end Checker

end TraceCheck
