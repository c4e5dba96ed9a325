import TraceCheck.Proofs.Subtraction

/-!
# `TraceCheck.Proofs.CountingLoop`: the trace of a loop that counts

A program runs a loop so many times by counting in an index register: the register is loaded, and
each iteration counts it down or up by one and branches back unless it has become zero. In a trace
every iteration shows one outcome (`Call.Iterations`), and that outcome is all that can be wrong.

What a checker knows of the register after an iteration is what it knew before, counted once
(`Checker.iteration`). The branch leaves the flag it tests alone, also where its outcome
contradicts it, so a wrong outcome is found and leaves nothing wrong behind. The run lemma
`Checker.iterations` is the induction over the outcomes, with a register that is known to hold the
counter as its invariant. It knows no bound: the counter goes round after 256 iterations, and the
outcomes are judged on (`Counting.value`).

A loop that comes to its end in the trace has gone on at every branch but the last. No mismatch is
found in it just when it is as long as the counter says (`Counting.ends_iff`).
-/

set_option autoImplicit false

namespace TraceCheck

/-- The ways to count. -/
inductive Counting where
  /-- One is subtracted in each iteration. -/
  | down
  /-- One is added in each iteration. -/
  | up
deriving DecidableEq

namespace Counting

/-- What an iteration adds to the counter. -/
def step : Counting → Int
  | down => -1
  | up => 1

/-- The counter after a number of iterations, modulo 256. -/
def value (w : Counting) (n : Byte) (i : Nat) : Byte := BitVec.ofInt 8 (n.toNat + i * w.step)

/-- The number of iterations after which a loop ends that was entered with a byte. -/
def length : Counting → Byte → Nat
  | down, n => if n = 0 then 256 else n.toNat
  | up, n => 256 - n.toNat

/-! ### The counter -/

theorem toNat_value (w : Counting) (n : Byte) (i : Nat) :
    ((w.value n i).toNat : Int) = (n.toNat + i * w.step) % 256 := by
  rw [value, BitVec.toNat_ofInt]
  omega

@[simp] theorem value_zero (w : Counting) (n : Byte) : w.value n 0 = n := by
  have hn := n.isLt
  have hvalue := w.toNat_value n 0
  apply BitVec.eq_of_toNat_eq
  omega

/-- To count on is to count all the iterations together. -/
theorem value_value (w : Counting) (n : Byte) (i j : Nat) :
    w.value (w.value n i) j = w.value n (i + j) := by
  have hfirst := w.toNat_value n i
  have hsecond := w.toNat_value (w.value n i) j
  have hboth := w.toNat_value n (i + j)
  -- The products with `step` are linear as soon as it is a number.
  apply BitVec.eq_of_toNat_eq
  cases w <;> simp only [step] at * <;> omega

theorem value_eq_zero_iff (w : Counting) (n : Byte) (i : Nat) :
    w.value n i = 0 ↔ ((n.toNat : Int) + i * w.step) % 256 = 0 := by
  rw [← w.toNat_value, ← BitVec.toNat_inj]
  exact Int.natCast_eq_zero.symm

theorem sub_one (n : Byte) : n - 1 = down.value n 1 := by
  have hvalue := toNat_value down n 1
  apply BitVec.eq_of_toNat_eq
  rw [BitVec.toNat_sub]
  simp only [step] at hvalue
  show (256 - 1 + n.toNat) % 256 = _
  omega

theorem add_one (n : Byte) : n + 1 = up.value n 1 := by
  have hvalue := toNat_value up n 1
  apply BitVec.eq_of_toNat_eq
  rw [BitVec.toNat_add]
  simp only [step] at hvalue
  show (n.toNat + 1) % 256 = _
  omega

theorem length_down_cases (n : Byte) :
    n.toNat = 0 ∧ down.length n = 256 ∨ n.toNat ≠ 0 ∧ down.length n = n.toNat := by
  have hzero : n = 0 ↔ n.toNat = 0 := BitVec.toNat_inj.symm
  by_cases h : n = 0
  · exact Or.inl ⟨hzero.mp h, if_pos h⟩
  · exact Or.inr ⟨fun hn => h (hzero.mpr hn), if_neg h⟩

theorem length_pos (w : Counting) (n : Byte) : 0 < w.length n := by
  have hn := n.isLt
  cases w with
  | down =>
    have hlength := length_down_cases n
    omega
  | up =>
    show 0 < 256 - n.toNat
    omega

/-- Within its length a loop meets zero at its end and nowhere before. -/
theorem value_eq_zero_iff_eq_length (w : Counting) (n : Byte) {i : Nat} (hpos : 0 < i)
    (hle : i ≤ w.length n) : w.value n i = 0 ↔ i = w.length n := by
  have hn := n.isLt
  rw [value_eq_zero_iff]
  cases w with
  | down =>
    have hlength := length_down_cases n
    simp only [step]
    omega
  | up =>
    simp only [length, step] at hle ⊢
    omega

/-- A loop that meets zero in its last iteration and in none before it is as long as the counter
says. -/
theorem ends_iff (w : Counting) (n : Byte) (k : Nat) :
    ((∀ i < k, w.value n (i + 1) ≠ 0) ∧ w.value n (k + 1) = 0) ↔ k + 1 = w.length n := by
  have hpos := w.length_pos n
  constructor
  · rintro ⟨hbefore, hend⟩
    by_cases hle : k + 1 ≤ w.length n
    · exact (w.value_eq_zero_iff_eq_length n (Nat.succ_pos k) hle).mp hend
    · -- The loop has gone on past its length, where the counter is zero.
      have hearlier := hbefore (w.length n - 1) (by omega)
      rw [Nat.sub_add_cancel hpos] at hearlier
      exact absurd ((w.value_eq_zero_iff_eq_length n hpos (Nat.le_refl _)).mpr rfl) hearlier
  · intro hlength
    refine ⟨fun i hi hzero => ?_,
      (w.value_eq_zero_iff_eq_length n (Nat.succ_pos k) (Nat.le_of_eq hlength)).mpr hlength⟩
    -- An earlier zero would be the end of a shorter loop.
    have hshorter := (w.value_eq_zero_iff_eq_length n (Nat.succ_pos i) (by omega)).mp hzero
    omega

end Counting

/-! ### Instructions of a loop -/

/-- The operation that counts once. -/
def Counting.operation : Counting → Target → Operation
  | down => .decrement
  | up => .increment

theorem Counting.effect_operation (w : Counting) {r : Register} (settings : Settings)
    (operand : Byte) {p : Prediction} {v : Byte} (hv : p.register r = .known v) :
    (w.operation (.register r)).effect settings operand p =
      p.setCount (.register r) (.known (w.value v 1)) := by
  cases w with
  | down =>
    show p.setCount (.register r) ((p.register r).map (· - 1)) = _
    rw [hv, Knowledge.map_known, sub_one]
  | up =>
    show p.setCount (.register r) ((p.register r).map (· + 1)) = _
    rw [hv, Knowledge.map_known, add_one]

theorem Counting.evidence_operation (w : Counting) (t : Target) (operand : Byte) :
    (w.operation t).evidence operand = [] := by
  cases w <;> rfl

/-- The mnemonics that load an index register and that count in it. -/
inductive Mnemonic.Counts : Mnemonic → Mnemonic → Register → Counting → Prop where
  | downX : Counts .LDX .DEX .X .down
  | downY : Counts .LDY .DEY .Y .down
  | upX : Counts .LDX .INX .X .up
  | upY : Counts .LDY .INY .Y .up

namespace Mnemonic.Counts

variable {load count : Mnemonic} {r : Register} {w : Counting}

theorem operation_load (h : Counts load count r w) (mode : Mode) :
    (Instruction.mk load mode).operation = .load r := by
  cases h <;> rfl

theorem operation_count (h : Counts load count r w) (mode : Mode) :
    (Instruction.mk count mode).operation = w.operation (.register r) := by
  cases h <;> rfl

end Mnemonic.Counts

/-- The outcome of a branch at the end of an iteration when the loop goes on, or when it does not:
`BNE` is taken and `BEQ` is not. -/
def OrderTest.outcome (t : OrderTest) (goesOn : Bool) : Bool := goesOn != t.takenWhen

/-- The outcome implies that Z is set just when the loop ends. -/
theorem OrderTest.outcome_beq (t : OrderTest) (goesOn : Bool) :
    (t.outcome goesOn == t.takenWhen) = !goesOn := by
  unfold outcome
  cases t.takenWhen <;> cases goesOn <;> rfl

/-- The calls for the iterations of a loop. Each counts, and then branches with an outcome that
tells whether the loop goes on. -/
inductive Call.Iterations (count : Mnemonic) (t : OrderTest) : List Bool → List Call → Prop where
  | nil : Iterations count t [] []
  | cons {goesOn : Bool} {gs : List Bool} {step branch : Call} {ks : List Call} {ignored : Byte}
      (hstep : step.Reports count ignored) (hbranch : branch.Tests t (t.outcome goesOn))
      (rest : Iterations count t gs ks) :
      Iterations count t (goesOn :: gs) (step :: branch :: ks)

/-- The judgement of an outcome: a mismatch on Z if the loop goes on with the counter at zero, or
ends with another value. -/
def judgeOutcome (counter : Byte) (goesOn : Bool) : List Mismatch :=
  if goesOn = (counter != 0) then []
  else [⟨.flag .Z, Byte.ofBool (counter == 0), Byte.ofBool (!goesOn)⟩]

/-- The mismatches of the calls of all iterations. Only the branch can raise one. -/
def outcomeJudgements (counters : List Byte) (gs : List Bool) : List (List Mismatch) :=
  (List.zipWith judgeOutcome counters gs).flatMap fun ms => [[], ms]

theorem outcomeJudgements_cons (v : Byte) (vs : List Byte) (goesOn : Bool) (gs : List Bool) :
    outcomeJudgements (v :: vs) (goesOn :: gs) =
      [[], judgeOutcome v goesOn] ++ outcomeJudgements vs gs := rfl

theorem judgeOutcome_eq_nil_iff {counter : Byte} {goesOn : Bool} :
    judgeOutcome counter goesOn = [] ↔ goesOn = (counter != 0) := by
  unfold judgeOutcome
  split
  · next h => exact iff_of_true rfl h
  · next h => exact iff_of_false (List.cons_ne_nil _ _) h

/-- No outcome is wrong just when each tells whether the counter is zero. -/
theorem flatten_outcomeJudgements_eq_nil_iff {vs : List Byte} {gs : List Bool}
    (h : vs.length = gs.length) :
    (outcomeJudgements vs gs).flatten = [] ↔ gs = vs.map (· != 0) := by
  induction vs generalizing gs with
  | nil =>
    obtain rfl : gs = [] := List.length_eq_zero_iff.mp h.symm
    exact iff_of_true rfl rfl
  | cons v vs ih =>
    cases gs with
    | nil => cases h
    | cons goesOn gs =>
      rw [outcomeJudgements_cons, List.flatten_append, List.append_eq_nil_iff,
        ih (Nat.succ.inj h), List.map_cons, List.cons_eq_cons]
      refine and_congr_left fun _ => ?_
      rw [← judgeOutcome_eq_nil_iff]
      simp

/-- The counters of a loop, one for each iteration. -/
def Counting.values (w : Counting) (n : Byte) (k : Nat) : List Byte :=
  (List.range k).map fun i => w.value n (i + 1)

theorem Counting.values_succ (w : Counting) (n : Byte) (k : Nat) :
    w.values n (k + 1) = w.value n 1 :: w.values (w.value n 1) k := by
  unfold values
  rw [List.range_succ_eq_map, List.map_cons, List.map_map]
  refine congrArg _ (List.map_congr_left fun i _ => ?_)
  rw [Counting.value_value, Nat.add_comm 1]
  rfl

/-- The outcomes of a loop that goes on at every branch but the last are those that the counter
calls for just when the loop has the length that the counter says. -/
theorem Counting.map_values_eq_iff (w : Counting) (n : Byte) (k : Nat) :
    List.replicate k true ++ [false] = (w.values n (k + 1)).map (· != 0) ↔
      k + 1 = w.length n := by
  have hsplit : (w.values n (k + 1)).map (· != 0) =
      (w.values n k).map (· != 0) ++ [w.value n (k + 1) != 0] := by
    unfold values
    rw [List.range_succ, List.map_append, List.map_append, List.map_singleton,
      List.map_singleton]
  have hinit : List.replicate k true = (w.values n k).map (· != 0) ↔
      ∀ i < k, w.value n (i + 1) ≠ 0 := by
    rw [eq_comm, List.eq_replicate_iff]
    simp [values]
  have hlast : false = (w.value n (k + 1) != 0) ↔ w.value n (k + 1) = 0 := by
    rw [eq_comm, bne_eq_false_iff_eq]
  rw [hsplit, List.append_singleton_inj, hinit, hlast, w.ends_iff]

/-- A register holds a value, and N and Z are those of it. -/
structure Cells.Counted (p : Prediction) (r : Register) (v : Byte) : Prop where
  register : p.register r = .known v
  negative : p.n = .known v.msb
  zero : p.z = .known (v == 0)

namespace Checker

variable {c : Checker} {load count : Mnemonic} {r : Register} {w : Counting} {t : OrderTest}

/-! ### Iterations -/

/-- An iteration counts the register once, and its outcome is judged by the counter. -/
theorem iteration (hm : Mnemonic.Counts load count r w) (ht : t.flag = .Z) {v : Byte}
    {goesOn : Bool} {step branch : Call} {ignored : Byte} (hstep : step.Reports count ignored)
    (hbranch : branch.Tests t (t.outcome goesOn)) (hv : c.state.cells.register r = .known v) :
    (c.after [step, branch]).state.cells.Counted r (w.value v 1) ∧
      (c.outcomes [step, branch]).map (·.mismatches) =
        [[], judgeOutcome (w.value v 1) goesOn] := by
  let stepped := (c.call step).checker
  obtain ⟨mode, hstepped⟩ := hstep.cells c
  rw [hm.operation_count, w.effect_operation c.settings ignored hv] at hstepped
  have hcells : stepped.state.cells =
      c.state.cells.setCount (.register r) (.known (w.value v 1)) := hstepped
  have hregister : stepped.state.cells.register r = .known (w.value v 1) := by
    rw [hcells, Cells.register_setCount, Target.register_put_register, if_pos rfl]
  have hnegative : stepped.state.cells.flag .N = .known (w.value v 1).msb := by
    rw [hcells]
    rfl
  have hzero : stepped.state.cells.flag .Z = .known (w.value v 1 == 0) := by
    rw [hcells]
    rfl
  constructor
  · -- The branch keeps the two flags, whatever its outcome.
    refine ⟨?_, hbranch.flag_of_known stepped hnegative, hbranch.flag_of_known stepped hzero⟩
    exact (hbranch.register stepped r).trans hregister
  · obtain ⟨mode', hnone⟩ := hstep.mismatches c
    rw [hm.operation_count, w.evidence_operation, Cells.mismatches_nil] at hnone
    have hjudged : (stepped.call branch).mismatches = judgeOutcome (w.value v 1) goesOn := by
      rw [hbranch.mismatches_of_known stepped (ht ▸ hzero), ht, t.outcome_beq, judgeOutcome]
      have hright : ((w.value v 1 == 0) = !goesOn) ↔ goesOn = (w.value v 1 != 0) := by
        rw [bne]
        cases w.value v 1 == 0 <;> cases goesOn <;> decide
      simp only [hright]
    show [(c.call step).mismatches, (stepped.call branch).mismatches] = _
    rw [hnone, hjudged]

/-- The iterations count the register through, and each outcome is judged by the counter of its
own iteration. -/
theorem iterations (hm : Mnemonic.Counts load count r w) (ht : t.flag = .Z) {gs : List Bool}
    {ks : List Call} (hks : Call.Iterations count t gs ks) {v : Byte}
    (hv : c.state.cells.register r = .known v) :
    (c.after ks).state.cells.register r = .known (w.value v gs.length) ∧
      (1 ≤ gs.length → (c.after ks).state.cells.Counted r (w.value v gs.length)) ∧
      (c.outcomes ks).map (·.mismatches) = outcomeJudgements (w.values v gs.length) gs := by
  induction hks generalizing c v with
  | nil =>
    refine ⟨?_, fun hpos => absurd hpos (by decide), rfl⟩
    rw [List.length_nil, Counting.value_zero]
    exact hv
  | @cons goesOn gs step branch ks ignored hstep hbranch rest ih =>
    -- The rest of the loop is one that was entered with the counter after this iteration.
    obtain ⟨hcounted, hjudged⟩ := iteration hm ht hstep hbranch hv
    obtain ⟨hregister, hsigns, hjudged'⟩ := ih hcounted.register
    rw [Counting.value_value, Nat.add_comm] at hregister hsigns
    refine ⟨hregister, fun _ => ?_, ?_⟩
    · by_cases hlast : gs = []
      · -- The flags are those of the only iteration there is.
        subst hlast
        cases rest
        exact hcounted
      · exact hsigns (List.length_pos_iff.mpr hlast)
    · show (c.outcomes ([step, branch] ++ ks)).map (·.mismatches) = _
      rw [outcomes_append, List.map_append, hjudged, hjudged', List.length_cons,
        Counting.values_succ, outcomeJudgements_cons]

/-- How a checker judges the trace of a counting loop. -/
structure LoopJudged (c : Checker) (ks : List Call) (r : Register) (w : Counting) (n : Byte)
    (gs : List Bool) : Prop where
  /-- The load raises no mismatch, nor does a count. A branch raises one, on Z, just when its
  outcome is not the one that the counter calls for, whatever the outcomes before it were. -/
  mismatches : (c.outcomes ks).map (·.mismatches) =
    [] :: outcomeJudgements (w.values n gs.length) gs
  /-- The register is counted through. -/
  register : (c.after ks).state.cells.register r = .known (w.value n gs.length)
  /-- After an iteration N and Z are those of the register. -/
  signs : 1 ≤ gs.length → (c.after ks).state.cells.n = .known (w.value n gs.length).msb ∧
    (c.after ks).state.cells.z = .known (w.value n gs.length == 0)
  /-- A loop that goes on at every branch but the last is accepted just when it has the length
  that the counter says. -/
  accepted : ∀ k, 1 ≤ k → gs = List.replicate (k - 1) true ++ [false] →
    (c.mismatches ks = [] ↔ k = w.length n)

/-- In the trace of a counting loop, whatever was known before it and however long it is, a
checker finds a mismatch at the branches with the wrong outcome and nowhere else. -/
theorem counting_loop_exact (c : Checker) {load count : Mnemonic} {r : Register} {w : Counting}
    (hm : Mnemonic.Counts load count r w) {t : OrderTest} (ht : t.flag = .Z) (n : Byte)
    {start : Call} (hstart : start.Reports load n) {gs : List Bool} {ks : List Call}
    (hks : Call.Iterations count t gs ks) : c.LoopJudged (start :: ks) r w n gs := by
  obtain ⟨mode, hcells⟩ := hstart.cells c
  obtain ⟨mode', hnone⟩ := hstart.mismatches c
  rw [hm.operation_load] at hcells hnone
  have hloaded : (c.call start).checker.state.cells.register r = .known n := by
    rw [hcells]
    show (Cells.setNZ _ _).register r = _
    rw [Cells.register_setNZ, Cells.register_setRegister, if_pos rfl]
  obtain ⟨hregister, hsigns, hjudged⟩ := iterations hm ht hks hloaded
  have hmismatches : (c.outcomes (start :: ks)).map (·.mismatches) =
      [] :: outcomeJudgements (w.values n gs.length) gs := by
    show (c.call start).mismatches :: ((c.call start).checker.outcomes ks).map (·.mismatches) = _
    rw [hnone, hjudged]
    rfl
  refine ⟨hmismatches, hregister, fun hpos => ⟨(hsigns hpos).negative, (hsigns hpos).zero⟩, ?_⟩
  intro k hk hgs
  obtain ⟨m, rfl⟩ : ∃ m, k = m + 1 := ⟨k - 1, by omega⟩
  have hlength : gs.length = m + 1 := by
    rw [hgs, List.length_append, List.length_replicate, List.length_singleton]
    rfl
  have hvalues : (w.values n gs.length).length = gs.length := by
    rw [Counting.values, List.length_map, List.length_range]
  rw [mismatches_eq_flatten, hmismatches, List.flatten_cons, List.nil_append,
    flatten_outcomeJudgements_eq_nil_iff hvalues, hlength, hgs]
  exact w.map_values_eq_iff n m

/-- A loop counts down from three and is told to end one iteration too early, and it is judged on
as if it had not been. Another one counts up from 254 with the other branch and ends after two
iterations. -/
theorem counting_loop_exact_early_end :
    let c := fresh {}
    let down : List Call := [.dispatch 0xA2 0x03, .dispatch 0xCA 0x00, .dispatch 0xD0 0x01,
      .dispatch 0xCA 0x00, .dispatch 0xD0 0x00,
      .observe 0xCA (.data 0x00), .observe 0xD0 (.branch false)]
    let up : List Call := [.dispatch 0xA4 0xFE, .dispatch 0xC8 0x00, .dispatch 0xF0 0x00,
      .dispatch 0xC8 0x00, .observe 0xF0 (.branch true)]
    ((c.outcomes down).map (·.mismatches) =
        [[], [], [], [], [⟨.flag .Z, 0x00, 0x01⟩], [], []] ∧
      (c.after down).state.cells.x = .known 0x00) ∧
    c.mismatches up = [] := by
  intro c down up
  have hloadX : Call.Reports (.dispatch 0xA2 0x03) .LDX 0x03 := ⟨0xA2, rfl, by decide⟩
  have hloadY : Call.Reports (.dispatch 0xA4 0xFE) .LDY 0xFE := ⟨0xA4, rfl, by decide⟩
  have hdown : Call.Iterations .DEX .different [true, false, false] down.tail :=
    .cons ⟨0xCA, rfl, by decide⟩ ⟨0x01, ⟨0xD0, rfl, by decide⟩, by decide⟩
      (.cons ⟨0xCA, rfl, by decide⟩ ⟨0x00, ⟨0xD0, rfl, by decide⟩, by decide⟩
        (.cons ⟨0xCA, rfl, by decide⟩ ⟨0x00, ⟨0xD0, rfl, by decide⟩, by decide⟩ .nil))
  have hup : Call.Iterations .INY .equal [true, false] up.tail :=
    .cons ⟨0xC8, rfl, by decide⟩ ⟨0x00, ⟨0xF0, rfl, by decide⟩, by decide⟩
      (.cons ⟨0xC8, rfl, by decide⟩ ⟨0x01, ⟨0xF0, rfl, by decide⟩, by decide⟩ .nil)
  have hjudged := counting_loop_exact c .downX rfl 0x03 hloadX hdown
  have hjudged' := counting_loop_exact c .upY rfl 0xFE hloadY hup
  refine ⟨⟨hjudged.mismatches.trans (by decide), hjudged.register.trans (by decide)⟩, ?_⟩
  exact (hjudged'.accepted 2 (by decide) rfl).mpr (by decide)

end Checker

end TraceCheck
