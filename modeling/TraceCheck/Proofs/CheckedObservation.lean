import Mathlib.Data.List.Forall2
import TraceCheck.Proofs.Activity
import TraceCheck.Session

/-!
# `TraceCheck.Proofs.CheckedObservation`: an observation is a dispatch or nothing

There are two ways to tell a checker of an instruction. `dispatch` takes any byte, and
`observe` asks first whether the observation is of the kind that the opcode takes. This
module says that the question is all that `observe` adds. It is answered by the operation
alone: an outcome belongs to a conditional branch and a byte to everything else
(`Observation.fits`). The catalog has a column for the kinds of observation beside the
column of operations, and `Instruction.observed_eq_branch_iff` proves that the two agree.

An observation that fits is a dispatch (`call_observe_of_fits`), and one that does not fit
changes nothing and logs nothing (`call_observe_of_not_fits`). So a list of observations,
with the refusals ignored, is a list of dispatches (`after_observations`), and whoever
dispatches a branch may choose any byte but zero to say that it was taken
(`outcomes_sameOutcome`). A session passes its branches on to `observe`, and what holds of a
checker holds of its session.
-/

set_option autoImplicit false

namespace TraceCheck

/-! ### Which observations fit -/

/-- Whether an operation is a conditional branch. -/
def Operation.isBranch : Operation → Bool
  | branch _ _ => true
  | _ => false

namespace Observation

/-- Whether an observation is an outcome and not a byte. -/
def isBranch : Observation → Bool
  | branch _ => true
  | data _ => false

/-- The byte that an observation is dispatched with. -/
def operand : Observation → Byte
  | data b => b
  | branch taken => Byte.ofBool taken

/-- An outcome fits the conditional branches and a byte fits all other opcodes. -/
def fits (opcode : Byte) (o : Observation) : Bool :=
  (Instruction.decode opcode).operation.isBranch == o.isBranch

end Observation

/-- The refusal of an observation that does not fit. -/
def Rejection.ofOpcode (opcode : Byte) : Rejection :=
  { opcode := opcode
    mnemonic := (Instruction.decode opcode).mnemonic
    expected := (Instruction.decode opcode).observed }

/-- The mnemonics that transfer control without a flag, or on a bit of memory. -/
def Mnemonic.jumpsUnmodeled : Mnemonic → Bool
  | BRA | JMP | BBR _ | BBS _ => true
  | _ => false

namespace Instruction

/-- The kind of observation that the catalog lists for an instruction is an outcome just when
its operation is a conditional branch. -/
theorem observed_eq_branch_iff (i : Instruction) :
    i.observed = .branch ↔ i.operation.isBranch = true := by
  obtain ⟨mnemonic, mode⟩ := i
  cases mnemonic with
  | BIT =>
    -- The operation of `BIT` depends on the mode, and it is no branch in any of them.
    refine iff_of_false (fun h => by cases h) ?_
    show (if mode = .immediate then Operation.bitTestConstant else .bitTest).isBranch ≠ true
    split <;> exact Bool.false_ne_true
  | BPL | BMI | BVC | BVS | BCC | BCS | BNE | BEQ => exact iff_of_true rfl rfl
  | _ => exact iff_of_false (fun h => by cases h) Bool.false_ne_true

theorem isBranch_of_jumpsUnmodeled {i : Instruction} (h : i.mnemonic.jumpsUnmodeled = true) :
    i.operation.isBranch = false := by
  obtain ⟨mnemonic, mode⟩ := i
  cases mnemonic with
  | BRA | JMP | BBR _ | BBS _ => rfl
  | _ => cases h

end Instruction

theorem Observation.operand?_eq (kind : ObservationKind) (o : Observation) :
    o.operand? kind = if decide (kind = .branch) == o.isBranch then some o.operand else none := by
  cases kind <;> cases o <;> rfl

namespace Checker

/-! ### One observation -/

theorem observe_eq (c : Checker) (opcode : Byte) (o : Observation) :
    c.observe opcode o =
      if o.fits opcode then .ok (c.dispatch opcode o.operand)
      else .error (Rejection.ofOpcode opcode) := by
  have hkind : decide ((Instruction.decode opcode).observed = .branch) =
      (Instruction.decode opcode).operation.isBranch := by
    rw [Bool.eq_iff_iff, decide_eq_true_iff]
    exact Instruction.observed_eq_branch_iff _
  have hoperand : o.operand? (Instruction.decode opcode).observed =
      if o.fits opcode then some o.operand else none := by
    rw [Observation.operand?_eq, hkind]
    rfl
  unfold observe
  simp only [hoperand]
  cases o.fits opcode <;> rfl

/-- An observation that fits is a dispatch. -/
theorem call_observe_of_fits (c : Checker) {opcode : Byte} {o : Observation}
    (h : o.fits opcode = true) :
    c.call (.observe opcode o) = c.call (.dispatch opcode o.operand) := by
  simp only [call, observe_eq, if_pos h]

/-- An observation that does not fit is refused, and nothing happens. -/
theorem call_observe_of_not_fits (c : Checker) {opcode : Byte} {o : Observation}
    (h : o.fits opcode = false) :
    c.call (.observe opcode o) = c.answer (.rejected (Rejection.ofOpcode opcode)) := by
  simp only [call, observe_eq, h, Bool.false_eq_true, if_false]

end Checker

/-! ### Lists of observations -/

/-- The calls that observe a list of opcodes with their observations. -/
def observations (ps : List (Byte × Observation)) : List Call :=
  ps.map fun p => .observe p.1 p.2

/-- The calls that dispatch those of the list that fit, in order. -/
def acceptedDispatches (ps : List (Byte × Observation)) : List Call :=
  (ps.filter fun p => p.2.fits p.1).map fun p => .dispatch p.1 p.2.operand

theorem acceptedDispatches_cons (p : Byte × Observation) (ps : List (Byte × Observation)) :
    acceptedDispatches (p :: ps) =
      if p.2.fits p.1 then .dispatch p.1 p.2.operand :: acceptedDispatches ps
      else acceptedDispatches ps := by
  unfold acceptedDispatches
  rw [List.filter_cons]
  split <;> rfl

namespace Checker

/-- To observe a list, whatever is refused, is to dispatch what fits. -/
theorem after_observations (c : Checker) (ps : List (Byte × Observation)) :
    c.after (observations ps) = c.after (acceptedDispatches ps) ∧
      c.log (observations ps) = c.log (acceptedDispatches ps) := by
  induction ps generalizing c with
  | nil => exact ⟨rfl, rfl⟩
  | cons p ps ih =>
    show (c.call (.observe p.1 p.2)).checker.after (observations ps) = _ ∧
      (c.call (.observe p.1 p.2)).events ++
        (c.call (.observe p.1 p.2)).checker.log (observations ps) = _
    rw [acceptedDispatches_cons]
    cases hp : p.2.fits p.1 with
    | true =>
      obtain ⟨hafter, hlog⟩ := ih (c.call (.dispatch p.1 p.2.operand)).checker
      rw [call_observe_of_fits c hp, if_pos rfl, after_cons, log_cons, hafter, hlog]
      exact ⟨rfl, rfl⟩
    | false =>
      rw [call_observe_of_not_fits c hp, if_neg Bool.false_ne_true]
      exact ih c

end Checker

/-! ### The operands of taken branches -/

/-- Two calls are the same, or they dispatch one conditional branch with two bytes that both
say that it was taken. -/
inductive Call.SameOutcome : Call → Call → Prop
  | same (k : Call) : SameOutcome k k
  | taken {opcode b b' : Byte} (hop : (Instruction.decode opcode).operation.isBranch = true)
      (hb : b ≠ 0) (hb' : b' ≠ 0) : SameOutcome (.dispatch opcode b) (.dispatch opcode b')

/-- Of the operand of a branch only one bit is used. -/
theorem Operation.branch_congr {op : Operation} (hop : op.isBranch = true) {b b' : Byte}
    (hb : b ≠ 0) (hb' : b' ≠ 0) (settings : Settings) (p : Prediction) :
    op.evidence b = op.evidence b' ∧ op.effect settings b p = op.effect settings b' p := by
  have hbit : (b != 0) = (b' != 0) := by
    rw [bne_iff_ne.mpr hb, bne_iff_ne.mpr hb']
  cases op with
  | branch f takenWhen =>
    constructor
    · simp only [evidence, hbit]
    · simp only [effect, hbit]
  | _ => cases hop

namespace Checker

theorem call_sameOutcome (c : Checker) {k l : Call} (h : k.SameOutcome l) :
    (c.call k).checker = (c.call l).checker ∧ (c.call k).mismatches = (c.call l).mismatches := by
  cases h with
  | same => exact ⟨rfl, rfl⟩
  | @taken opcode b b' hop hb hb' =>
    obtain ⟨hevidence, heffect⟩ := Operation.branch_congr hop hb hb' c.settings c.state.cells
    have hmismatches : (c.call (.dispatch opcode b)).mismatches =
        (c.call (.dispatch opcode b')).mismatches := by
      rw [mismatches_call, mismatches_call]
      show c.state.cells.mismatches _ = c.state.cells.mismatches _
      exact congrArg c.state.cells.mismatches hevidence
    refine ⟨?_, hmismatches⟩
    show (c.dispatch opcode b).checker = (c.dispatch opcode b').checker
    simp only [dispatch, takeIn, hevidence, heffect]

/-- Two runs that differ in the operands of taken branches go through the same states and
log the same mismatches at each call. -/
theorem outcomes_sameOutcome (c : Checker) {ks ls : List Call}
    (h : List.Forall₂ Call.SameOutcome ks ls) :
    (c.outcomes ks).map (·.checker) = (c.outcomes ls).map (·.checker) ∧
      (c.outcomes ks).map (·.mismatches) = (c.outcomes ls).map (·.mismatches) := by
  induction h generalizing c with
  | nil => exact ⟨rfl, rfl⟩
  | cons hkl _ ih =>
    obtain ⟨hchecker, hmismatches⟩ := c.call_sameOutcome hkl
    simp only [outcomes, List.map_cons]
    rw [hchecker, hmismatches, (ih _).1, (ih _).2]
    exact ⟨rfl, rfl⟩

end Checker

/-! ### Sessions -/

/-- The calls that a request makes on the checker. -/
def Request.calls : Request → List Call
  | dispatch opcode operand => [.dispatch opcode operand]
  | branch opcode taken => [.observe opcode (.branch taken)]
  | interrupt status => [.interrupt status]
  | render => [.render]
  | reset => [.reset]
  | mnemonic _ | length _ | format _ _ _ => []

namespace Session

/-- The checker of a session after requests. -/
def after (requests : List Request) : Checker := requests.foldl (fun c r => (handle c r).1) start

theorem checker_handle (c : Checker) (r : Request) : (handle c r).1 = c.after r.calls := by
  cases r with
  | format opcode operands label =>
    simp only [handle]
    split <;> rfl
  | _ => rfl

/-- Requests do to the checker of a session what their calls do. -/
theorem foldl_handle (c : Checker) (requests : List Request) :
    requests.foldl (fun c r => (handle c r).1) c = c.after (requests.flatMap Request.calls) := by
  induction requests generalizing c with
  | nil => rfl
  | cons r rs ih =>
    rw [List.foldl_cons, ih, checker_handle, List.flatMap_cons, Checker.after_append]

theorem settings_after (requests : List Request) : (after requests).settings = {} := by
  unfold after
  rw [foldl_handle, Checker.settings_after]
  rfl

theorem calls_branches (ps : List (Byte × Bool)) :
    (ps.map fun p => Request.branch p.1 p.2).flatMap Request.calls =
      observations (ps.map fun p => (p.1, .branch p.2)) := by
  induction ps with
  | nil => rfl
  | cons p ps ih =>
    rw [List.map_cons, List.flatMap_cons, ih]
    rfl

/-- A session takes an outcome for a conditional branch, as a dispatch of one or zero, and
refuses it for every other opcode, with nothing changed. -/
structure ChecksBranch (requests : List Request) (opcode : Byte) (taken : Bool) : Prop where
  /-- The session has the default settings. -/
  settings : (after requests).settings = {}
  /-- It passes the outcome on to its checker. -/
  passed : handle (after requests) (.branch opcode taken) =
    pass (after requests) (.observe opcode (.branch taken))
  accepted : (Instruction.decode opcode).operation.isBranch = true →
    handle (after requests) (.branch opcode taken) =
      (((after requests).dispatch opcode (Byte.ofBool taken)).checker, .done)
  refused : (Instruction.decode opcode).operation.isBranch = false →
    handle (after requests) (.branch opcode taken) =
      (after requests, .failed (Rejection.ofOpcode opcode).message)

theorem checksBranch (requests : List Request) (opcode : Byte) (taken : Bool) :
    ChecksBranch requests opcode taken := by
  refine ⟨settings_after requests, rfl, fun hop => ?_, fun hop => ?_⟩
  · have hfits : (Observation.branch taken).fits opcode = true := by
      unfold Observation.fits
      rw [hop]
      rfl
    show pass (after requests) (.observe opcode (.branch taken)) = _
    unfold pass
    rw [Checker.call_observe_of_fits _ hfits]
    rfl
  · have hfits : (Observation.branch taken).fits opcode = false := by
      unfold Observation.fits
      rw [hop]
      rfl
    show pass (after requests) (.observe opcode (.branch taken)) = _
    unfold pass
    rw [Checker.call_observe_of_not_fits _ hfits]
    rfl

/-- Branches given to a session are dispatched if they fit and ignored otherwise. -/
theorem after_branches (requests : List Request) (ps : List (Byte × Bool)) :
    after (requests ++ ps.map fun p => .branch p.1 p.2) =
        (after requests).after (acceptedDispatches (ps.map fun p => (p.1, .branch p.2))) ∧
      (after requests).log ((ps.map fun p => Request.branch p.1 p.2).flatMap Request.calls) =
        (after requests).log (acceptedDispatches (ps.map fun p => (p.1, .branch p.2))) := by
  obtain ⟨hafter, hlog⟩ :=
    (after requests).after_observations (ps.map fun p => (p.1, .branch p.2))
  rw [calls_branches, ← hafter, hlog]
  refine ⟨?_, rfl⟩
  unfold after
  rw [List.foldl_append, foldl_handle _ (ps.map _), calls_branches]

end Session

/-! ### The checked way and the unchecked way -/

namespace Checker

/-- What an observation of an opcode comes to. -/
structure DispatchedOrRefused (c : Checker) (opcode : Byte) (o : Observation) : Prop where
  /-- It is accepted just when it is an outcome and the operation a conditional branch, or
  neither. -/
  accepted_iff : (∃ step, c.observe opcode o = .ok step) ↔
    (Instruction.decode opcode).operation.isBranch = o.isBranch
  /-- Jumps and branches that depend on no flag take bytes only. -/
  jumps : (Instruction.decode opcode).mnemonic.jumpsUnmodeled = true →
    ((∃ step, c.observe opcode o = .ok step) ↔ o.isBranch = false)
  /-- If it is accepted, it is the dispatch of its byte, or of one or zero for an outcome. -/
  dispatched : (Instruction.decode opcode).operation.isBranch = o.isBranch →
    c.observe opcode o = .ok (c.dispatch opcode o.operand) ∧
      c.call (.observe opcode o) = c.call (.dispatch opcode o.operand)
  /-- If it is not, the refusal names the opcode, its mnemonic and the kind that the catalog
  lists, and nothing is changed or logged. -/
  refused : (Instruction.decode opcode).operation.isBranch ≠ o.isBranch →
    let r : Rejection :=
      { opcode := opcode
        mnemonic := (Instruction.decode opcode).mnemonic
        expected := (Instruction.decode opcode).observed }
    c.observe opcode o = .error r ∧
      c.call (.observe opcode o) = { checker := c, events := [], reply := .rejected r }

theorem dispatchedOrRefused (c : Checker) (opcode : Byte) (o : Observation) :
    c.DispatchedOrRefused opcode o := by
  have haccepted : (∃ step, c.observe opcode o = .ok step) ↔
      (Instruction.decode opcode).operation.isBranch = o.isBranch := by
    rw [observe_eq]
    unfold Observation.fits
    by_cases h : (Instruction.decode opcode).operation.isBranch = o.isBranch
    · simp [h]
    · simp [h]
  refine ⟨haccepted, fun hjump => ?_, fun hfits => ?_, fun hfits => ?_⟩
  · rw [haccepted, Instruction.isBranch_of_jumpsUnmodeled hjump]
    exact eq_comm
  · have hfits' : o.fits opcode = true := beq_iff_eq.mpr hfits
    refine ⟨?_, c.call_observe_of_fits hfits'⟩
    rw [observe_eq, if_pos hfits']
  · have hfits' : o.fits opcode = false := beq_eq_false_iff_ne.mpr hfits
    refine ⟨?_, c.call_observe_of_not_fits hfits'⟩
    rw [observe_eq, hfits', if_neg Bool.false_ne_true]
    rfl

/-- The checked way to tell a checker of an instruction is the unchecked way or nothing: for
one observation, for a list of them with the refusals ignored, and for the branches of a
session. Of a taken branch no more is used than that its operand is not zero. -/
theorem observe_is_dispatch_or_nothing (c : Checker) (requests : List Request) :
    (∀ opcode o, c.DispatchedOrRefused opcode o) ∧
    (∀ ps : List (Byte × Observation),
      c.after (observations ps) = c.after (acceptedDispatches ps) ∧
        c.log (observations ps) = c.log (acceptedDispatches ps)) ∧
    (∀ ks ls : List Call, List.Forall₂ Call.SameOutcome ks ls →
      (c.outcomes ks).map (·.checker) = (c.outcomes ls).map (·.checker) ∧
        (c.outcomes ks).map (·.mismatches) = (c.outcomes ls).map (·.mismatches)) ∧
    (∀ opcode taken, Session.ChecksBranch requests opcode taken) ∧
    ∀ ps : List (Byte × Bool),
      Session.after (requests ++ ps.map fun p => .branch p.1 p.2) =
          (Session.after requests).after
            (acceptedDispatches (ps.map fun p => (p.1, .branch p.2))) ∧
        (Session.after requests).log
            ((ps.map fun p => Request.branch p.1 p.2).flatMap Request.calls) =
          (Session.after requests).log
            (acceptedDispatches (ps.map fun p => (p.1, .branch p.2))) := by
  refine ⟨c.dispatchedOrRefused, c.after_observations, fun ks ls h => ?_,
    Session.checksBranch requests, Session.after_branches requests⟩
  exact c.outcomes_sameOutcome h

end Checker

end TraceCheck
