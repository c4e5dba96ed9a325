import TraceCheck.Instruction.Operation
import TraceCheck.Prediction

/-!
# `TraceCheck.Prediction.Evidence`: what an observation shows about the cells

Some observations tell what a cell held before the instruction ran: a byte stored or
pushed is the register it came from, a pushed status byte holds the six flags, and the
outcome of a conditional branch gives away the flag it tests. `Operation.evidence`
lists these facts. Evidence that contradicts a known cell is a mismatch; a cell that is
unknown contradicts nothing. Mismatches are found on the prediction as it stood before
the instruction, in the order in which the evidence is listed.
-/

set_option autoImplicit false

namespace TraceCheck

/-- The value that a cell is shown to hold, a flag counting as zero or one. -/
structure Evidence where
  /-- The cell. -/
  cell : Cell
  /-- Its value. -/
  value : Byte
deriving DecidableEq

/-- A known cell that is shown to hold another value. -/
structure Mismatch where
  /-- The cell. -/
  cell : Cell
  /-- The value that was known. -/
  predicted : Byte
  /-- The value that was observed. -/
  observed : Byte
deriving DecidableEq

/-- The flags that a pushed status byte shows. -/
def statusEvidence (status : Byte) : List Evidence :=
  Flag.all.map fun f => ⟨.flag f, Byte.ofBool (f.ofStatus status)⟩

/-- The value that a branch outcome implies for the flag it tests. -/
def impliedFlag (takenWhen taken : Bool) : Bool := if taken then takenWhen else !takenWhen

/-- What an operation's observed operand shows about the cells before it ran. For a
conditional branch every operand but zero means that it was taken. -/
def Operation.evidence (operand : Byte) : Operation → List Evidence
  | store r | push r => [⟨.register r, operand⟩]
  | pushStatus | breakInterrupt => statusEvidence operand
  | branch f takenWhen => [⟨.flag f, Byte.ofBool (impliedFlag takenWhen (operand != 0))⟩]
  | _ => []

namespace Cells

/-- The mismatch between a prediction and a piece of evidence, if there is one. -/
def conflict (p : Prediction) (e : Evidence) : Option Mismatch :=
  match p.look e.cell with
  | .known v => if v = e.value then none else some ⟨e.cell, v, e.value⟩
  | .unknown => none

/-- All mismatches between a prediction and the evidence, in order. -/
def mismatches (p : Prediction) (evidence : List Evidence) : List Mismatch :=
  evidence.filterMap p.conflict

@[simp] theorem mismatches_nil (p : Prediction) : p.mismatches [] = [] := rfl

/-- A conflict names a known cell, its known value and a different observed one. -/
theorem conflict_eq_some_iff {p : Prediction} {e : Evidence} {m : Mismatch} :
    p.conflict e = some m ↔
      m.cell = e.cell ∧ m.observed = e.value ∧ p.look e.cell = .known m.predicted ∧
        m.predicted ≠ m.observed := by
  rcases m with ⟨c, v, w⟩
  unfold conflict
  cases p.look e.cell with
  | unknown => simp
  | known u =>
    simp only [Knowledge.known.injEq]
    split
    · next h => simp only [reduceCtorEq, false_iff]; rintro ⟨-, rfl, rfl, hne⟩; exact hne h
    · next h =>
      simp only [Option.some.injEq, Mismatch.mk.injEq]
      constructor
      · rintro ⟨rfl, rfl, rfl⟩; exact ⟨rfl, rfl, rfl, h⟩
      · rintro ⟨rfl, rfl, rfl, -⟩; exact ⟨rfl, rfl, rfl⟩

/-- A single piece of evidence on a known cell is a mismatch just when it shows another value. -/
theorem mismatches_singleton {p : Prediction} {e : Evidence} {v : Byte}
    (h : p.look e.cell = .known v) :
    p.mismatches [e] = if v = e.value then [] else [⟨e.cell, v, e.value⟩] := by
  have hconflict : p.conflict e = if v = e.value then none else some ⟨e.cell, v, e.value⟩ := by
    unfold conflict
    rw [h]
  unfold mismatches
  by_cases hv : v = e.value
  · rw [if_pos hv] at hconflict ⊢
    exact List.filterMap_cons_none hconflict
  · rw [if_neg hv] at hconflict ⊢
    exact List.filterMap_cons_some hconflict

end Cells

end TraceCheck
