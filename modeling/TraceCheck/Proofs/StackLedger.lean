import Mathlib.Algebra.Ring.Int.Defs
import TraceCheck.Proofs.Detection
import TraceCheck.Proofs.ValueIndependence

/-!
# `TraceCheck.Proofs.StackLedger`: the stack pointer as a running balance

Every instruction that moves the stack pointer moves it by a fixed number of bytes, and so
does an interrupt. Only TXS gives it a value from elsewhere, and only a reset forgets it. In
a run without these two the stack pointer is therefore known by bookkeeping: one entry for
each call (`Call.stackOffset`), and the sum of the entries tells where the pointer has gone,
modulo 256 (`stack_after`). The observed bytes and the mismatches play no part.

A body whose entries cancel out is `Balanced`, and it stays so when it is put between a call
that saves something and the call that restores it (`Call.SavesRegister.balanced`,
`Call.SavesStatus.balanced`). So handlers nest as deep as one likes. Around a balanced body a
register comes back with the byte that was pushed, and the flags come back with the bits of
the status byte, also those that an interrupt forces in between. If the status byte
contradicted nothing when it was pushed, these are the flags that were known at the time.
-/

set_option autoImplicit false

namespace TraceCheck

/-! ### The entries -/

/-- A move by no bytes is none. -/
theorem Knowledge.map_add_ofInt_zero (k : Knowledge Byte) :
    k.map (· + BitVec.ofInt 8 0) = k := by
  cases k with
  | known b => exact congrArg known (BitVec.add_zero b)
  | unknown => rfl

/-- How far an instruction moves the stack pointer, if it is not TXS. -/
def Mnemonic.stackOffset : Mnemonic → Int
  | PHA | PHX | PHY | PHP => -1
  | PLA | PLX | PLY | PLP => 1
  | JSR => -2
  | RTS => 2
  | RTI => 3
  | BRK => -3
  | _ => 0

/-- How far an activity moves the stack pointer. A hardware interrupt pushes a return address
and the status, as BRK does. -/
def Activity.stackOffset : Activity → Int
  | instruction opcode _ => (Instruction.decode opcode).mnemonic.stackOffset
  | interrupt _ => -3

/-- The entry of an instruction is how far its operation moves the stack pointer. -/
theorem Instruction.register_effect_S (i : Instruction) (settings : Settings) (operand : Byte)
    (p : Prediction) (hi : i.mnemonic ≠ .TXS) :
    (i.operation.effect settings operand p).register .S =
      (p.register .S).map (· + BitVec.ofInt 8 i.mnemonic.stackOffset) := by
  obtain ⟨mnemonic, mode⟩ := i
  -- An instruction without an entry leaves the stack pointer alone.
  have hkeep : ∀ op : Operation, (op.effect settings operand p).register .S = p.register .S →
      (op.effect settings operand p).register .S =
        (p.register .S).map (· + BitVec.ofInt 8 0) := by
    intro op hop
    rw [hop, Knowledge.map_add_ofInt_zero]
  -- Shifts and counts apply to the accumulator or to memory.
  have htarget : ∀ op : Target → Operation,
      ((op (.register .A)).effect settings operand p).register .S = p.register .S →
      ((op .memory).effect settings operand p).register .S = p.register .S →
      ((op mode.target).effect settings operand p).register .S =
        (p.register .S).map (· + BitVec.ofInt 8 0) := by
    intro op haccumulator hmemory
    cases mode with
    | accumulator => exact hkeep _ haccumulator
    | _ => exact hkeep _ hmemory
  cases mnemonic with
  | TXS => exact absurd rfl hi
  | PHA | PHX | PHY | PHP | PLA | PLX | PLY | PLP | JSR | RTS | RTI => rfl
  | BRK => exact Cells.register_interrupt p settings.variant operand .S
  | ASL => exact htarget (.shift .left) rfl rfl
  | LSR => exact htarget (.shift .right) rfl rfl
  | ROL => exact htarget (.rotate .left) rfl rfl
  | ROR => exact htarget (.rotate .right) rfl rfl
  | INC => exact htarget .increment rfl rfl
  | DEC => exact htarget .decrement rfl rfl
  | BIT =>
    refine hkeep (if mode = .immediate then Operation.bitTestConstant else Operation.bitTest) ?_
    split <;> rfl
  | _ => exact hkeep _ rfl

namespace Call

/-- The entry of a call. A call that reports no activity does not move the stack pointer. -/
def stackOffset (k : Call) : Int := k.activity.elim 0 Activity.stackOffset

/-- The call is neither a reset nor a TXS. -/
def Booked (k : Call) : Prop := k ≠ .reset ∧ ¬ k.IsTXS

namespace Reports

variable {k : Call} {m : Mnemonic} {b : Byte}

theorem stackOffset (h : k.Reports m b) : k.stackOffset = m.stackOffset := by
  obtain ⟨opcode, hk, rfl⟩ := h
  unfold Call.stackOffset
  rw [hk]
  rfl

theorem booked (h : k.Reports m b) (hm : m ≠ .TXS) : k.Booked := by
  obtain ⟨opcode, hk, rfl⟩ := h
  refine ⟨ne_reset_of_active hk, ?_⟩
  rintro ⟨opcode', operand', hk', hTXS⟩
  rw [hk] at hk'
  cases hk'
  exact hm hTXS

end Reports

end Call

/-! ### The balance of a run -/

/-- How far a run moves the stack pointer. -/
def stackBalance (ks : List Call) : Int := (ks.map Call.stackOffset).sum

@[simp] theorem stackBalance_nil : stackBalance [] = 0 := rfl

@[simp] theorem stackBalance_cons (k : Call) (ks : List Call) :
    stackBalance (k :: ks) = k.stackOffset + stackBalance ks := by
  simp [stackBalance]

@[simp] theorem stackBalance_append (ks ls : List Call) :
    stackBalance (ks ++ ls) = stackBalance ks + stackBalance ls := by
  simp [stackBalance]

namespace Checker

/-- A call moves the stack pointer by its entry. -/
theorem stack_call (c : Checker) {k : Call} (hk : k.Booked) :
    (c.call k).checker.state.cells.s =
      c.state.cells.s.map (· + BitVec.ofInt 8 k.stackOffset) := by
  obtain ⟨hreset, hTXS⟩ := hk
  unfold Call.stackOffset
  rw [cells_call]
  cases ha : k.activity with
  | some a =>
    cases a with
    | instruction opcode operand =>
      refine Instruction.register_effect_S _ c.settings operand c.state.cells ?_
      intro hm
      exact hTXS ⟨opcode, operand, ha, hm⟩
    | interrupt status =>
      exact Cells.register_interrupt c.state.cells c.settings.variant status .S
  | none =>
    simp only [if_neg hreset]
    exact (Knowledge.map_add_ofInt_zero _).symm

/-- A run moves the stack pointer by its balance, modulo 256. -/
theorem stack_after (c : Checker) {ks : List Call} (hks : ∀ k ∈ ks, k.Booked) :
    (c.after ks).state.cells.s =
      c.state.cells.s.map fun b => BitVec.ofInt 8 (b.toNat + stackBalance ks) := by
  -- The balance may run past either end of the byte, so bytes are added and not numbers.
  have hbytes : (c.after ks).state.cells.s =
      c.state.cells.s.map (· + BitVec.ofInt 8 (stackBalance ks)) := by
    induction ks generalizing c with
    | nil => exact (Knowledge.map_add_ofInt_zero _).symm
    | cons k ks ih =>
      rw [List.forall_mem_cons] at hks
      obtain ⟨hk, hks⟩ := hks
      rw [after_cons, ih _ hks, stack_call c hk, Knowledge.map_map]
      simp only [stackBalance_cons, BitVec.ofInt_add, BitVec.add_assoc]
  rw [hbytes]
  simp [BitVec.ofInt_add]

end Checker

/-! ### Balanced bodies -/

/-- A run without a reset and without TXS that pulls as much as it pushes. -/
structure Balanced (ks : List Call) : Prop where
  /-- All calls have entries. -/
  booked : ∀ k ∈ ks, k.Booked
  /-- The entries cancel out. -/
  settled : stackBalance ks = 0

namespace Balanced

variable {ks : List Call}

/-- A balanced body between two calls that cancel out. -/
theorem enclose (h : Balanced ks) {enter leave : Call} (henter : enter.Booked)
    (hleave : leave.Booked) (hcancel : enter.stackOffset + leave.stackOffset = 0) :
    Balanced (enter :: ks ++ [leave]) where
  booked := by
    rw [List.forall_mem_append, List.forall_mem_cons, List.forall_mem_singleton]
    exact ⟨⟨henter, h.booked⟩, hleave⟩
  settled := by
    rw [stackBalance_append, stackBalance_cons, stackBalance_cons, h.settled, stackBalance_nil]
    omega

/-- A balanced body leaves the stack pointer where it was, known or not. -/
theorem stack_eq (h : Balanced ks) (c : Checker) :
    (c.after ks).state.cells.s = c.state.cells.s := by
  rw [c.stack_after h.booked, h.settled]
  cases c.state.cells.s <;> simp

end Balanced

/-! ### Saving and restoring -/

namespace Call

/-- A push of a register and a pull of the same register, of which the same byte was
observed. -/
inductive SavesRegister (v : Byte) : Register → Call → Call → Prop where
  | accumulator {enter leave : Call} (henter : enter.Reports .PHA v)
      (hleave : leave.Reports .PLA v) : SavesRegister v .A enter leave
  | indexX {enter leave : Call} (henter : enter.Reports .PHX v)
      (hleave : leave.Reports .PLX v) : SavesRegister v .X enter leave
  | indexY {enter leave : Call} (henter : enter.Reports .PHY v)
      (hleave : leave.Reports .PLY v) : SavesRegister v .Y enter leave

/-- The status is pushed, by itself or on the way into a handler, and the byte that was
observed then is pulled again. -/
inductive SavesStatus (b : Byte) : Call → Call → Prop where
  | push {enter leave : Call} (henter : enter.Reports .PHP b) (hleave : leave.Reports .PLP b) :
      SavesStatus b enter leave
  | software {enter leave : Call} (henter : enter.Reports .BRK b)
      (hleave : leave.Reports .RTI b) : SavesStatus b enter leave
  | hardware {enter leave : Call} (henter : enter.activity = some (.interrupt b))
      (hleave : leave.Reports .RTI b) : SavesStatus b enter leave

theorem booked_of_interrupt {k : Call} {status : Byte}
    (h : k.activity = some (.interrupt status)) : k.Booked := by
  refine ⟨ne_reset_of_active h, ?_⟩
  rintro ⟨opcode, operand, hk, -⟩
  rw [h] at hk
  cases hk

theorem stackOffset_of_interrupt {k : Call} {status : Byte}
    (h : k.activity = some (.interrupt status)) : k.stackOffset = -3 := by
  unfold stackOffset
  rw [h]
  rfl

variable {enter leave : Call} {body : List Call}

namespace SavesRegister

variable {v : Byte} {r : Register}

theorem balanced (h : SavesRegister v r enter leave) (hbody : Balanced body) :
    Balanced (enter :: body ++ [leave]) := by
  cases h with
  | accumulator henter hleave | indexX henter hleave | indexY henter hleave =>
    refine hbody.enclose (henter.booked (by decide)) (hleave.booked (by decide)) ?_
    rw [henter.stackOffset, hleave.stackOffset]
    rfl

theorem restored (h : SavesRegister v r enter leave) (c : Checker) :
    (c.call leave).checker.state.cells.register r = .known v := by
  cases h with
  | accumulator henter hleave | indexX henter hleave | indexY henter hleave =>
    obtain ⟨mode, hcells⟩ := hleave.cells c
    rw [hcells]
    rfl

end SavesRegister

namespace SavesStatus

variable {b : Byte}

theorem balanced (h : SavesStatus b enter leave) (hbody : Balanced body) :
    Balanced (enter :: body ++ [leave]) := by
  cases h with
  | push henter hleave | software henter hleave =>
    refine hbody.enclose (henter.booked (by decide)) (hleave.booked (by decide)) ?_
    rw [henter.stackOffset, hleave.stackOffset]
    rfl
  | hardware henter hleave =>
    refine hbody.enclose (booked_of_interrupt henter) (hleave.booked (by decide)) ?_
    rw [stackOffset_of_interrupt henter, hleave.stackOffset]
    rfl

/-- The pulled byte decides all flags, whatever was known of them. -/
theorem restored (h : SavesStatus b enter leave) (c : Checker) (f : Flag) :
    (c.call leave).checker.state.cells.flag f = .known (f.ofStatus b) := by
  cases h with
  | push henter hleave | software henter hleave | hardware henter hleave =>
    obtain ⟨mode, hcells⟩ := hleave.cells c
    rw [hcells]
    simp [Instruction.operation, Operation.effect]

theorem mismatches (h : SavesStatus b enter leave) (c : Checker) :
    (c.call enter).mismatches = c.state.cells.mismatches (statusEvidence b) := by
  cases h with
  | push henter hleave | software henter hleave =>
    obtain ⟨mode, hmismatches⟩ := henter.mismatches c
    exact hmismatches
  | hardware henter hleave =>
    rw [Checker.mismatches_call, henter]
    rfl

end SavesStatus

end Call

namespace Checker

/-- What a checker knows of the stack pointer after a run, and of what was saved and restored
in a run. -/
structure StackKept (c : Checker) : Prop where
  /-- The stack pointer is known just when it was before, and has moved by the balance. -/
  pointer : ∀ ks, (∀ k ∈ ks, k.Booked) → (c.after ks).state.cells.s =
    c.state.cells.s.map fun b => BitVec.ofInt 8 (b.toNat + stackBalance ks)
  /-- A register that was saved is known to be what was saved. -/
  register : ∀ v r enter body leave, Call.SavesRegister v r enter leave → Balanced body →
    (c.after (enter :: body ++ [leave])).state.cells.s = c.state.cells.s ∧
      (c.after (enter :: body ++ [leave])).state.cells.register r = .known v
  /-- The flags are known to be those of the status byte that was saved. -/
  status : ∀ b enter body leave, Call.SavesStatus b enter leave → Balanced body →
    (c.after (enter :: body ++ [leave])).state.cells.s = c.state.cells.s ∧
      ∀ f, (c.after (enter :: body ++ [leave])).state.cells.flag f = .known (f.ofStatus b)
  /-- If no mismatch was found when it was saved, what was known of the flags is still true. -/
  transparent : ∀ b enter body leave, Call.SavesStatus b enter leave → Balanced body →
    (c.call enter).mismatches = [] → ∀ f v, c.state.cells.flag f = .known v →
      (c.after (enter :: body ++ [leave])).state.cells.flag f = .known v

/-- Without TXS and without a reset the stack pointer moves by the sum of fixed offsets, also
past either end of its page and in spite of mismatches. Saving and restoring around a balanced
body therefore lead back to the same stack pointer, with the saved register or with the saved
flags. -/
theorem stack_kept (c : Checker) : c.StackKept where
  pointer _ hks := c.stack_after hks
  register v r enter body leave h hbody := by
    refine ⟨(h.balanced hbody).stack_eq c, ?_⟩
    rw [after_append]
    exact h.restored _
  status b enter body leave h hbody := by
    refine ⟨(h.balanced hbody).stack_eq c, fun f => ?_⟩
    rw [after_append]
    exact h.restored _ f
  transparent b enter body leave h hbody hsilent f v hf := by
    rw [h.mismatches] at hsilent
    rw [after_append, Cells.eq_ofStatus_of_no_mismatch hsilent hf]
    exact h.restored _ f

/-- A handler that starts near the bottom of the stack, with a nested BRK inside a saved
accumulator. The stack pointer runs through zero and comes back, and so do D and I, though the
interrupt forces both, and though in the handler a stored byte contradicts what is known. -/
theorem stack_kept_around_handler :
    let c := (fresh {}).after
      [.dispatch 0xA2 0x01, .dispatch 0x9A 0x00, .dispatch 0xF8 0x00, .dispatch 0x58 0x00]
    let body : List Call := .dispatch 0x48 0x07 ::
      (.dispatch 0x00 0x34 :: [.dispatch 0x85 0x09] ++ [.dispatch 0x40 0x34]) ++
      [.dispatch 0x68 0x07]
    let inside := c.after (.interrupt 0x28 :: body)
    let handled := c.after (.interrupt 0x28 :: body ++ [.dispatch 0x40 0x28])
    (inside.state.cells.s = .known 0xFE ∧ inside.state.cells.register .A = .known 0x07 ∧
      c.mismatches (.interrupt 0x28 :: body) = [⟨.register .A, 0x07, 0x09⟩]) ∧
    handled.state.cells.s = .known 0x01 ∧ handled.state.cells.flag .D = .known true ∧
      handled.state.cells.flag .I = .known false := by
  intro c body inside handled
  have hstore : Balanced [.dispatch 0x85 0x09] :=
    ⟨List.forall_mem_singleton.mpr
      (Call.Reports.booked (m := .STA) (b := 0x09) ⟨0x85, rfl, by decide⟩ (by decide)), by decide⟩
  have hnested : Call.SavesStatus 0x34 (.dispatch 0x00 0x34) (.dispatch 0x40 0x34) :=
    .software ⟨0x00, rfl, by decide⟩ ⟨0x40, rfl, by decide⟩
  have hsaved : Call.SavesRegister 0x07 .A (.dispatch 0x48 0x07) (.dispatch 0x68 0x07) :=
    .accumulator ⟨0x48, rfl, by decide⟩ ⟨0x68, rfl, by decide⟩
  have hbody : Balanced body := hsaved.balanced (hnested.balanced hstore)
  have hhandler : Call.SavesStatus 0x28 (.interrupt 0x28) (.dispatch 0x40 0x28) :=
    .hardware rfl ⟨0x40, rfl, by decide⟩
  -- Up to the RTI the pointer is three bytes below where it started.
  have hbooked : ∀ k ∈ .interrupt 0x28 :: body, k.Booked :=
    List.forall_mem_cons.mpr ⟨Call.booked_of_interrupt rfl, hbody.booked⟩
  have hpointer := (stack_kept c).pointer _ hbooked
  have hregister := (stack_kept (c.call (.interrupt 0x28)).checker).register 0x07 .A _ _ _ hsaved
    (hnested.balanced hstore)
  have hsilent : (c.call (.interrupt 0x28)).mismatches = [] := by decide
  have hflags := (stack_kept c).transparent 0x28 _ body _ hhandler hbody hsilent
  refine ⟨⟨hpointer.trans (by decide), hregister.2, by decide⟩, ?_, ?_, ?_⟩
  · exact ((stack_kept c).status 0x28 _ body _ hhandler hbody).1
  · exact hflags .D true (by decide)
  · exact hflags .I false (by decide)

end Checker

end TraceCheck
