import TraceCheck.Proofs.Activity

/-!
# `TraceCheck.Proofs.TargetForms`: one arithmetic for registers and for memory

A shift, a rotate, an increment or a decrement changes one byte, and the byte is in a register or
in memory (`Modification`). The forms are different instructions to a checker. Of a register it
knows the byte or does not, and writes back what it knows of the result. Of memory it is shown
the byte, and the result is not its business.

What a form does to the cells depends on its target in two places only: where the byte comes from
(`Target.input`) and where the result goes (`Target.put`). The flags see neither place, so two
forms that start from the same byte end with the same flags (`Modification.flag_effect_congr`),
also where a rotate does not know its carry and the register is lost. `Checker.forms_agree` says
this for all the opcodes of a modification, in every addressing mode.
-/

set_option autoImplicit false

namespace TraceCheck

/-- The ways to change a byte in place. -/
inductive Modification where
  | shift (d : Direction)
  | rotate (d : Direction)
  | increment
  | decrement
deriving DecidableEq

namespace Modification

/-- The operation that applies the modification to a target. -/
def operation : Modification → Target → Operation
  | shift d, t => .shift d t
  | rotate d, t => .rotate d t
  | increment, t => .increment t
  | decrement, t => .decrement t

/-- The mnemonic of the forms that the addressing mode tells apart. -/
def mnemonic : Modification → Mnemonic
  | shift .left => .ASL
  | shift .right => .LSR
  | rotate .left => .ROL
  | rotate .right => .ROR
  | increment => .INC
  | decrement => .DEC

/-- What is known of the changed byte. Only a rotate asks for the carry. -/
def result (m : Modification) (input : Knowledge Byte) (carry : Knowledge Bool) :
    Knowledge Byte :=
  match m with
  | shift d => (input.map (Byte.shift d · false)).map Shifted.value
  | rotate d => (Knowledge.map₂ (Byte.shift d) input carry).map Shifted.value
  | increment => input.map (· + 1)
  | decrement => input.map (· - 1)

/-- The instructions that apply a modification, and what each applies it to. -/
inductive Form : Modification → Instruction → Target → Prop where
  | accumulator (m : Modification) : Form m ⟨m.mnemonic, .accumulator⟩ (.register .A)
  | memory (m : Modification) {mode : Mode} (h : mode ≠ .accumulator) :
      Form m ⟨m.mnemonic, mode⟩ .memory
  | incrementX {mode : Mode} : Form increment ⟨.INX, mode⟩ (.register .X)
  | incrementY {mode : Mode} : Form increment ⟨.INY, mode⟩ (.register .Y)
  | decrementX {mode : Mode} : Form decrement ⟨.DEX, mode⟩ (.register .X)
  | decrementY {mode : Mode} : Form decrement ⟨.DEY, mode⟩ (.register .Y)

variable {m : Modification} {i : Instruction} {t : Target}

theorem operation_mnemonic (m : Modification) (mode : Mode) :
    (Instruction.mk m.mnemonic mode).operation = m.operation mode.target := by
  cases m with
  | shift d => cases d <;> rfl
  | rotate d => cases d <;> rfl
  | increment => rfl
  | decrement => rfl

theorem Form.operation_eq (h : Form m i t) : i.operation = m.operation t := by
  cases h with
  | accumulator m => exact m.operation_mnemonic .accumulator
  | @memory m mode hmode =>
    -- The accumulator is named by its own mode and by no other.
    have htarget : mode.target = .memory := by
      cases mode with
      | accumulator => exact absurd rfl hmode
      | _ => rfl
    rw [m.operation_mnemonic, htarget]
  | incrementX => rfl
  | incrementY => rfl
  | decrementX => rfl
  | decrementY => rfl

/-- Every instruction with the mnemonic of a modification is one of its forms: the accumulator's
in its own mode, and memory's in all others. -/
theorem form_of_mnemonic (h : i.mnemonic = m.mnemonic) :
    i.mode = .accumulator ∧ Form m i (.register .A) ∨
      i.mode ≠ .accumulator ∧ Form m i .memory := by
  obtain ⟨mnemonic, mode⟩ := i
  obtain rfl : mnemonic = m.mnemonic := h
  by_cases hmode : mode = .accumulator
  · subst hmode
    exact Or.inl ⟨rfl, .accumulator m⟩
  · exact Or.inr ⟨hmode, .memory m hmode⟩

theorem evidence_operation (m : Modification) (t : Target) (operand : Byte) :
    (m.operation t).evidence operand = [] := by
  cases m <;> rfl

/-! ### What the target decides -/

variable {settings : Settings} {p : Prediction} {operand : Byte}

/-- Of the registers only the target takes the result. -/
theorem register_effect (m : Modification) (t : Target) (q : Register) :
    ((m.operation t).effect settings operand p).register q =
      (t.put p (m.result (t.input p operand) p.c)).register q := by
  cases m with
  | shift d => exact Cells.register_setShifted _ _ _ q
  | rotate d => exact Cells.register_setShifted _ _ _ q
  | increment => exact Cells.register_setCount _ _ _ q
  | decrement => exact Cells.register_setCount _ _ _ q

/-- N and Z are those of the result, wherever it goes. -/
theorem signs_effect (m : Modification) (t : Target) :
    ((m.operation t).effect settings operand p).n =
        (m.result (t.input p operand) p.c).map BitVec.msb ∧
      ((m.operation t).effect settings operand p).z =
        (m.result (t.input p operand) p.c).map (· == 0) := by
  cases m <;> exact ⟨rfl, rfl⟩

/-- The flags depend on the byte that a form starts from, and not on where it is. -/
theorem flag_effect_congr (m : Modification) {t u : Target} {operand' : Byte}
    (h : t.input p operand = u.input p operand') (f : Flag) :
    ((m.operation t).effect settings operand p).flag f =
      ((m.operation u).effect settings operand' p).flag f := by
  cases m with
  | shift d =>
    show (p.setShifted t _).flag f = (p.setShifted u _).flag f
    rw [Cells.flag_setShifted, Cells.flag_setShifted, h]
  | rotate d =>
    show (p.setShifted t _).flag f = (p.setShifted u _).flag f
    rw [Cells.flag_setShifted, Cells.flag_setShifted, h]
  | increment =>
    show (p.setCount t _).flag f = (p.setCount u _).flag f
    rw [Cells.flag_setCount, Cells.flag_setCount, h]
  | decrement =>
    show (p.setCount t _).flag f = (p.setCount u _).flag f
    rw [Cells.flag_setCount, Cells.flag_setCount, h]

end Modification

namespace Checker

open Modification (Form)

/-- How a checker follows the forms of one modification. -/
structure FormsAgree (c : Checker) (m : Modification) : Prop where
  /-- Every opcode with the mnemonic of the modification is a form of it: the accumulator's in its
  own mode, and memory's in all others. -/
  covered : ∀ opcode, (Instruction.decode opcode).mnemonic = m.mnemonic →
    (Instruction.decode opcode).mode = .accumulator ∧
        Form m (Instruction.decode opcode) (.register .A) ∨
      (Instruction.decode opcode).mode ≠ .accumulator ∧
        Form m (Instruction.decode opcode) .memory
  /-- A memory form that is shown a byte and a register form whose register is known to hold it
  end with the same flags and the same fault. -/
  agree : ∀ (i j : Instruction) (r : Register) (v ignored : Byte) (memory register : Call),
    Form m i .memory → Form m j (.register r) → memory.Executes i v →
    register.Executes j ignored → c.state.cells.register r = .known v →
      (∀ f, (c.call memory).checker.state.cells.flag f =
        (c.call register).checker.state.cells.flag f) ∧
      (c.call memory).checker.state.fault = (c.call register).checker.state.fault
  /-- A memory form leaves the registers alone, and N and Z are those of the result. -/
  memory : ∀ (i : Instruction) (v : Byte) (memory : Call), Form m i .memory →
    memory.Executes i v →
      (∀ q, (c.call memory).checker.state.cells.register q = c.state.cells.register q) ∧
      (c.call memory).checker.state.cells.n =
        (m.result (.known v) c.state.cells.c).map BitVec.msb ∧
      (c.call memory).checker.state.cells.z =
        (m.result (.known v) c.state.cells.c).map (· == 0)
  /-- A register form puts what is known of the result into its register and leaves the others
  alone. -/
  register : ∀ (j : Instruction) (r : Register) (ignored : Byte) (register : Call),
    Form m j (.register r) → register.Executes j ignored →
      (c.call register).checker.state.cells.register r =
        m.result (c.state.cells.register r) c.state.cells.c ∧
      ∀ q, q ≠ r → (c.call register).checker.state.cells.register q = c.state.cells.register q

/-- The fault is the one from before a form. -/
theorem fault_call_of_form {m : Modification} {i : Instruction} {t : Target} {k : Call} {b : Byte}
    (h : Form m i t) (hk : k.Executes i b) (c : Checker) :
    (c.call k).checker.state.fault = c.state.fault := by
  rw [hk.checker c, h.operation_eq, m.evidence_operation]
  exact Bool.or_false _

/-- Whatever a checker knows, the forms of a modification differ in where they take the byte from
and where they leave it, and in nothing else. -/
theorem forms_agree (c : Checker) (m : Modification) : c.FormsAgree m where
  covered opcode hmnemonic := Modification.form_of_mnemonic hmnemonic
  agree i j r v ignored memory register hi hj hmemory hregister hv := by
    constructor
    · intro f
      rw [hmemory.cells c, hregister.cells c, hi.operation_eq, hj.operation_eq]
      -- Both forms start from the byte that memory showed.
      have hinput : Target.memory.input c.state.cells v =
          (Target.register r).input c.state.cells ignored := hv.symm
      exact m.flag_effect_congr hinput f
    · rw [fault_call_of_form hi hmemory, fault_call_of_form hj hregister]
  memory i v memory hi hmemory := by
    rw [hmemory.cells c, hi.operation_eq]
    exact ⟨fun q => m.register_effect .memory q, m.signs_effect .memory⟩
  register j r ignored register hj hregister := by
    rw [hregister.cells c, hj.operation_eq]
    constructor
    · rw [m.register_effect, Target.register_put_register, if_pos rfl]
      rfl
    · intro q hq
      rw [m.register_effect, Target.register_put_register, if_neg hq]

/-- A byte is rotated in memory and in the accumulator with the carry unknown, which makes the
flags unknown in both forms but loses the accumulator in one of them only. An increment passes
through zero in memory and in an index register. -/
theorem forms_agree_unknown_carry :
    let c := (fresh {}).after [.dispatch 0xA9 0x81, .dispatch 0xA2 0xFF]
    let memory := (c.call (.dispatch 0x76 0x81)).checker.state
    let accumulator := (c.call (.dispatch 0x6A 0x00)).checker.state
    (∀ f, memory.cells.flag f = accumulator.cells.flag f) ∧
      memory.fault = accumulator.fault ∧
      memory.cells.register .A = .known 0x81 ∧ accumulator.cells.register .A = .unknown ∧
    ∀ f, (c.call (.observe 0xEE (.data 0xFF))).checker.state.cells.flag f =
      (c.call (.dispatch 0xE8 0x00)).checker.state.cells.flag f := by
  intro c memory accumulator
  have hmemory : Form (.rotate .right) ⟨.ROR, .zeroPageX⟩ .memory := .memory _ (by decide)
  have haccumulator : Form (.rotate .right) ⟨.ROR, .accumulator⟩ (.register .A) := .accumulator _
  have hincrement : Form .increment ⟨.INC, .absolute⟩ .memory := .memory _ (by decide)
  have hincrementX : Form .increment ⟨.INX, .implied⟩ (.register .X) := .incrementX
  have hrotate : Call.Executes (.dispatch 0x76 0x81) ⟨.ROR, .zeroPageX⟩ 0x81 :=
    ⟨0x76, rfl, by decide⟩
  have hrotateA : Call.Executes (.dispatch 0x6A 0x00) ⟨.ROR, .accumulator⟩ 0x00 :=
    ⟨0x6A, rfl, by decide⟩
  have hrotates := forms_agree c (.rotate .right)
  have hagree := hrotates.agree _ _ _ _ _ _ _ hmemory haccumulator hrotate hrotateA (by decide)
  refine ⟨hagree.1, hagree.2, ?_, ?_, ?_⟩
  · exact ((hrotates.memory _ _ _ hmemory hrotate).1 .A).trans (by decide)
  · exact (hrotates.register _ _ _ _ haccumulator hrotateA).1.trans (by decide)
  · exact ((forms_agree c .increment).agree _ _ _ _ _ _ _ hincrement hincrementX
      ⟨0xEE, rfl, by decide⟩ ⟨0xE8, rfl, by decide⟩ (by decide)).1

end Checker

end TraceCheck
