import TraceCheck.Proofs.Activity

/-!
# `TraceCheck.Proofs.Processor`: the processor that is traced

A checker only ever guesses at a processor. This module defines the processor itself: a
byte in each register, a truth value in each flag, and what each operation does to them.
What an operation does is written from the description of the processor. Sums, differences
and shifts are numbers here, an overflow is a number that is no signed byte, and a status
byte that is pushed is one that has the flags at their bits.

Memory is arbitrary, so a byte that is read may be any byte. Three definitions make up a
step:

* `Operation.Shows`: the observed byte is one that the operation can show in this state.
  A byte that is written is the register it comes from, a pushed status byte has the
  flags, with bits 5 and 4 left open, and a branch is taken when its flag has its
  polarity. All other operations can show any byte.
* `Operation.perform`: the state after the operation.
* `Operation.Moves`: what the processor may do. It performs the operation, except that
  under the cautious decimal rule an addition or a subtraction in decimal mode may leave
  anything in the accumulator and in N, V, Z and C.

`Processor.Run` follows a processor through the calls on a checker. Calls that report no
activity leave the processor alone.

## What the processor borrows

What happened is read off a call as the checker reads it. `Call.activity` says which calls
report an activity, where an observation has to be of the kind that its opcode takes, and
`Activity.operation` says which operation an opcode stands for. Both use the table of
instructions. A theorem that sets the checker against this processor is therefore about
operations: a row of the table that names the wrong one would be wrong on both sides.

Of what the operations do, four things are borrowed: the collection `Cells` with its reads
and writes, the three bitwise gates (`Gate.apply`), the bits of the flags in a status byte
(`Flag.bit`) and which variants clear D when they take an interrupt
(`Variant.clearsDecimal`). The checker's arithmetic, its evidence and its predictions are
not used.
-/

set_option autoImplicit false

namespace TraceCheck

/-- The state of a processor. -/
abbrev Processor := Cells Byte Bool

namespace Cells

/-- The value of a cell, a flag counting as zero or one. -/
def value (m : Processor) : Cell → Byte
  | .register r => m.register r
  | .flag f => Byte.ofBool (m.flag f)

theorem value_setRegister (m : Processor) (r : Register) (b : Byte) (c : Cell) :
    (m.setRegister r b).value c = if c = .register r then b else m.value c := by
  cases c with
  | register q => simp [value, register_setRegister]
  | flag f => simp [value]

theorem value_setFlag (m : Processor) (f : Flag) (b : Bool) (c : Cell) :
    (m.setFlag f b).value c = if c = .flag f then Byte.ofBool b else m.value c := by
  cases c with
  | register q => simp [value]
  | flag g => by_cases hg : g = f <;> simp [value, flag_setFlag, hg]

/-- N tells whether a result is negative and Z whether it is zero. -/
def reflect (m : Processor) (b : Byte) : Processor :=
  { m with n := decide (b.toInt < 0), z := decide (b = 0) }

/-- The stack pointer moves modulo 256. -/
def shiftStack (m : Processor) (offset : Int) : Processor :=
  { m with s := m.s + BitVec.ofInt 8 offset }

/-- Adds a byte and the carry to the accumulator, in binary. -/
def addByte (m : Processor) (b : Byte) : Processor :=
  let exact := m.a.toNat + b.toNat + m.c.toNat
  let signed := m.a.toInt + b.toInt + m.c.toNat
  { m with
    a := BitVec.ofNat 8 exact
    c := decide (256 ≤ exact)
    v := decide (signed < -128 ∨ 127 < signed) }.reflect (BitVec.ofNat 8 exact)

/-- Subtracts a byte from the accumulator, and one more when the carry is clear, in
binary. -/
def subtractByte (m : Processor) (b : Byte) : Processor :=
  let exact : Int := m.a.toNat - b.toNat - (1 - m.c.toNat)
  let signed := m.a.toInt - b.toInt - (1 - m.c.toNat)
  { m with
    a := BitVec.ofInt 8 exact
    c := decide (0 ≤ exact)
    v := decide (signed < -128 ∨ 127 < signed) }.reflect (BitVec.ofInt 8 exact)

end Cells

namespace Target

/-- The byte that a shift or a count starts from. -/
def fetch (t : Target) (m : Processor) (operand : Byte) : Byte :=
  match t with
  | register r => m.register r
  | memory => operand

/-- Puts a result where it belongs, with N and Z. What is written to memory is not part of
the state. -/
def deposit (t : Target) (m : Processor) (b : Byte) : Processor :=
  match t with
  | register r => (m.setRegister r b).reflect b
  | memory => m.reflect b

/-- Shifts by one place with a bit that enters. To the left the nine-bit number made of
the byte and the entering bit doubles, to the right it halves. -/
def shift (t : Target) (d : Direction) (m : Processor) (operand : Byte) (entering : Bool) :
    Processor :=
  let b := (t.fetch m operand).toNat
  match d with
  | .left =>
    { t.deposit m (BitVec.ofNat 8 (2 * b + entering.toNat)) with
      c := decide (256 ≤ 2 * b + entering.toNat) }
  | .right =>
    { t.deposit m (BitVec.ofNat 8 ((256 * entering.toNat + b) / 2)) with
      c := decide (b % 2 = 1) }

end Target

namespace Operation

/-- Whether an operation can show a byte in a state. -/
def Shows (m : Processor) (operand : Byte) : Operation → Prop
  | store r | push r => operand = m.register r
  | pushStatus | breakInterrupt => ∀ f : Flag, operand.getLsbD f.bit = m.flag f
  | branch f takenWhen => operand ≠ 0 ↔ m.flag f = takenWhen
  | _ => True

/-- The state after an operation, given the byte that it shows. -/
def perform (variant : Variant) (m : Processor) (operand : Byte) : Operation → Processor
  | load r => (m.setRegister r operand).reflect operand
  | store _ => m
  | push _ => m.shiftStack (-1)
  | pull r => ((m.setRegister r operand).reflect operand).shiftStack 1
  | pushStatus => m.shiftStack (-1)
  | pullStatus => (m.setFlags fun f => operand.getLsbD f.bit).shiftStack 1
  | add => m.addByte operand
  | subtract => m.subtractByte operand
  | combine g => (m.setRegister .A (g.apply m.a operand)).reflect (g.apply m.a operand)
  | compare r =>
    { m.reflect (m.register r - operand) with
      c := decide (operand.toNat ≤ (m.register r).toNat) }
  | bitTest =>
    { m with
      n := operand.getLsbD 7
      v := operand.getLsbD 6
      z := decide (m.a &&& operand = 0) }
  | bitTestConstant | changeBits => { m with z := decide (m.a &&& operand = 0) }
  | shift d t => t.shift d m operand false
  | rotate d t => t.shift d m operand m.c
  | increment t => t.deposit m (t.fetch m operand + 1)
  | decrement t => t.deposit m (t.fetch m operand - 1)
  | setFlag f value => Cells.setFlag m f value
  | transfer source destination =>
    let n := m.setRegister destination (m.register source)
    if destination = .S then n else n.reflect (m.register source)
  | branch _ _ => m
  | jumpSubroutine => m.shiftStack (-2)
  | returnSubroutine => m.shiftStack 2
  | returnInterrupt => (m.setFlags fun f => operand.getLsbD f.bit).shiftStack 3
  | breakInterrupt =>
    { m.shiftStack (-3) with i := true, d := m.d && !variant.clearsDecimal }
  | unmodeled => m

/-- The states that the processor may be in after an operation. -/
def Moves (settings : Settings) (m : Processor) (operand : Byte) (op : Operation)
    (m' : Processor) : Prop :=
  m' = op.perform settings.variant m operand ∨
    settings.decimal = .unknownWhenDecimal ∧ m.d = true ∧ (op = add ∨ op = subtract) ∧
      ∃ a n v z c, m' = { m with a := a, n := n, v := v, z := z, c := c }

/-- The processor goes from one state to another by an operation that shows a byte. -/
structure Steps (settings : Settings) (m : Processor) (operand : Byte) (op : Operation)
    (m' : Processor) : Prop where
  shows : op.Shows m operand
  moves : op.Moves settings m operand m'

end Operation

/-- The processor goes from one state to another by an activity. -/
def Activity.Steps (settings : Settings) (m : Processor) (a : Activity) (m' : Processor) :
    Prop :=
  a.operation.Steps settings m a.operand m'

/-- A processor of a given kind goes through the activities that the calls of a run
report, and at each of them shows the byte that is reported. -/
inductive Processor.Run (settings : Settings) : Processor → List Call → Processor → Prop
  | nil (m : Processor) : Run settings m [] m
  | active {m m' n : Processor} {k : Call} {ks : List Call} {a : Activity}
      (reported : k.activity = some a) (step : a.Steps settings m m')
      (rest : Run settings m' ks n) : Run settings m (k :: ks) n
  | idle {m n : Processor} {k : Call} {ks : List Call}
      (silent : k.activity = none) (rest : Run settings m ks n) : Run settings m (k :: ks) n

/-- A run without calls ends where it starts. -/
theorem Processor.Run.of_eq {settings : Settings} {m m' : Processor} (h : m = m') :
    Processor.Run settings m [] m' := by
  rw [h]
  exact Processor.Run.nil m'

/-! ### Every observation can come from some processor -/

/-- Whatever a status byte has at the bits of the flags, some processor has in its flags. -/
theorem Cells.exists_flags (status : Byte) :
    ∃ m : Processor, ∀ f : Flag, status.getLsbD f.bit = m.flag f := by
  refine ⟨(Cells.uniform status false).setFlags (·.ofStatus status), fun f => ?_⟩
  rw [Cells.flag_setFlags]
  rfl

/-- Whatever byte is observed of an operation, some processor can show it. -/
theorem Operation.exists_shows (operand : Byte) (op : Operation) :
    ∃ m : Processor, op.Shows m operand := by
  cases op with
  | store r | push r =>
    exact ⟨Cells.uniform operand false, (Cells.register_uniform _ _ r).symm⟩
  | pushStatus | breakInterrupt => exact Cells.exists_flags operand
  | branch f takenWhen =>
    refine ⟨Cells.uniform operand (decide (operand ≠ 0) == takenWhen), ?_⟩
    show operand ≠ 0 ↔ (Cells.uniform operand _).flag f = takenWhen
    rw [Cells.flag_uniform]
    by_cases h : operand = 0 <;> cases takenWhen <;> simp [h]
  | _ => exact ⟨Cells.uniform operand false, trivial⟩

end TraceCheck
