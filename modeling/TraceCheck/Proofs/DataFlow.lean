import TraceCheck.Prediction.Effect
import TraceCheck.Proofs.Activity

/-!
# `TraceCheck.Proofs.DataFlow`: which cells an operation reads and writes

`Operation.effect` says what an operation does to a prediction as a whole. Most facts
about it are facts about single cells: a cell that is written takes its value from the
observed byte, from a register, from the carry or from both, and all other cells stay.
`Operation.assignments` is the list of the cells an operation writes, each with the
`Source` of its value, and `look_effect` proves that this list is exactly what the
effect does.

Whatever holds of all sources then holds of all operations: that a value is sound, that
it only grows with what is known, that it depends on the cells it is read from and on no
others. Each such fact is one case analysis over the six sources below and no longer one
over the operations.

A push and a pull move the stack pointer besides the register they are named for, so the
table is about operations that do not push or pull the stack pointer itself
(`Operation.Proper`). No instruction does (`proper_operation`).
-/

set_option autoImplicit false

namespace TraceCheck

/-- Where a value comes from. -/
inductive Source (α : Type) where
  /-- The observed byte alone decides it. -/
  | given (v : α)
  /-- It is computed from a register. -/
  | ofRegister (r : Register) (g : Byte → α)
  /-- It is computed from the carry. -/
  | ofCarry (g : Bool → α)
  /-- It is computed from a register and the carry. -/
  | withCarry (r : Register) (g : Byte → Bool → α)
  /-- It is computed from the accumulator and the carry where a decimal rule allows it. -/
  | arithmetic (rule : DecimalRule) (g : Byte → Bool → α)
  /-- It is a flag, which the observation shows to be the one given. -/
  | shown (f : Flag) (v : Bool) (g : Bool → α)

/-- A function depends on its argument. -/
def Varies {α β : Type} (g : α → β) : Prop := ∃ v w, g v ≠ g w

namespace Source

variable {α β : Type}

/-- The source of a value computed from another. -/
def map (h : α → β) : Source α → Source β
  | given v => given (h v)
  | ofRegister r g => ofRegister r fun b => h (g b)
  | ofCarry g => ofCarry fun c => h (g c)
  | withCarry r g => withCarry r fun b c => h (g b c)
  | arithmetic rule g => arithmetic rule fun b c => h (g b c)
  | shown f v g => shown f v fun c => h (g c)

/-- A cell is read for a value when the value can come out differently with it. Addition
and subtraction read the decimal flag too where the rule asks for it. -/
def Reads (s : Source α) (c : Cell) : Prop :=
  match s with
  | given _ => False
  | ofRegister r g => c = .register r ∧ Varies g
  | ofCarry g => c = .flag .C ∧ Varies g
  | withCarry r g =>
    (c = .register r ∧ ∃ b, Varies fun v => g v b) ∨ (c = .flag .C ∧ ∃ v, Varies (g v))
  | arithmetic rule g =>
    (c = .register .A ∧ ∃ b, Varies fun v => g v b) ∨ (c = .flag .C ∧ ∃ v, Varies (g v)) ∨
      (c = .flag .D ∧ rule = .unknownWhenDecimal)
  | shown f _ g => c = .flag f ∧ Varies g

/-- What is known of the value. -/
def value (p : Prediction) : Source α → Knowledge α
  | given v => .known v
  | ofRegister r g => (p.register r).map g
  | ofCarry g => p.c.map g
  | withCarry r g => Knowledge.map₂ g (p.register r) p.c
  | arithmetic rule g => Knowledge.map₂ g (p.binaryAccumulator rule) p.c
  | shown f v g => ((p.flag f).learn v).map g

@[simp] theorem value_map (h : α → β) (p : Prediction) (s : Source α) :
    (s.map h).value p = (s.value p).map h := by
  cases s with
  | given v => rfl
  | ofRegister r g => exact (Knowledge.map_map h g _).symm
  | ofCarry g => exact (Knowledge.map_map h g _).symm
  | withCarry r g =>
    show Knowledge.map₂ _ (p.register r) p.c = (Knowledge.map₂ g (p.register r) p.c).map h
    cases p.register r <;> cases p.c <;> rfl
  | arithmetic rule g =>
    show Knowledge.map₂ _ (p.binaryAccumulator rule) p.c =
      (Knowledge.map₂ g (p.binaryAccumulator rule) p.c).map h
    cases p.binaryAccumulator rule <;> cases p.c <;> rfl
  | shown f v g => exact (Knowledge.map_map h g _).symm

end Source

/-- A cell that is written and the source of its new value, a flag counting as zero or
one. -/
structure Assignment where
  /-- The cell. -/
  cell : Cell
  /-- Where its value comes from. -/
  source : Source Byte

/-! ### Groups of assignments

A list of assignments names the cells in the reverse order of writing, so that where a
cell is named twice the first entry is the one that counts. -/

namespace Assignment

/-- The stack pointer moves. -/
def stack (offset : Int) : Assignment :=
  ⟨.register .S, .ofRegister .S (· + BitVec.ofInt 8 offset)⟩

/-- Z tells whether the accumulator and the operand have no set bit in common. -/
def probe (operand : Byte) : Assignment :=
  ⟨.flag .Z, .ofRegister .A fun a => Byte.ofBool (a &&& operand == 0)⟩

/-- N and Z follow a result. -/
def signs (s : Source Byte) : List Assignment :=
  [⟨.flag .N, s.map fun b => Byte.ofBool b.msb⟩, ⟨.flag .Z, s.map fun b => Byte.ofBool (b == 0)⟩]

/-- All six flags are given. -/
def flags (g : Flag → Bool) : List Assignment :=
  Flag.all.map fun f => ⟨.flag f, .given (Byte.ofBool (g f))⟩

/-- A target takes a result. Memory is not modeled. -/
def put (t : Target) (s : Source Byte) : List Assignment :=
  match t with
  | .register r => [⟨.register r, s⟩]
  | .memory => []

/-- A target takes a result, which N and Z follow. -/
def result (t : Target) (s : Source Byte) : List Assignment := signs s ++ put t s

/-- The accumulator and N, V, Z, C take the result of an addition or a subtraction. -/
def sum (s : Source ArithmeticResult) : List Assignment :=
  signs (s.map ArithmeticResult.value) ++
    [⟨.flag .C, s.map fun r => Byte.ofBool r.carry⟩,
      ⟨.flag .V, s.map fun r => Byte.ofBool r.overflow⟩,
      ⟨.register .A, s.map ArithmeticResult.value⟩]

/-- A target takes a shifted byte, which N and Z follow, and C the bit shifted out. -/
def shifted (t : Target) (s : Source Shifted) : List Assignment :=
  ⟨.flag .C, s.map fun r => Byte.ofBool r.carry⟩ :: result t (s.map Shifted.value)

/-- The source that a list of assignments has for a cell. -/
def lookup (as : List Assignment) (c : Cell) : Option (Source Byte) :=
  (as.find? fun a => a.cell = c).map (·.source)

theorem lookup_cons (a : Assignment) (as : List Assignment) (c : Cell) :
    lookup (a :: as) c = if a.cell = c then some a.source else lookup as c := by
  unfold lookup
  rw [List.find?_cons]
  by_cases h : a.cell = c
  · simp [h]
  · simp [h]

/-- A source that is found is one of an assignment. -/
theorem exists_mem_of_lookup {as : List Assignment} {c : Cell} {s : Source Byte}
    (h : lookup as c = some s) : ∃ a ∈ as, a.source = s := by
  obtain ⟨a, ha, rfl⟩ := Option.map_eq_some_iff.mp h
  exact ⟨a, List.mem_of_find?_eq_some ha, rfl⟩

/-- A cell has a source when it is assigned. -/
theorem lookup_eq_none_iff {as : List Assignment} {c : Cell} :
    lookup as c = none ↔ c ∉ as.map (·.cell) := by
  rw [lookup, Option.map_eq_none_iff, List.find?_eq_none]
  constructor
  · intro h hc
    obtain ⟨a, ha, rfl⟩ := List.mem_map.mp hc
    exact h a ha (decide_eq_true rfl)
  · intro h a ha hac
    exact h (List.mem_map.mpr ⟨a, ha, of_decide_eq_true hac⟩)

end Assignment

/-! ### The table -/

namespace Target

/-- The byte a shift or a count starts from. -/
def source (t : Target) (operand : Byte) : Source Byte :=
  match t with
  | register r => .ofRegister r id
  | memory => .given operand

/-- The byte a rotate starts from, together with the carry. -/
def sourceWithCarry {α : Type} (t : Target) (operand : Byte) (g : Byte → Bool → α) : Source α :=
  match t with
  | register r => .withCarry r g
  | memory => .ofCarry (g operand)

end Target

namespace Operation

open Assignment in
/-- The cells that an operation writes and the sources of their values. -/
def assignments (settings : Settings) (operand : Byte) : Operation → List Assignment
  | load r => result (.register r) (.given operand)
  | store r => [⟨.register r, .given operand⟩]
  | push r => [⟨.register r, .given operand⟩, stack (-1)]
  | pull r => stack 1 :: result (.register r) (.given operand)
  | pushStatus => flags (·.ofStatus operand) ++ [stack (-1)]
  | pullStatus => stack 1 :: flags (·.ofStatus operand)
  | add => sum (.arithmetic settings.decimal fun a c => Byte.addWithCarry a operand c)
  | subtract =>
    sum (.arithmetic settings.decimal fun a c => Byte.subtractWithBorrow a operand c)
  | combine g => result (.register .A) (.ofRegister .A (g.apply · operand))
  | compare r =>
    ⟨.flag .C, .ofRegister r fun v => Byte.ofBool (decide (operand ≤ v))⟩ ::
      signs (.ofRegister r (· - operand))
  | bitTest =>
    [probe operand, ⟨.flag .V, .given (Byte.ofBool (Flag.V.ofStatus operand))⟩,
      ⟨.flag .N, .given (Byte.ofBool (Flag.N.ofStatus operand))⟩]
  | bitTestConstant | changeBits => [probe operand]
  | shift d t => shifted t ((t.source operand).map (Byte.shift d · false))
  | rotate d t => shifted t (t.sourceWithCarry operand (Byte.shift d))
  | increment t => result t ((t.source operand).map (· + 1))
  | decrement t => result t ((t.source operand).map (· - 1))
  | setFlag f value => [⟨.flag f, .given (Byte.ofBool value)⟩]
  | transfer source destination =>
    if destination = .S then [⟨.register .S, .ofRegister source id⟩]
    else result (.register destination) (.ofRegister source id)
  | branch f takenWhen =>
    [⟨.flag f, .shown f (impliedFlag takenWhen (operand != 0)) Byte.ofBool⟩]
  | jumpSubroutine => [stack (-2)]
  | returnSubroutine => [stack 2]
  | returnInterrupt => stack 3 :: flags (·.ofStatus operand)
  | breakInterrupt =>
    (if settings.variant.clearsDecimal then [⟨.flag .D, .given (Byte.ofBool false)⟩] else []) ++
      ⟨.flag .I, .given (Byte.ofBool true)⟩ :: flags (·.ofStatus operand) ++ [stack (-3)]
  | unmodeled => []

/-- The cells that an operation writes. -/
def writes (settings : Settings) (operand : Byte) (op : Operation) : List Cell :=
  (op.assignments settings operand).map (·.cell)

/-- The source of a cell's value after an operation, if the operation writes it. -/
def source (settings : Settings) (operand : Byte) (op : Operation) (c : Cell) :
    Option (Source Byte) :=
  Assignment.lookup (op.assignments settings operand) c

theorem source_eq_none_iff {settings : Settings} {operand : Byte} {op : Operation} {c : Cell} :
    op.source settings operand c = none ↔ c ∉ op.writes settings operand :=
  Assignment.lookup_eq_none_iff

/-- The stack pointer is neither pushed nor pulled itself. -/
def Proper (op : Operation) : Prop := op ≠ push .S ∧ op ≠ pull .S

end Operation

/-- No instruction pushes or pulls the stack pointer. -/
theorem Instruction.proper_operation (i : Instruction) : i.operation.Proper := by
  obtain ⟨mnemonic, mode⟩ := i
  cases mnemonic with
  | BIT =>
    show (if mode = .immediate then Operation.bitTestConstant else Operation.bitTest).Proper
    split <;> exact ⟨by decide, by decide⟩
  | _ => constructor <;> simp [operation]

theorem Activity.proper_operation (a : Activity) : a.operation.Proper := by
  cases a with
  | instruction opcode operand => exact Instruction.proper_operation _
  | interrupt status =>
    show Operation.breakInterrupt.Proper
    exact ⟨by decide, by decide⟩

/-! ### The table is what the effect does -/

/-- A prediction after the assignments of a list, every source being read before the
first of them. -/
def Assigned (p : Prediction) (as : List Assignment) (q : Prediction) : Prop :=
  ∀ c, q.look c =
    match Assignment.lookup as c with
    | some s => s.value p
    | none => p.look c

namespace Assigned

variable {p q q' : Prediction} {as : List Assignment}

theorem nil (p : Prediction) : Assigned p [] p := fun _ => rfl

/-- One more write puts one more entry in front. -/
theorem cons (h : Assigned p as q) (a : Assignment)
    (hq : ∀ c, q'.look c = if a.cell = c then a.source.value p else q.look c) :
    Assigned p (a :: as) q' := by
  intro c
  rw [hq, Assignment.lookup_cons]
  by_cases hc : a.cell = c
  · simp only [if_pos hc]
  · simp only [if_neg hc]
    exact h c

theorem register (h : Assigned p as q) (r : Register) {s : Source Byte} {k : Knowledge Byte}
    (hs : s.value p = k) : Assigned p (⟨.register r, s⟩ :: as) (q.setRegister r k) := by
  refine h.cons _ fun c => ?_
  simp only [Cells.look_setRegister, hs, eq_comm (a := c)]

theorem flag (h : Assigned p as q) (f : Flag) {s : Source Byte} {k : Knowledge Bool}
    (hs : s.value p = k.map Byte.ofBool) : Assigned p (⟨.flag f, s⟩ :: as) (q.setFlag f k) := by
  refine h.cons _ fun c => ?_
  simp only [Cells.look_setFlag, hs, eq_comm (a := c)]

theorem signs (h : Assigned p as q) {s : Source Byte} {k : Knowledge Byte}
    (hs : s.value p = k) : Assigned p (Assignment.signs s ++ as) (q.setNZ k) := by
  have hZ := h.flag .Z (s := s.map fun b => Byte.ofBool (b == 0)) (k := k.map (· == 0))
    (by rw [Source.value_map, hs, Knowledge.map_map])
  exact hZ.flag .N (by rw [Source.value_map, hs, Knowledge.map_map])

/-- The stack pointer is moved before anything else is assigned to it. -/
theorem stack (h : Assigned p as q) (offset : Int) (hS : q.s = p.s) :
    Assigned p (Assignment.stack offset :: as) (q.moveStack offset) :=
  h.register .S (by rw [hS]; rfl)

theorem flags (h : Assigned p as q) (g : Flag → Bool) :
    Assigned p (Assignment.flags g ++ as) (q.setFlags fun f => .known (g f)) := by
  -- One write for each flag, in the order that leaves N in front.
  have write : ∀ {q : Prediction} {as : List Assignment}, Assigned p as q → ∀ f,
      Assigned p (⟨.flag f, .given (Byte.ofBool (g f))⟩ :: as) (q.setFlag f (.known (g f))) :=
    fun h f => h.flag f rfl
  rw [Cells.setFlags_eq]
  exact write (write (write (write (write (write h .C) .Z) .I) .D) .V) .N

theorem result (p : Prediction) (t : Target) {s : Source Byte} {k : Knowledge Byte}
    (hs : s.value p = k) : Assigned p (Assignment.result t s) ((t.put p k).setNZ k) := by
  cases t with
  | register r => exact ((nil p).register r hs).signs hs
  | memory => exact (nil p).signs hs

theorem sum (p : Prediction) {s : Source ArithmeticResult} {k : Knowledge ArithmeticResult}
    (hs : s.value p = k) : Assigned p (Assignment.sum s) (p.setArithmetic k) := by
  have hvalue : (s.map ArithmeticResult.value).value p = k.map ArithmeticResult.value := by
    rw [Source.value_map, hs]
  have hA := (nil p).register .A hvalue
  have hV := hA.flag .V (s := s.map fun r => Byte.ofBool r.overflow)
    (k := k.map ArithmeticResult.overflow) (by rw [Source.value_map, hs, Knowledge.map_map])
  have hC := hV.flag .C (s := s.map fun r => Byte.ofBool r.carry)
    (k := k.map ArithmeticResult.carry) (by rw [Source.value_map, hs, Knowledge.map_map])
  exact hC.signs hvalue

theorem shifted (p : Prediction) (t : Target) {s : Source Shifted} {k : Knowledge Shifted}
    (hs : s.value p = k) : Assigned p (Assignment.shifted t s) (p.setShifted t k) := by
  have hvalue : (s.map Shifted.value).value p = k.map Shifted.value := by
    rw [Source.value_map, hs]
  exact (result p t hvalue).flag .C (by rw [Source.value_map, hs, Knowledge.map_map])

theorem probe (h : Assigned p as q) (operand : Byte) (hA : q.a = p.a) :
    Assigned p (Assignment.probe operand :: as) (q.probeBits operand) :=
  h.flag .Z (by rw [hA, Knowledge.map_map]; rfl)

end Assigned

theorem Target.value_source (t : Target) (operand : Byte) (p : Prediction) :
    (t.source operand).value p = t.input p operand := by
  cases t with
  | register r => show (p.register r).map id = p.register r; cases p.register r <;> rfl
  | memory => rfl

theorem Target.value_sourceWithCarry {α : Type} (t : Target) (operand : Byte)
    (g : Byte → Bool → α) (p : Prediction) :
    (t.sourceWithCarry operand g).value p = Knowledge.map₂ g (t.input p operand) p.c := by
  cases t with
  | register r => rfl
  | memory => show p.c.map (g operand) = Knowledge.map₂ g (.known operand) p.c; cases p.c <;> rfl

/-- The effect of an operation is the assignments of the table. -/
theorem Operation.assigned_effect (settings : Settings) (operand : Byte) (p : Prediction)
    {op : Operation} (h : op.Proper) :
    Assigned p (op.assignments settings operand) (op.effect settings operand p) := by
  have start := Assigned.nil p
  have hstatus : Assigned p (Assignment.flags (·.ofStatus operand)) (p.setStatus operand) := by
    have hall := start.flags (·.ofStatus operand)
    rwa [List.append_nil] at hall
  cases op with
  | load r => exact Assigned.result p (.register r) rfl
  | store r => exact start.register r rfl
  | push r => exact (start.stack (-1) rfl).register r rfl
  | pull r =>
    -- A pulled stack pointer would be moved after it is loaded.
    refine (Assigned.result p (.register r) rfl).stack 1 ?_
    cases r with
    | S => exact absurd rfl h.2
    | _ => rfl
  | pushStatus => exact (start.stack (-1) rfl).flags _
  | pullStatus => exact hstatus.stack 1 rfl
  | add => exact Assigned.sum p rfl
  | subtract => exact Assigned.sum p rfl
  | combine g => exact Assigned.result p (.register .A) rfl
  | compare r =>
    exact (start.signs (s := .ofRegister r (· - operand)) rfl).flag .C
      (Knowledge.map_map Byte.ofBool _ _).symm
  | bitTest =>
    exact ((start.flag .N (k := .known (Flag.N.ofStatus operand)) rfl).flag .V
      (k := .known (Flag.V.ofStatus operand)) rfl).probe operand rfl
  | bitTestConstant => exact start.probe operand rfl
  | changeBits => exact start.probe operand rfl
  | shift d t =>
    exact Assigned.shifted p t (by rw [Source.value_map, Target.value_source])
  | rotate d t => exact Assigned.shifted p t (Target.value_sourceWithCarry t operand _ p)
  | increment t =>
    exact Assigned.result p t (by rw [Source.value_map, Target.value_source])
  | decrement t =>
    exact Assigned.result p t (by rw [Source.value_map, Target.value_source])
  | setFlag f value => exact start.flag f rfl
  | transfer source destination =>
    have hcopy : (Source.ofRegister source id).value p = p.register source := by
      show (p.register source).map id = p.register source
      cases p.register source <;> rfl
    by_cases hS : destination = .S
    · subst hS
      exact start.register .S hcopy
    · simp only [assignments, effect, if_neg hS]
      exact Assigned.result p (.register destination) hcopy
  | branch f takenWhen => exact start.flag f rfl
  | jumpSubroutine => exact start.stack (-2) rfl
  | returnSubroutine => exact start.stack 2 rfl
  | returnInterrupt => exact hstatus.stack 3 rfl
  | breakInterrupt =>
    -- The flags of the pushed byte come first, and I and D are forced over them.
    have hforced := ((start.stack (-3) rfl).flags (·.ofStatus operand)).flag .I
      (s := .given (Byte.ofBool true)) (k := .known true) rfl
    obtain ⟨variant, decimal⟩ := settings
    cases variant with
    | cmos => exact hforced.flag .D rfl
    | nmos => exact hforced
  | unmodeled => exact start

/-- What is known of a cell after an operation: the value of its source if the operation
writes it, and what was known before if not. -/
theorem Operation.look_effect (settings : Settings) (operand : Byte) (p : Prediction)
    {op : Operation} (h : op.Proper) (c : Cell) :
    (op.effect settings operand p).look c =
      match op.source settings operand c with
      | some s => s.value p
      | none => p.look c :=
  op.assigned_effect settings operand p h c

end TraceCheck
