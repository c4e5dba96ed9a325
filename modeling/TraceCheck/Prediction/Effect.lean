import TraceCheck.Prediction.Evidence
import TraceCheck.Settings

/-!
# `TraceCheck.Prediction.Effect`: how an instruction moves the prediction

Each operation assigns to the cells what can be derived from known cells and from the
observed operand. A result is a `Knowledge` computed with `map` and `map₂`, and every
cell that depends on it takes what is known of it, so an unknown input makes exactly
the dependent cells unknown.

The observed operand is authoritative. A load and a pull take it as the new value, and
so do a store, a push and a pushed status byte, even where they contradict what was
known. A branch is the exception: it resolves an unknown flag and leaves a known one
alone.
-/

set_option autoImplicit false

namespace TraceCheck

namespace Target

/-- The byte a shift or a count starts from. -/
def input (t : Target) (p : Prediction) (operand : Byte) : Knowledge Byte :=
  match t with
  | register r => p.register r
  | memory => .known operand

/-- Puts the result of a shift or a count where it belongs. Memory is not modeled. -/
def put (t : Target) (p : Prediction) (result : Knowledge Byte) : Prediction :=
  match t with
  | register r => p.setRegister r result
  | memory => p

end Target

namespace Cells

/-- The accumulator as far as binary arithmetic may use it. -/
def binaryAccumulator (p : Prediction) (rule : DecimalRule) : Knowledge Byte :=
  if rule.trusts p.d then p.a else .unknown

/-- The accumulator and N, V, Z, C take the result of an addition or a subtraction. -/
def setArithmetic (p : Prediction) (result : Knowledge ArithmeticResult) : Prediction :=
  { p with
    a := result.map ArithmeticResult.value
    v := result.map ArithmeticResult.overflow
    c := result.map ArithmeticResult.carry }.setNZ (result.map ArithmeticResult.value)

/-- The target of a shift and N, Z, C take its result. -/
def setShifted (p : Prediction) (t : Target) (result : Knowledge Shifted) : Prediction :=
  { (t.put p (result.map Shifted.value)).setNZ (result.map Shifted.value) with
    c := result.map Shifted.carry }

/-- The target of a count and N, Z take its result. -/
def setCount (p : Prediction) (t : Target) (result : Knowledge Byte) : Prediction :=
  (t.put p result).setNZ result

/-- Z tells whether the operand and the accumulator have no set bit in common. -/
def probeBits (p : Prediction) (operand : Byte) : Prediction :=
  { p with z := p.a.map fun a => a &&& operand == 0 }

/-- The interrupt sequence: the return address and the status byte are pushed, the
flags are those of the pushed byte, and then interrupts are disabled and, on the 65C02,
decimal mode ends. -/
def interrupt (p : Prediction) (variant : Variant) (status : Byte) : Prediction :=
  let q := { (p.moveStack (-3)).setStatus status with i := .known true }
  if variant.clearsDecimal then { q with d := .known false } else q

end Cells

/-! ### The cells after each of these steps -/

namespace Target

@[simp] theorem flag_put (t : Target) (p : Prediction) (result : Knowledge Byte) (f : Flag) :
    (t.put p result).flag f = p.flag f := by
  cases t <;> simp [put]

@[simp] theorem register_put_memory (p : Prediction) (result : Knowledge Byte) (r : Register) :
    (memory.put p result).register r = p.register r := rfl

@[simp] theorem register_put_register (q : Register) (p : Prediction) (result : Knowledge Byte)
    (r : Register) :
    ((register q).put p result).register r = if r = q then result else p.register r :=
  Cells.register_setRegister p q r result

end Target

namespace Cells

theorem register_setArithmetic (p : Prediction) (result : Knowledge ArithmeticResult)
    (r : Register) :
    (p.setArithmetic result).register r =
      if r = .A then result.map ArithmeticResult.value else p.register r := by
  cases r <;> rfl

theorem flag_setArithmetic (p : Prediction) (result : Knowledge ArithmeticResult) (f : Flag) :
    (p.setArithmetic result).flag f =
      match f with
      | .N => result.map fun s => s.value.msb
      | .V => result.map ArithmeticResult.overflow
      | .Z => result.map fun s => s.value == 0
      | .C => result.map ArithmeticResult.carry
      | f => p.flag f := by
  cases result <;> cases f <;> rfl

@[simp] theorem register_setShifted (p : Prediction) (t : Target) (result : Knowledge Shifted)
    (r : Register) :
    (p.setShifted t result).register r = (t.put p (result.map Shifted.value)).register r := by
  cases r <;> rfl

theorem flag_setShifted (p : Prediction) (t : Target) (result : Knowledge Shifted) (f : Flag) :
    (p.setShifted t result).flag f =
      match f with
      | .N => result.map fun s => s.value.msb
      | .Z => result.map fun s => s.value == 0
      | .C => result.map Shifted.carry
      | f => p.flag f := by
  have hput : ∀ g, (t.put p (result.map Shifted.value)).flag g = p.flag g :=
    Target.flag_put t p _
  cases f with
  | N => exact Knowledge.map_map _ _ _
  | Z => exact Knowledge.map_map _ _ _
  | C => rfl
  | V => exact hput .V
  | D => exact hput .D
  | I => exact hput .I

@[simp] theorem register_setCount (p : Prediction) (t : Target) (result : Knowledge Byte)
    (r : Register) :
    (p.setCount t result).register r = (t.put p result).register r :=
  register_setNZ _ _ r

theorem flag_setCount (p : Prediction) (t : Target) (result : Knowledge Byte) (f : Flag) :
    (p.setCount t result).flag f =
      match f with
      | .N => result.map BitVec.msb
      | .Z => result.map (· == 0)
      | f => p.flag f := by
  cases f <;> simp [setCount, flag_setNZ]

@[simp] theorem register_probeBits (p : Prediction) (operand : Byte) (r : Register) :
    (p.probeBits operand).register r = p.register r := by
  cases r <;> rfl

theorem flag_probeBits (p : Prediction) (operand : Byte) (f : Flag) :
    (p.probeBits operand).flag f =
      if f = .Z then p.a.map fun a => a &&& operand == 0 else p.flag f := by
  cases f <;> rfl

@[simp] theorem register_interrupt (p : Prediction) (variant : Variant) (status : Byte)
    (r : Register) :
    (p.interrupt variant status).register r = (p.moveStack (-3)).register r := by
  cases variant <;> cases r <;> rfl

/-- After an interrupt the flags are those pushed, save the two that it forces. -/
theorem flag_interrupt (p : Prediction) (variant : Variant) (status : Byte) (f : Flag) :
    (p.interrupt variant status).flag f =
      match f with
      | .I => .known true
      | .D => .known (!variant.clearsDecimal && Flag.D.ofStatus status)
      | f => .known (f.ofStatus status) := by
  cases variant <;> cases f <;> rfl

end Cells

/-! ### The operations -/

/-- The prediction after an operation, given the one before it and the observed operand. -/
def Operation.effect (settings : Settings) (operand : Byte) (p : Prediction) :
    Operation → Prediction
  | load r => (p.setRegister r (.known operand)).setNZ (.known operand)
  | store r => p.setRegister r (.known operand)
  | push r => (p.moveStack (-1)).setRegister r (.known operand)
  | pull r => ((p.setRegister r (.known operand)).setNZ (.known operand)).moveStack 1
  | pushStatus => (p.moveStack (-1)).setStatus operand
  | pullStatus => (p.setStatus operand).moveStack 1
  | add =>
    p.setArithmetic <| Knowledge.map₂ (fun a c => Byte.addWithCarry a operand c)
      (p.binaryAccumulator settings.decimal) p.c
  | subtract =>
    p.setArithmetic <| Knowledge.map₂ (fun a c => Byte.subtractWithBorrow a operand c)
      (p.binaryAccumulator settings.decimal) p.c
  | combine g =>
    let result := p.a.map (g.apply · operand)
    { p with a := result }.setNZ result
  | compare r =>
    { p.setNZ ((p.register r).map (· - operand)) with
      c := (p.register r).map fun v => decide (operand ≤ v) }
  | bitTest =>
    let q : Prediction :=
      { p with n := .known (Flag.N.ofStatus operand), v := .known (Flag.V.ofStatus operand) }
    q.probeBits operand
  | bitTestConstant | changeBits => p.probeBits operand
  | shift d t => p.setShifted t ((t.input p operand).map (Byte.shift d · false))
  | rotate d t =>
    p.setShifted t (Knowledge.map₂ (Byte.shift d) (t.input p operand) p.c)
  | increment t => p.setCount t ((t.input p operand).map (· + 1))
  | decrement t => p.setCount t ((t.input p operand).map (· - 1))
  | setFlag f value => Cells.setFlag p f (.known value)
  | transfer source destination =>
    let value := p.register source
    let q := p.setRegister destination value
    if destination = .S then q else q.setNZ value
  | branch f takenWhen =>
    Cells.setFlag p f ((p.flag f).learn (impliedFlag takenWhen (operand != 0)))
  | jumpSubroutine => p.moveStack (-2)
  | returnSubroutine => p.moveStack 2
  | returnInterrupt => (p.setStatus operand).moveStack 3
  | breakInterrupt => p.interrupt settings.variant operand
  | unmodeled => p

end TraceCheck
