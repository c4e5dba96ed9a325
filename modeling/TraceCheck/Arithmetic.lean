import TraceCheck.Byte

/-!
# `TraceCheck.Arithmetic`: eight-bit arithmetic with carry and overflow

What the arithmetic unit computes from known inputs: addition with carry, subtraction
with borrow, and the one-place shifts that take a bit in at one end and give one out
at the other. The register and the memory forms of an instruction share these
functions, and so do known and unknown inputs: nothing here knows about knowledge.

Sums and differences are first taken without wrapping, in the natural numbers and in
the integers. The carry is read off that exact result, and its value modulo 256 is
the byte that remains.
-/

set_option autoImplicit false

namespace TraceCheck

/-- The result of an addition or a subtraction. -/
structure ArithmeticResult where
  /-- The result modulo 256. -/
  value : Byte
  /-- Carry out of an addition, absence of a borrow in a subtraction. -/
  carry : Bool
  /-- Whether the result leaves the signed range -128 to 127. -/
  overflow : Bool
deriving DecidableEq

/-- The result of a one-place shift. -/
structure Shifted where
  /-- The shifted byte. -/
  value : Byte
  /-- The bit shifted out. -/
  carry : Bool
deriving DecidableEq

/-- The way a shift moves the bits. -/
inductive Direction where
  | left
  | right
deriving DecidableEq

/-- The bitwise connectives of the accumulator instructions. -/
inductive Gate where
  | and
  | or
  | xor
deriving DecidableEq

/-- Combines two bytes bit by bit. -/
def Gate.apply : Gate → Byte → Byte → Byte
  | and, a, m => a &&& m
  | or, a, m => a ||| m
  | xor, a, m => a ^^^ m

namespace Byte

/-- Adds two bytes and a carry. The sum has nine bits, and the ninth is the carry out.
It overflows when the operands share a sign that the result does not have. -/
def addWithCarry (a m : Byte) (carryIn : Bool) : ArithmeticResult :=
  let sum := a.toNat + m.toNat + carryIn.toNat
  let value := BitVec.ofNat 8 sum
  { value := value
    carry := decide (256 ≤ sum)
    overflow := a.msb == m.msb && a.msb != value.msb }

/-- The exact difference of two bytes, one less when the carry is clear. -/
def difference (a m : Byte) (carryIn : Bool) : Int :=
  a.toNat - m.toNat - (1 - carryIn.toNat)

/-- Subtracts a byte, and one more when the carry is clear. The carry out is set when
nothing had to be borrowed. It overflows when the operands differ in sign and the
result does not have the sign of the first. -/
def subtractWithBorrow (a m : Byte) (carryIn : Bool) : ArithmeticResult :=
  let value := BitVec.ofInt 8 (difference a m carryIn)
  { value := value
    carry := decide (0 ≤ difference a m carryIn)
    overflow := a.msb != m.msb && a.msb != value.msb }

/-- Shifts by one place. Leftwards the carry enters bit 0 and bit 7 leaves; rightwards
the carry enters bit 7 and bit 0 leaves. -/
def shift : Direction → Byte → Bool → Shifted
  | .left, b, carryIn => ⟨b <<< 1 ||| (if carryIn then 0x01 else 0), b.msb⟩
  | .right, b, carryIn => ⟨b >>> 1 ||| (if carryIn then 0x80 else 0), b.getLsbD 0⟩

end Byte

end TraceCheck
