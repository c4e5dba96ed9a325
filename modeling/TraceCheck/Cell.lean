/-!
# `TraceCheck.Cell`: the ten cells of the processor

Four eight-bit registers and six status flags. The two flags a status byte carries
beside these, the break flag and the unused bit, live only in pushed copies of the
status register and are no cells. Each kind of cell has a list of all its members in
the order in which they are shown and checked, and a name under which it is shown.
-/

set_option autoImplicit false

namespace TraceCheck

/-- The registers: accumulator, two index registers, stack pointer. -/
inductive Register where
  | A | X | Y | S
deriving DecidableEq

namespace Register

/-- All registers, in the order in which they are shown. -/
def all : List Register := [A, X, Y, S]

/-- The letter of a register. -/
def letter : Register → String
  | A => "A"
  | X => "X"
  | Y => "Y"
  | S => "S"

/-- The name under which a register is shown. The stack pointer is shown as `SP`. -/
def name : Register → String
  | A => "A"
  | X => "X"
  | Y => "Y"
  | S => "SP"

theorem mem_all (r : Register) : r ∈ all := by cases r <;> decide

end Register

/-- The status flags: negative, overflow, decimal, interrupt disable, zero, carry. -/
inductive Flag where
  | N | V | D | I | Z | C
deriving DecidableEq

namespace Flag

/-- All flags, in the order in which they are shown and checked. -/
def all : List Flag := [N, V, D, I, Z, C]

/-- The name under which a flag is shown. -/
def name : Flag → String
  | N => "N"
  | V => "V"
  | D => "D"
  | I => "I"
  | Z => "Z"
  | C => "C"

theorem mem_all (f : Flag) : f ∈ all := by cases f <;> decide

end Flag

/-- A register or a flag. -/
inductive Cell where
  | register (r : Register)
  | flag (f : Flag)
deriving DecidableEq

namespace Cell

/-- All cells, registers first. -/
def all : List Cell := Register.all.map register ++ Flag.all.map flag

/-- The name under which a cell is shown. -/
def name : Cell → String
  | register r => r.name
  | flag f => f.name

theorem mem_all (c : Cell) : c ∈ all := by
  rcases c with r | f
  · cases r <;> decide
  · cases f <;> decide

end Cell

end TraceCheck
