import TraceCheck.Instruction.Listing

/-!
# `TraceCheck.Instruction.Stream`: instructions in a row of bytes

Code is stored without marks between its instructions. A reader knows where the next one begins
from the opcode of the one before: it takes as many bytes as the size of that opcode's
instruction says, and goes on with what remains. A stream may end in the middle of an
instruction. The last `Chunk` of a stream can therefore have fewer operand bytes than its mode
asks for, but no chunk has more.
-/

set_option autoImplicit false

namespace TraceCheck

namespace Instruction

theorem size_pos (i : Instruction) : 0 < i.size := Nat.succ_pos _

/-- The bytes of the first instruction of a stream, as many as its size says, or all that there
are. -/
def front : List Byte → List Byte
  | [] => []
  | opcode :: rest => (opcode :: rest).take (decode opcode).size

/-- The bytes behind the first instruction of a stream. -/
def remainder : List Byte → List Byte
  | [] => []
  | opcode :: rest => (opcode :: rest).drop (decode opcode).size

theorem front_append_remainder (stream : List Byte) :
    front stream ++ remainder stream = stream := by
  cases stream with
  | nil => rfl
  | cons opcode rest => exact List.take_append_drop _ _

/-- At least the opcode is taken off. -/
theorem length_remainder_lt (opcode : Byte) (rest : List Byte) :
    (remainder (opcode :: rest)).length < (opcode :: rest).length := by
  have hsize := (decode opcode).size_pos
  simp only [remainder, List.length_drop, List.length_cons]
  omega

end Instruction

/-- An instruction as it stands in a stream, the end of which may have cut it off. -/
structure Chunk where
  /-- The first byte. -/
  opcode : Byte
  /-- The bytes behind the opcode. -/
  operands : List Byte
  /-- There are no more of them than the mode has. -/
  bounded : operands.length ≤ (Instruction.decode opcode).mode.operandBytes
deriving DecidableEq

namespace Chunk

/-- The instruction of the opcode. -/
def instruction (c : Chunk) : Instruction := Instruction.decode c.opcode

/-- The bytes, opcode included. -/
def bytes (c : Chunk) : List Byte := c.opcode :: c.operands

/-- No byte of the instruction is missing. -/
def IsComplete (c : Chunk) : Prop := c.bytes.length = c.instruction.size

instance (c : Chunk) : Decidable c.IsComplete := inferInstanceAs (Decidable (_ = _))

/-- The assembly text. -/
def format (c : Chunk) (label : Option String) : Except RenderError String :=
  Instruction.format c.opcode c.operands label

/-- The first chunk of a stream that begins with an opcode. -/
def first (opcode : Byte) (rest : List Byte) : Chunk where
  opcode := opcode
  operands := rest.take (Instruction.decode opcode).mode.operandBytes
  bounded := List.length_take_le _ _

/-- The chunks of a stream. -/
def split : List Byte → List Chunk
  | [] => []
  | opcode :: rest => first opcode rest :: split (Instruction.remainder (opcode :: rest))
termination_by stream => stream.length
decreasing_by exact Instruction.length_remainder_lt opcode rest

theorem bytes_first (opcode : Byte) (rest : List Byte) :
    (first opcode rest).bytes = Instruction.front (opcode :: rest) := rfl

@[simp] theorem split_nil : split [] = [] := by rw [split]

@[simp] theorem split_cons (opcode : Byte) (rest : List Byte) :
    split (opcode :: rest) =
      first opcode rest :: split (Instruction.remainder (opcode :: rest)) := by
  rw [split]

end Chunk

end TraceCheck
