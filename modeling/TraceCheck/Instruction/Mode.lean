import TraceCheck.Instruction.Template

/-!
# `TraceCheck.Instruction.Mode`: the sixteen addressing modes

The addressing mode of an instruction fixes how many operand bytes follow the opcode
and how they are laid out in assembly text. Effective addresses are not computed
here: a trace checker needs the length and the layout alone. Sixteen-bit operands are
stored low byte first and written high byte first.
-/

set_option autoImplicit false

namespace TraceCheck

/-- The addressing modes. -/
inductive Mode where
  /-- No operand. -/
  | implied
  /-- The accumulator. -/
  | accumulator
  /-- A branch offset, shown as a label. -/
  | relative
  /-- A constant. -/
  | immediate
  /-- An address in the first page. -/
  | zeroPage
  /-- An address in the first page, indexed by X. -/
  | zeroPageX
  /-- An address in the first page, indexed by Y. -/
  | zeroPageY
  /-- A pointer in the first page, the pointer's address indexed by X. -/
  | indirectX
  /-- A pointer in the first page, its target indexed by Y. -/
  | indirectY
  /-- A pointer in the first page. -/
  | zeroPageIndirect
  /-- A sixteen-bit address. -/
  | absolute
  /-- A sixteen-bit address, indexed by X. -/
  | absoluteX
  /-- A sixteen-bit address, indexed by Y. -/
  | absoluteY
  /-- A sixteen-bit pointer. -/
  | absoluteIndirect
  /-- A sixteen-bit pointer, its address indexed by X. -/
  | absoluteIndexedIndirect
  /-- A bit test in the first page together with a branch. -/
  | zeroPageRelative
deriving DecidableEq

namespace Mode

/-- All modes, in catalog order. -/
def all : List Mode :=
  [implied, accumulator, relative, immediate, zeroPage, zeroPageX, zeroPageY, indirectX,
    indirectY, zeroPageIndirect, absolute, absoluteX, absoluteY, absoluteIndirect,
    absoluteIndexedIndirect, zeroPageRelative]

/-- The place of a mode in the catalog. -/
def index (m : Mode) : Nat := all.idxOf m

/-- The name under which the catalog lists a mode. -/
def name : Mode → String
  | implied => "Implied"
  | accumulator => "Accumulator"
  | relative => "Relative"
  | immediate => "Immediate"
  | zeroPage => "ZeroPage"
  | zeroPageX => "ZeroPageX"
  | zeroPageY => "ZeroPageY"
  | indirectX => "IndirectX"
  | indirectY => "IndirectY"
  | zeroPageIndirect => "ZeroPageIndirect"
  | absolute => "Absolute"
  | absoluteX => "AbsoluteX"
  | absoluteY => "AbsoluteY"
  | absoluteIndirect => "AbsoluteIndirect"
  | absoluteIndexedIndirect => "AbsoluteIndexedIndirect"
  | zeroPageRelative => "ZeroPageRelative"

/-- The mode of a name. -/
def ofName? (s : String) : Option Mode := all.find? fun m => m.name == s

/-- How many bytes follow the opcode. -/
def operandBytes : Mode → Nat
  | implied | accumulator => 0
  | relative | immediate | zeroPage | zeroPageX | zeroPageY | indirectX | indirectY
  | zeroPageIndirect => 1
  | absolute | absoluteX | absoluteY | absoluteIndirect | absoluteIndexedIndirect
  | zeroPageRelative => 2

/-- How many bytes an instruction of this mode takes, opcode included. -/
def size (m : Mode) : Nat := m.operandBytes + 1

/-- The layout of an operand of one byte between two literal texts. -/
def shortLayout (before after : String) : Template :=
  [.mnemonic, .text before, .byte 0] ++ if after = "" then [] else [.text after]

/-- The layout of an operand of two bytes, high byte first, between two literal texts. -/
def wordLayout (before after : String) : Template :=
  [.mnemonic, .text before, .byte 1, .byte 0] ++ if after = "" then [] else [.text after]

/-- The layout of an instruction's text. -/
def template : Mode → Template
  | implied => [.mnemonic]
  | accumulator => [.mnemonic, .text " A"]
  | relative => [.mnemonic, .text " ", .label]
  | immediate => shortLayout " #" ""
  | zeroPage => shortLayout " " ""
  | zeroPageX => shortLayout " " ",X"
  | zeroPageY => shortLayout " " ",Y"
  | indirectX => shortLayout " (" ",X)"
  | indirectY => shortLayout " (" "),Y"
  | zeroPageIndirect => shortLayout " (" ")"
  | absolute => wordLayout " " ""
  | absoluteX => wordLayout " " ",X"
  | absoluteY => wordLayout " " ",Y"
  | absoluteIndirect => wordLayout " (" ")"
  | absoluteIndexedIndirect => wordLayout " (" ",X)"
  | zeroPageRelative => [.mnemonic, .text " ", .byte 0, .text ",", .label]

theorem mem_all (m : Mode) : m ∈ all := by cases m <;> decide

/-- A mode stands in the catalog at its own place. -/
theorem getElem?_all_index (m : Mode) : all[m.index]? = some m := by cases m <;> decide

/-- A template mentions no operand byte that its mode does not have. -/
theorem need_template_le (m : Mode) : m.template.need ≤ m.operandBytes := by
  cases m <;> decide

end Mode

end TraceCheck
