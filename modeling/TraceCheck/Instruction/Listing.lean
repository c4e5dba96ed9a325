import TraceCheck.Instruction.Catalog

/-!
# `TraceCheck.Instruction.Listing`: assembly text of an opcode

The text of an instruction is its mode's template filled in with its mnemonic, the
bytes that follow the opcode and a label for the branch target.
-/

set_option autoImplicit false

namespace TraceCheck

namespace Instruction

/-- The assembly text of an opcode with its operand bytes. The label is used by the
modes that show a branch target and ignored by all others. -/
def format (opcode : Byte) (operands : List Byte) (label : Option String) :
    Except RenderError String :=
  let i := decode opcode
  i.template.render { mnemonic := i.mnemonic.text, operands := operands, label := label }

end Instruction

end TraceCheck
