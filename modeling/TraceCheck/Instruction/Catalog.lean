import TraceCheck.Instruction.Mnemonic
import TraceCheck.Instruction.Mode
import TraceCheck.Instruction.Operation

/-!
# `TraceCheck.Instruction.Catalog`: the instruction set

The 256 opcodes of the 65C02. An opcode stands for a mnemonic in an addressing mode,
and these two fix everything else: the size and the layout of the text come from the
mode, the kind of observation a trace supplies from the mnemonic, and the operation
from both. Opcodes that are not assigned are no-operations of one to three bytes, so
that decoding stays in step with the instruction stream.
-/

set_option autoImplicit false

namespace TraceCheck

/-- Which observed value a trace supplies for an instruction. -/
inductive ObservationKind where
  /-- The byte the instruction read. -/
  | read
  /-- The byte the instruction wrote. -/
  | write
  /-- Whether the branch was taken. -/
  | branch
deriving DecidableEq

/-- The name of a kind of observation. -/
def ObservationKind.name : ObservationKind → String
  | read => "read"
  | write => "write"
  | branch => "branch"

/-- A mnemonic in an addressing mode. -/
structure Instruction where
  /-- The mnemonic. -/
  mnemonic : Mnemonic
  /-- The addressing mode. -/
  mode : Mode
deriving DecidableEq

/-- What a trace supplies for a mnemonic: the byte written by stores, pushes and the
software interrupt, the outcome of conditional branches, the byte read by all others. -/
def Mnemonic.observed : Mnemonic → ObservationKind
  | STA | STX | STY | STZ | PHA | PHX | PHY | PHP | BRK => .write
  | BPL | BMI | BVC | BVS | BCC | BCS | BNE | BEQ => .branch
  | _ => .read

/-- What shifts and counts apply to: the accumulator in its own mode, memory in all others. -/
def Mode.target : Mode → Target
  | accumulator => .register .A
  | _ => .memory

namespace Instruction

/-- How many bytes the instruction takes. -/
def size (i : Instruction) : Nat := i.mode.size

/-- The layout of the instruction's text. -/
def template (i : Instruction) : Template := i.mode.template

/-- What a trace supplies for the instruction. -/
def observed (i : Instruction) : ObservationKind := i.mnemonic.observed

/-- What the instruction does to the cells. Jumps, `BRA`, `STZ`, the bit instructions
and the instructions that wait or stop do nothing to them. -/
def operation (i : Instruction) : Operation :=
  match i.mnemonic with
  | .LDA => .load .A
  | .LDX => .load .X
  | .LDY => .load .Y
  | .STA => .store .A
  | .STX => .store .X
  | .STY => .store .Y
  | .PHA => .push .A
  | .PHX => .push .X
  | .PHY => .push .Y
  | .PLA => .pull .A
  | .PLX => .pull .X
  | .PLY => .pull .Y
  | .PHP => .pushStatus
  | .PLP => .pullStatus
  | .ADC => .add
  | .SBC => .subtract
  | .AND => .combine .and
  | .ORA => .combine .or
  | .EOR => .combine .xor
  | .CMP => .compare .A
  | .CPX => .compare .X
  | .CPY => .compare .Y
  | .BIT => if i.mode = .immediate then .bitTestConstant else .bitTest
  | .TSB | .TRB => .changeBits
  | .ASL => .shift .left i.mode.target
  | .LSR => .shift .right i.mode.target
  | .ROL => .rotate .left i.mode.target
  | .ROR => .rotate .right i.mode.target
  | .INC => .increment i.mode.target
  | .INX => .increment (.register .X)
  | .INY => .increment (.register .Y)
  | .DEC => .decrement i.mode.target
  | .DEX => .decrement (.register .X)
  | .DEY => .decrement (.register .Y)
  | .CLC => .setFlag .C false
  | .SEC => .setFlag .C true
  | .CLD => .setFlag .D false
  | .SED => .setFlag .D true
  | .CLI => .setFlag .I false
  | .SEI => .setFlag .I true
  | .CLV => .setFlag .V false
  | .TAX => .transfer .A .X
  | .TAY => .transfer .A .Y
  | .TXA => .transfer .X .A
  | .TYA => .transfer .Y .A
  | .TSX => .transfer .S .X
  | .TXS => .transfer .X .S
  | .BPL => .branch .N false
  | .BMI => .branch .N true
  | .BVC => .branch .V false
  | .BVS => .branch .V true
  | .BCC => .branch .C false
  | .BCS => .branch .C true
  | .BNE => .branch .Z false
  | .BEQ => .branch .Z true
  | .JSR => .jumpSubroutine
  | .RTS => .returnSubroutine
  | .RTI => .returnInterrupt
  | .BRK => .breakInterrupt
  | .NOP | .JMP | .BRA | .STZ | .WAI | .STP | .RMB _ | .SMB _ | .BBR _ | .BBS _ => .unmodeled

/-- The instruction set, sixteen rows of sixteen: the high half of an opcode chooses the
row and the low half the place in it. -/
def table : Vector (Vector Instruction 16) 16 :=
  #v[
    -- 0x00
    #v[⟨.BRK, .immediate⟩, ⟨.ORA, .indirectX⟩, ⟨.NOP, .immediate⟩, ⟨.NOP, .implied⟩,
      ⟨.TSB, .zeroPage⟩, ⟨.ORA, .zeroPage⟩, ⟨.ASL, .zeroPage⟩, ⟨.RMB 0, .zeroPage⟩,
      ⟨.PHP, .implied⟩, ⟨.ORA, .immediate⟩, ⟨.ASL, .accumulator⟩, ⟨.NOP, .implied⟩,
      ⟨.TSB, .absolute⟩, ⟨.ORA, .absolute⟩, ⟨.ASL, .absolute⟩, ⟨.BBR 0, .zeroPageRelative⟩],
    -- 0x10
    #v[⟨.BPL, .relative⟩, ⟨.ORA, .indirectY⟩, ⟨.ORA, .zeroPageIndirect⟩, ⟨.NOP, .implied⟩,
      ⟨.TRB, .zeroPage⟩, ⟨.ORA, .zeroPageX⟩, ⟨.ASL, .zeroPageX⟩, ⟨.RMB 1, .zeroPage⟩,
      ⟨.CLC, .implied⟩, ⟨.ORA, .absoluteY⟩, ⟨.INC, .accumulator⟩, ⟨.NOP, .implied⟩,
      ⟨.TRB, .absolute⟩, ⟨.ORA, .absoluteX⟩, ⟨.ASL, .absoluteX⟩, ⟨.BBR 1, .zeroPageRelative⟩],
    -- 0x20
    #v[⟨.JSR, .absolute⟩, ⟨.AND, .indirectX⟩, ⟨.NOP, .immediate⟩, ⟨.NOP, .implied⟩,
      ⟨.BIT, .zeroPage⟩, ⟨.AND, .zeroPage⟩, ⟨.ROL, .zeroPage⟩, ⟨.RMB 2, .zeroPage⟩,
      ⟨.PLP, .implied⟩, ⟨.AND, .immediate⟩, ⟨.ROL, .accumulator⟩, ⟨.NOP, .implied⟩,
      ⟨.BIT, .absolute⟩, ⟨.AND, .absolute⟩, ⟨.ROL, .absolute⟩, ⟨.BBR 2, .zeroPageRelative⟩],
    -- 0x30
    #v[⟨.BMI, .relative⟩, ⟨.AND, .indirectY⟩, ⟨.AND, .zeroPageIndirect⟩, ⟨.NOP, .implied⟩,
      ⟨.BIT, .zeroPageX⟩, ⟨.AND, .zeroPageX⟩, ⟨.ROL, .zeroPageX⟩, ⟨.RMB 3, .zeroPage⟩,
      ⟨.SEC, .implied⟩, ⟨.AND, .absoluteY⟩, ⟨.DEC, .accumulator⟩, ⟨.NOP, .implied⟩,
      ⟨.BIT, .absoluteX⟩, ⟨.AND, .absoluteX⟩, ⟨.ROL, .absoluteX⟩, ⟨.BBR 3, .zeroPageRelative⟩],
    -- 0x40
    #v[⟨.RTI, .implied⟩, ⟨.EOR, .indirectX⟩, ⟨.NOP, .immediate⟩, ⟨.NOP, .implied⟩,
      ⟨.NOP, .zeroPage⟩, ⟨.EOR, .zeroPage⟩, ⟨.LSR, .zeroPage⟩, ⟨.RMB 4, .zeroPage⟩,
      ⟨.PHA, .implied⟩, ⟨.EOR, .immediate⟩, ⟨.LSR, .accumulator⟩, ⟨.NOP, .implied⟩,
      ⟨.JMP, .absolute⟩, ⟨.EOR, .absolute⟩, ⟨.LSR, .absolute⟩, ⟨.BBR 4, .zeroPageRelative⟩],
    -- 0x50
    #v[⟨.BVC, .relative⟩, ⟨.EOR, .indirectY⟩, ⟨.EOR, .zeroPageIndirect⟩, ⟨.NOP, .implied⟩,
      ⟨.NOP, .zeroPageX⟩, ⟨.EOR, .zeroPageX⟩, ⟨.LSR, .zeroPageX⟩, ⟨.RMB 5, .zeroPage⟩,
      ⟨.CLI, .implied⟩, ⟨.EOR, .absoluteY⟩, ⟨.PHY, .implied⟩, ⟨.NOP, .implied⟩,
      ⟨.NOP, .absolute⟩, ⟨.EOR, .absoluteX⟩, ⟨.LSR, .absoluteX⟩, ⟨.BBR 5, .zeroPageRelative⟩],
    -- 0x60
    #v[⟨.RTS, .implied⟩, ⟨.ADC, .indirectX⟩, ⟨.NOP, .immediate⟩, ⟨.NOP, .implied⟩,
      ⟨.STZ, .zeroPage⟩, ⟨.ADC, .zeroPage⟩, ⟨.ROR, .zeroPage⟩, ⟨.RMB 6, .zeroPage⟩,
      ⟨.PLA, .implied⟩, ⟨.ADC, .immediate⟩, ⟨.ROR, .accumulator⟩, ⟨.NOP, .implied⟩,
      ⟨.JMP, .absoluteIndirect⟩, ⟨.ADC, .absolute⟩, ⟨.ROR, .absolute⟩,
      ⟨.BBR 6, .zeroPageRelative⟩],
    -- 0x70
    #v[⟨.BVS, .relative⟩, ⟨.ADC, .indirectY⟩, ⟨.ADC, .zeroPageIndirect⟩, ⟨.NOP, .implied⟩,
      ⟨.STZ, .zeroPageX⟩, ⟨.ADC, .zeroPageX⟩, ⟨.ROR, .zeroPageX⟩, ⟨.RMB 7, .zeroPage⟩,
      ⟨.SEI, .implied⟩, ⟨.ADC, .absoluteY⟩, ⟨.PLY, .implied⟩, ⟨.NOP, .implied⟩,
      ⟨.JMP, .absoluteIndexedIndirect⟩, ⟨.ADC, .absoluteX⟩, ⟨.ROR, .absoluteX⟩,
      ⟨.BBR 7, .zeroPageRelative⟩],
    -- 0x80
    #v[⟨.BRA, .relative⟩, ⟨.STA, .indirectX⟩, ⟨.NOP, .immediate⟩, ⟨.NOP, .implied⟩,
      ⟨.STY, .zeroPage⟩, ⟨.STA, .zeroPage⟩, ⟨.STX, .zeroPage⟩, ⟨.SMB 0, .zeroPage⟩,
      ⟨.DEY, .implied⟩, ⟨.BIT, .immediate⟩, ⟨.TXA, .implied⟩, ⟨.NOP, .implied⟩,
      ⟨.STY, .absolute⟩, ⟨.STA, .absolute⟩, ⟨.STX, .absolute⟩, ⟨.BBS 0, .zeroPageRelative⟩],
    -- 0x90
    #v[⟨.BCC, .relative⟩, ⟨.STA, .indirectY⟩, ⟨.STA, .zeroPageIndirect⟩, ⟨.NOP, .implied⟩,
      ⟨.STY, .zeroPageX⟩, ⟨.STA, .zeroPageX⟩, ⟨.STX, .zeroPageY⟩, ⟨.SMB 1, .zeroPage⟩,
      ⟨.TYA, .implied⟩, ⟨.STA, .absoluteY⟩, ⟨.TXS, .implied⟩, ⟨.NOP, .implied⟩,
      ⟨.STZ, .absolute⟩, ⟨.STA, .absoluteX⟩, ⟨.STZ, .absoluteX⟩, ⟨.BBS 1, .zeroPageRelative⟩],
    -- 0xA0
    #v[⟨.LDY, .immediate⟩, ⟨.LDA, .indirectX⟩, ⟨.LDX, .immediate⟩, ⟨.NOP, .implied⟩,
      ⟨.LDY, .zeroPage⟩, ⟨.LDA, .zeroPage⟩, ⟨.LDX, .zeroPage⟩, ⟨.SMB 2, .zeroPage⟩,
      ⟨.TAY, .implied⟩, ⟨.LDA, .immediate⟩, ⟨.TAX, .implied⟩, ⟨.NOP, .implied⟩,
      ⟨.LDY, .absolute⟩, ⟨.LDA, .absolute⟩, ⟨.LDX, .absolute⟩, ⟨.BBS 2, .zeroPageRelative⟩],
    -- 0xB0
    #v[⟨.BCS, .relative⟩, ⟨.LDA, .indirectY⟩, ⟨.LDA, .zeroPageIndirect⟩, ⟨.NOP, .implied⟩,
      ⟨.LDY, .zeroPageX⟩, ⟨.LDA, .zeroPageX⟩, ⟨.LDX, .zeroPageY⟩, ⟨.SMB 3, .zeroPage⟩,
      ⟨.CLV, .implied⟩, ⟨.LDA, .absoluteY⟩, ⟨.TSX, .implied⟩, ⟨.NOP, .implied⟩,
      ⟨.LDY, .absoluteX⟩, ⟨.LDA, .absoluteX⟩, ⟨.LDX, .absoluteY⟩, ⟨.BBS 3, .zeroPageRelative⟩],
    -- 0xC0
    #v[⟨.CPY, .immediate⟩, ⟨.CMP, .indirectX⟩, ⟨.NOP, .immediate⟩, ⟨.NOP, .implied⟩,
      ⟨.CPY, .zeroPage⟩, ⟨.CMP, .zeroPage⟩, ⟨.DEC, .zeroPage⟩, ⟨.SMB 4, .zeroPage⟩,
      ⟨.INY, .implied⟩, ⟨.CMP, .immediate⟩, ⟨.DEX, .implied⟩, ⟨.WAI, .implied⟩,
      ⟨.CPY, .absolute⟩, ⟨.CMP, .absolute⟩, ⟨.DEC, .absolute⟩, ⟨.BBS 4, .zeroPageRelative⟩],
    -- 0xD0
    #v[⟨.BNE, .relative⟩, ⟨.CMP, .indirectY⟩, ⟨.CMP, .zeroPageIndirect⟩, ⟨.NOP, .implied⟩,
      ⟨.NOP, .zeroPageX⟩, ⟨.CMP, .zeroPageX⟩, ⟨.DEC, .zeroPageX⟩, ⟨.SMB 5, .zeroPage⟩,
      ⟨.CLD, .implied⟩, ⟨.CMP, .absoluteY⟩, ⟨.PHX, .implied⟩, ⟨.STP, .implied⟩,
      ⟨.NOP, .absolute⟩, ⟨.CMP, .absoluteX⟩, ⟨.DEC, .absoluteX⟩, ⟨.BBS 5, .zeroPageRelative⟩],
    -- 0xE0
    #v[⟨.CPX, .immediate⟩, ⟨.SBC, .indirectX⟩, ⟨.NOP, .immediate⟩, ⟨.NOP, .implied⟩,
      ⟨.CPX, .zeroPage⟩, ⟨.SBC, .zeroPage⟩, ⟨.INC, .zeroPage⟩, ⟨.SMB 6, .zeroPage⟩,
      ⟨.INX, .implied⟩, ⟨.SBC, .immediate⟩, ⟨.NOP, .implied⟩, ⟨.NOP, .implied⟩,
      ⟨.CPX, .absolute⟩, ⟨.SBC, .absolute⟩, ⟨.INC, .absolute⟩, ⟨.BBS 6, .zeroPageRelative⟩],
    -- 0xF0
    #v[⟨.BEQ, .relative⟩, ⟨.SBC, .indirectY⟩, ⟨.SBC, .zeroPageIndirect⟩, ⟨.NOP, .implied⟩,
      ⟨.NOP, .zeroPageX⟩, ⟨.SBC, .zeroPageX⟩, ⟨.INC, .zeroPageX⟩, ⟨.SMB 7, .zeroPage⟩,
      ⟨.SED, .implied⟩, ⟨.SBC, .absoluteY⟩, ⟨.PLX, .implied⟩, ⟨.NOP, .implied⟩,
      ⟨.NOP, .absolute⟩, ⟨.SBC, .absoluteX⟩, ⟨.INC, .absoluteX⟩, ⟨.BBS 7, .zeroPageRelative⟩]]

/-- The instruction of an opcode. -/
def decode (opcode : Byte) : Instruction :=
  (table.get (Fin.ofNat 16 (opcode.toNat / 16))).get (Fin.ofNat 16 opcode.toNat)

end Instruction

end TraceCheck
