import TraceCheck.Byte

/-!
# `TraceCheck.Instruction.Mnemonic`: the names of the instructions

The mnemonics of the 65C02 with the bit instructions `RMB`, `SMB`, `BBR` and `BBS`,
which carry the number of their bit. Several opcodes share a mnemonic and differ in
their addressing mode.
-/

set_option autoImplicit false

namespace TraceCheck

/-- The mnemonics. -/
inductive Mnemonic where
  | ADC | AND | ASL
  | BBR (bit : Fin 8) | BBS (bit : Fin 8)
  | BCC | BCS | BEQ | BIT | BMI | BNE | BPL | BRA | BRK | BVC | BVS
  | CLC | CLD | CLI | CLV | CMP | CPX | CPY
  | DEC | DEX | DEY
  | EOR
  | INC | INX | INY
  | JMP | JSR
  | LDA | LDX | LDY | LSR
  | NOP
  | ORA
  | PHA | PHP | PHX | PHY | PLA | PLP | PLX | PLY
  | RMB (bit : Fin 8)
  | ROL | ROR | RTI | RTS
  | SBC | SEC | SED | SEI
  | SMB (bit : Fin 8)
  | STA | STP | STX | STY | STZ
  | TAX | TAY | TRB | TSB | TSX | TXA | TXS | TYA
  | WAI
deriving DecidableEq

namespace Mnemonic

/-- A stem followed by the number of a bit. -/
def numbered (stem : String) (bit : Fin 8) : String := stem.push (Byte.hexDigit bit.val)

/-- The text of a mnemonic. -/
def text : Mnemonic → String
  | ADC => "ADC"
  | AND => "AND"
  | ASL => "ASL"
  | BBR bit => numbered "BBR" bit
  | BBS bit => numbered "BBS" bit
  | BCC => "BCC"
  | BCS => "BCS"
  | BEQ => "BEQ"
  | BIT => "BIT"
  | BMI => "BMI"
  | BNE => "BNE"
  | BPL => "BPL"
  | BRA => "BRA"
  | BRK => "BRK"
  | BVC => "BVC"
  | BVS => "BVS"
  | CLC => "CLC"
  | CLD => "CLD"
  | CLI => "CLI"
  | CLV => "CLV"
  | CMP => "CMP"
  | CPX => "CPX"
  | CPY => "CPY"
  | DEC => "DEC"
  | DEX => "DEX"
  | DEY => "DEY"
  | EOR => "EOR"
  | INC => "INC"
  | INX => "INX"
  | INY => "INY"
  | JMP => "JMP"
  | JSR => "JSR"
  | LDA => "LDA"
  | LDX => "LDX"
  | LDY => "LDY"
  | LSR => "LSR"
  | NOP => "NOP"
  | ORA => "ORA"
  | PHA => "PHA"
  | PHP => "PHP"
  | PHX => "PHX"
  | PHY => "PHY"
  | PLA => "PLA"
  | PLP => "PLP"
  | PLX => "PLX"
  | PLY => "PLY"
  | RMB bit => numbered "RMB" bit
  | ROL => "ROL"
  | ROR => "ROR"
  | RTI => "RTI"
  | RTS => "RTS"
  | SBC => "SBC"
  | SEC => "SEC"
  | SED => "SED"
  | SEI => "SEI"
  | SMB bit => numbered "SMB" bit
  | STA => "STA"
  | STP => "STP"
  | STX => "STX"
  | STY => "STY"
  | STZ => "STZ"
  | TAX => "TAX"
  | TAY => "TAY"
  | TRB => "TRB"
  | TSB => "TSB"
  | TSX => "TSX"
  | TXA => "TXA"
  | TXS => "TXS"
  | TYA => "TYA"
  | WAI => "WAI"

end Mnemonic

end TraceCheck
