import Mathlib.Data.List.Nodup
import TraceCheck.Instruction.Listing
import TraceCheck.Proofs.OpcodeTable
import TraceCheck.Proofs.TemplateText

/-!
# `TraceCheck.Proofs.UnambiguousText`: an instruction can be told from its text

`Instruction.format` writes an opcode with its operand bytes and a label as a line of
assembly. This module reads such a line backwards. Whoever sees the text knows the mnemonic,
the addressing mode, every operand byte that is shown and the label, although a label may be
any text at all, and knows the opcode too unless the instruction is a no-operation
(`Instruction.text_unambiguous`).

The line is cut in three steps.

* The mnemonic is what stands before the first blank. No mnemonic has a blank, and what
  follows one is nothing or begins with a blank (`Mode.beginsBlank_of_write`).
* The mnemonic decides whether a label is shown, so that a label can not be taken for
  operands of another mode (`Mnemonic.labelMode?`). Where none is shown, the mode follows from
  the outline of the text, in which all hexadecimal digits look alike
  (`Template.outline`). `ASL A` and `ASL 0A` differ in length, although `A` is a digit.
* Once the template is the same for both texts, they are compared token by token
  (`Template.write_token_eq`). Every token but a label has a text of fixed length, and a label
  stands only at the end.
-/

set_option autoImplicit false

namespace TraceCheck

/-! ### The mnemonic before the first blank -/

namespace Mnemonic

/-- All mnemonics. -/
def all : List Mnemonic :=
  [ADC, AND, ASL, BCC, BCS, BEQ, BIT, BMI, BNE, BPL, BRA, BRK, BVC, BVS, CLC, CLD, CLI, CLV, CMP,
    CPX, CPY, DEC, DEX, DEY, EOR, INC, INX, INY, JMP, JSR, LDA, LDX, LDY, LSR, NOP, ORA, PHA, PHP,
    PHX, PHY, PLA, PLP, PLX, PLY, ROL, ROR, RTI, RTS, SBC, SEC, SED, SEI, STA, STP, STX, STY, STZ,
    TAX, TAY, TRB, TSB, TSX, TXA, TXS, TYA, WAI] ++
  [BBR, BBS, RMB, SMB].flatMap fun numbered => (List.finRange 8).map numbered

theorem mem_all (m : Mnemonic) : m ∈ all := by
  cases m with
  | BBR bit | BBS bit | RMB bit | SMB bit => revert bit; decide
  | _ => decide

theorem nodup_text : (all.map text).Nodup := by decide +kernel

/-- Mnemonics with the same text are the same. -/
theorem text_inj {m n : Mnemonic} : m.text = n.text ↔ m = n := by
  constructor
  · intro h
    exact List.inj_on_of_nodup_map nodup_text (mem_all m) (mem_all n) h
  · rintro rfl
    rfl

theorem blank_notMem_text (m : Mnemonic) : ' ' ∉ m.text.toList := by
  have hall : ∀ m ∈ all, ' ' ∉ m.text.toList := by decide +kernel
  exact hall m (mem_all m)

end Mnemonic

/-- What stands behind a mnemonic is nothing or begins with a blank. -/
def BeginsBlank (cs : List Char) : Prop := cs = [] ∨ ∃ rest, cs = ' ' :: rest

theorem takeWhile_append_blank {xs cs : List Char} (hxs : ' ' ∉ xs) (hcs : BeginsBlank cs) :
    (xs ++ cs).takeWhile (· != ' ') = xs := by
  have hkept : ∀ c ∈ xs, (c != ' ') = true := by
    intro c hc
    rw [bne_iff_ne]
    rintro rfl
    exact hxs hc
  rw [List.takeWhile_append_of_pos hkept]
  rcases hcs with rfl | ⟨rest, rfl⟩ <;> simp

/-- A mnemonic and what stands behind it can be told from the whole. -/
theorem Mnemonic.text_append_inj {m n : Mnemonic} {cs ds : List Char} (hcs : BeginsBlank cs)
    (hds : BeginsBlank ds) (h : m.text.toList ++ cs = n.text.toList ++ ds) : m = n ∧ cs = ds := by
  have hfront := congrArg (List.takeWhile (· != ' ')) h
  rw [takeWhile_append_blank m.blank_notMem_text hcs,
    takeWhile_append_blank n.blank_notMem_text hds] at hfront
  rw [hfront] at h
  exact ⟨text_inj.mp (String.toList_inj.mp hfront), List.append_cancel_left h⟩

/-! ### The mode behind the mnemonic -/

/-- The mode in which a mnemonic shows a label, if it shows one at all. -/
def Mnemonic.labelMode? : Mnemonic → Option Mode
  | BBR _ | BBS _ => some .zeroPageRelative
  | BPL | BMI | BVC | BVS | BCC | BCS | BNE | BEQ | BRA => some .relative
  | _ => none

theorem Instruction.labelMode?_decode (opcode : Byte) :
    (decode opcode).mnemonic.labelMode? =
      if (decode opcode).template.hasLabel then some (decode opcode).mode else none := by
  have hall : ∀ i ∈ catalog, i.mnemonic.labelMode? =
      if i.template.hasLabel then some i.mode else none := by decide +kernel
  exact hall _ (decode_mem_catalog opcode)

namespace Mode

/-- What a mode writes behind the mnemonic. -/
def layout (m : Mode) : Template := m.template.tail

theorem template_eq (m : Mode) : m.template = .mnemonic :: m.layout := by cases m <;> rfl

theorem labelLast_template (m : Mode) : m.template.labelLast = true := by cases m <;> rfl

theorem isPlain_layout (m : Mode) : m.layout.isPlain = !m.template.hasLabel := by
  cases m <;> decide

/-- Where no label is shown, the outline of what stands behind the mnemonic is that of the
layout. -/
theorem map_veil_write {m : Mode} (hm : m.template.hasLabel = false) {f : Filling} {s : String}
    (h : m.layout.write f = .ok s) : s.toList.map veil = m.layout.outline := by
  have hplain : m.layout.isPlain = true := by
    rw [isPlain_layout, hm]
    rfl
  exact Template.map_veil_write hplain h

/-- The modes without a label have different outlines. -/
theorem eq_of_outline_eq {m n : Mode} (hm : m.template.hasLabel = false)
    (hn : n.template.hasLabel = false) (h : m.layout.outline = n.layout.outline) : m = n := by
  have hall : ∀ m ∈ all, ∀ n ∈ all, m.template.hasLabel = false → n.template.hasLabel = false →
      m.layout.outline = n.layout.outline → m = n := by decide +kernel
  exact hall m (mem_all m) n (mem_all n) hm hn h

/-- What a mode writes behind the mnemonic is nothing or begins with a blank. -/
theorem beginsBlank_of_write {m : Mode} {f : Filling} {s : String}
    (h : m.layout.write f = .ok s) : BeginsBlank s.toList := by
  have hlayout : m.layout = [] ∨ ∃ literal cs rest, m.layout = .text literal :: rest ∧
      literal.toList = ' ' :: cs := by
    cases m with
    | implied => exact Or.inl rfl
    | _ => exact Or.inr ⟨_, _, _, rfl, rfl⟩
  rcases hlayout with hnil | ⟨literal, cs, rest, hcons, hliteral⟩
  · rw [hnil] at h
    cases h
    exact Or.inl rfl
  · rw [hcons] at h
    obtain ⟨u, v, hu, -, rfl⟩ := Template.write_cons_eq_ok_iff.mp h
    cases hu
    rw [String.toList_append, hliteral]
    exact Or.inr ⟨cs ++ v.toList, rfl⟩

/-- Whether a mode has an operand of sixteen bits. -/
def isAbsolute : Mode → Bool
  | absolute | absoluteX | absoluteY | absoluteIndirect | absoluteIndexedIndirect => true
  | _ => false

/-- A mode with a sixteen-bit operand shows its high byte and then its low byte, and there are
no other digits around them. -/
theorem layout_of_isAbsolute {m : Mode} (hm : m.isAbsolute = true) :
    ∃ before after, m.layout = .text before :: .byte 1 :: .byte 0 :: after ∧
      before.toList.filter Byte.isHexDigit = [] ∧
      ∀ f, (after.flatMap (Token.chars f)).filter Byte.isHexDigit = [] := by
  cases m with
  | absolute => exact ⟨" ", [], rfl, by decide, fun _ => rfl⟩
  | absoluteX => exact ⟨" ", [.text ",X"], rfl, by decide, fun _ => rfl⟩
  | absoluteY => exact ⟨" ", [.text ",Y"], rfl, by decide, fun _ => rfl⟩
  | absoluteIndirect => exact ⟨" (", [.text ")"], rfl, by decide, fun _ => rfl⟩
  | absoluteIndexedIndirect => exact ⟨" (", [.text ",X)"], rfl, by decide, fun _ => rfl⟩
  | _ => cases hm

/-- The digits behind the mnemonic in a mode with a sixteen-bit operand are those of the two
operand bytes. -/
theorem filter_of_write {m : Mode} (hm : m.isAbsolute = true) {f : Filling} {s : String}
    (h : m.layout.write f = .ok s) :
    ∃ low high, f.operands[0]? = some low ∧ f.operands[1]? = some high ∧
      s.toList.filter Byte.isHexDigit = Byte.hexDigits high ++ Byte.hexDigits low := by
  obtain ⟨before, after, hlayout, hbefore, hafter⟩ := layout_of_isAbsolute hm
  rw [hlayout] at h
  have hbyte : ∀ i, .byte i ∈ Token.text before :: .byte 1 :: .byte 0 :: after →
      ∃ b, f.operands[i]? = some b := by
    intro i hmem
    obtain ⟨u, hu⟩ := Template.exists_write_of_mem h hmem
    obtain ⟨b, hb, -⟩ := Token.write_byte_eq_ok_iff.mp hu
    exact ⟨b, hb⟩
  obtain ⟨low, hlow⟩ := hbyte 0 (by simp)
  obtain ⟨high, hhigh⟩ := hbyte 1 (by simp)
  have hdigits : ∀ b, (Byte.hexDigits b).filter Byte.isHexDigit = Byte.hexDigits b := fun b =>
    List.filter_eq_self.mpr fun c hc => Byte.isHexDigit_of_mem_hexDigits hc
  refine ⟨low, high, hlow, hhigh, ?_⟩
  have htext : Token.chars f (.text before) = before.toList := Token.chars_of_write rfl
  rw [Template.toList_of_write h]
  simp only [List.flatMap_cons, List.filter_append, hafter f, List.append_nil,
    Token.chars_byte hlow, Token.chars_byte hhigh, hdigits,
    htext, hbefore, List.nil_append]

end Mode

/-! ### Instructions and their texts -/

namespace Instruction

/-- What the template of an opcode is filled in with. -/
def filling (opcode : Byte) (operands : List Byte) (label : Option String) : Filling :=
  { mnemonic := (decode opcode).mnemonic.text, operands := operands, label := label }

theorem write_of_format {opcode : Byte} {operands : List Byte} {label : Option String}
    {text : String} (h : format opcode operands label = .ok text) :
    (decode opcode).template.write (filling opcode operands label) = .ok text :=
  Template.write_of_render h

/-- A text is a mnemonic and what its mode writes behind it. -/
theorem exists_tail_of_format {opcode : Byte} {operands : List Byte} {label : Option String}
    {text : String} (h : format opcode operands label = .ok text) :
    ∃ tail, (decode opcode).mode.layout.write (filling opcode operands label) = .ok tail ∧
      text.toList = (decode opcode).mnemonic.text.toList ++ tail.toList := by
  have hwrite := write_of_format h
  rw [template, Mode.template_eq] at hwrite
  obtain ⟨u, tail, hu, htail, rfl⟩ := Template.write_cons_eq_ok_iff.mp hwrite
  cases hu
  exact ⟨tail, htail, String.toList_append⟩

/-- Opcodes with the same mnemonic have the same mode, unless neither of them shows a label. -/
theorem mode_eq_or_hasLabel_eq_false {o₁ o₂ : Byte}
    (h : (decode o₁).mnemonic = (decode o₂).mnemonic) :
    (decode o₁).mode = (decode o₂).mode ∨
      (decode o₁).template.hasLabel = false ∧ (decode o₂).template.hasLabel = false := by
  have hlabel := congrArg Mnemonic.labelMode? h
  rw [labelMode?_decode, labelMode?_decode] at hlabel
  cases h₁ : (decode o₁).template.hasLabel with
  | true =>
    rw [if_pos h₁] at hlabel
    cases h₂ : (decode o₂).template.hasLabel with
    | true =>
      rw [if_pos h₂] at hlabel
      exact Or.inl (Option.some.inj hlabel)
    | false =>
      rw [h₂] at hlabel
      cases hlabel
  | false =>
    rw [h₁] at hlabel
    cases h₂ : (decode o₂).template.hasLabel with
    | true =>
      rw [if_pos h₂] at hlabel
      cases hlabel
    | false => exact Or.inr ⟨rfl, rfl⟩

/-- Two instructions with the same text have the same mnemonic and the same mode. -/
theorem decode_eq_of_format {o₁ o₂ : Byte} {ops₁ ops₂ : List Byte} {l₁ l₂ : Option String}
    {text : String} (h₁ : format o₁ ops₁ l₁ = .ok text) (h₂ : format o₂ ops₂ l₂ = .ok text) :
    decode o₁ = decode o₂ := by
  obtain ⟨tail₁, htail₁, htext₁⟩ := exists_tail_of_format h₁
  obtain ⟨tail₂, htail₂, htext₂⟩ := exists_tail_of_format h₂
  obtain ⟨hmnemonic, htail⟩ := Mnemonic.text_append_inj (Mode.beginsBlank_of_write htail₁)
    (Mode.beginsBlank_of_write htail₂) (htext₁.symm.trans htext₂)
  have hmode : (decode o₁).mode = (decode o₂).mode := by
    rcases mode_eq_or_hasLabel_eq_false hmnemonic with hmode | ⟨hlabel₁, hlabel₂⟩
    · exact hmode
    · -- No label is shown, so the outlines tell the modes apart.
      refine Mode.eq_of_outline_eq hlabel₁ hlabel₂ ?_
      rw [← Mode.map_veil_write hlabel₁ htail₁, ← Mode.map_veil_write hlabel₂ htail₂, htail]
  have hfields : ∀ i j : Instruction, i.mnemonic = j.mnemonic → i.mode = j.mode → i = j := by
    rintro ⟨_, _⟩ ⟨_, _⟩ rfl rfl
    rfl
  exact hfields _ _ hmnemonic hmode

/-- What two texts have to have in common in order to be the same. -/
structure SameReading (o₁ o₂ : Byte) (ops₁ ops₂ : List Byte) (l₁ l₂ : Option String) : Prop where
  /-- The same mnemonic. -/
  mnemonic : (decode o₁).mnemonic = (decode o₂).mnemonic
  /-- The same addressing mode. -/
  mode : (decode o₁).mode = (decode o₂).mode
  /-- The same operand byte at each index that is shown. -/
  operands : ∀ i, .byte i ∈ (decode o₁).template → ∃ b, ops₁[i]? = some b ∧ ops₂[i]? = some b
  /-- The same label, if one is shown. -/
  label : .label ∈ (decode o₁).template → ∃ l, l₁ = some l ∧ l₂ = some l
  /-- The same opcode, apart from no-operations. -/
  opcode : (decode o₁).mnemonic ≠ .NOP → o₁ = o₂

/-- The hexadecimal digits behind the mnemonic in the text of an opcode. -/
def operandDigits (opcode : Byte) (text : String) : List Char :=
  (text.toList.drop (decode opcode).mnemonic.text.toList.length).filter Byte.isHexDigit

/-- The four digits behind the mnemonic are those of a word of which the first operand byte is
the low half. -/
structure ShowsWord (opcode : Byte) (operands : List Byte) (text : String) : Prop where
  four : (operandDigits opcode text).length = 4
  word : ∃ low high, operands[0]? = some low ∧ operands[1]? = some high ∧
    Byte.readHex? (operandDigits opcode text) = some (low.toNat + 256 * high.toNat)

theorem showsWord_of_format {opcode : Byte} {operands : List Byte} {label : Option String}
    {text : String} (h : format opcode operands label = .ok text)
    (hmode : (decode opcode).mode.isAbsolute = true) : ShowsWord opcode operands text := by
  obtain ⟨tail, htail, htext⟩ := exists_tail_of_format h
  obtain ⟨low, high, hlow, hhigh, hdigits⟩ := Mode.filter_of_write hmode htail
  have hoperand : operandDigits opcode text = Byte.hexDigits high ++ Byte.hexDigits low := by
    rw [operandDigits, htext, List.drop_left, hdigits]
  constructor
  · rw [hoperand]
    rfl
  · exact ⟨low, high, hlow, hhigh, by rw [hoperand, Byte.readHex?_word]⟩

/-- Whatever the operand bytes and the labels, two opcodes that are written as the same text
share everything that the text shows, and they are the same opcode unless they are
no-operations. In the modes with a sixteen-bit operand the text shows the word that the operand
bytes make up, low byte first. -/
theorem text_unambiguous {o₁ o₂ : Byte} {ops₁ ops₂ : List Byte} {l₁ l₂ : Option String}
    {text : String} (h₁ : format o₁ ops₁ l₁ = .ok text) (h₂ : format o₂ ops₂ l₂ = .ok text) :
    SameReading o₁ o₂ ops₁ ops₂ l₁ l₂ ∧
      ((decode o₁).mode.isAbsolute = true → ShowsWord o₁ ops₁ text) := by
  have hdecode := decode_eq_of_format h₁ h₂
  have hwrite₁ := write_of_format h₁
  have hwrite₂ := write_of_format h₂
  rw [← hdecode] at hwrite₂
  have htoken : ∀ token ∈ (decode o₁).template, ∃ u,
      token.write (filling o₁ ops₁ l₁) = .ok u ∧ token.write (filling o₂ ops₂ l₂) = .ok u := by
    intro token hmem
    obtain ⟨u, hu⟩ := Template.exists_write_of_mem hwrite₁ hmem
    have hsame := Template.write_token_eq (Mode.labelLast_template _)
      (show (decode o₁).mnemonic.text = (decode o₂).mnemonic.text by rw [hdecode])
      hwrite₁ hwrite₂ hmem
    exact ⟨u, hu, hsame.symm.trans hu⟩
  refine ⟨⟨by rw [hdecode], by rw [hdecode], ?_, ?_, eq_of_decode_eq hdecode⟩,
    showsWord_of_format h₁⟩
  · intro i hmem
    obtain ⟨u, hu₁, hu₂⟩ := htoken _ hmem
    obtain ⟨b, hb, rfl⟩ := Token.write_byte_eq_ok_iff.mp hu₁
    obtain ⟨c, hc, hhex⟩ := Token.write_byte_eq_ok_iff.mp hu₂
    have hbc : Byte.hexDigits b = Byte.hexDigits c := by
      rw [← Byte.toList_hex, ← Byte.toList_hex, hhex]
    rw [← Byte.hexDigits_inj.mp hbc] at hc
    exact ⟨b, hb, hc⟩
  · intro hmem
    obtain ⟨l, hl₁, hl₂⟩ := htoken _ hmem
    exact ⟨l, Token.write_label_eq_ok_iff.mp hl₁, Token.write_label_eq_ok_iff.mp hl₂⟩

/-- Two no-operations of three bytes, one of them with an operand byte too many and a label that
is not shown. -/
theorem text_unambiguous_nop :
    SameReading 0x5C 0xDC [0x34, 0x12] [0x34, 0x12, 0xFF] none (some "DEC 12,X") ∧
      ((decode 0x5C).mode.isAbsolute = true → ShowsWord 0x5C [0x34, 0x12] "NOP 1234") := by
  have h₁ : format 0x5C [0x34, 0x12] none = .ok "NOP 1234" := by decide
  have h₂ : format 0xDC [0x34, 0x12, 0xFF] (some "DEC 12,X") = .ok "NOP 1234" := by decide
  exact text_unambiguous h₁ h₂

end Instruction

end TraceCheck
