import TraceCheck.Instruction.Catalog

/-!
# `TraceCheck.Proofs.OpcodeTable`: the instruction set as a list

`Instruction.decode` looks an opcode up in a table of rows. Facts about all opcodes are
easier to check on the table written as one list, `Instruction.catalog`, in which the opcode
is the place (`getElem?_catalog`). What holds of every member of the list holds of every
decoded opcode (`decode_mem_catalog`).

The fact of most use is that the table can be read backwards. `NOP` stands at many places,
but no other mnemonic stands twice in one addressing mode, so an opcode can be told from its
mnemonic and its mode (`eq_of_decode_eq`). The check goes mode by mode, because comparing the
few instructions of one mode with each other is much less work than comparing all 256.
-/

set_option autoImplicit false

namespace TraceCheck

namespace Instruction

/-- The instructions in the order of their opcodes. -/
def catalog : List Instruction := table.toList.flatMap Vector.toList

theorem toList_flatten_table : table.flatten.toList = catalog := by
  show table.flatten.toArray.toList = _
  simp only [Vector.flatten, Array.toList_flatten, Array.toList_map, List.map_map]
  rfl

theorem decode_eq_getElem (opcode : Byte) (h : opcode.toNat < 16 * 16) :
    decode opcode = table.flatten[opcode.toNat] := by
  have hrow : opcode.toNat / 16 % 16 = opcode.toNat / 16 := Nat.mod_eq_of_lt (by omega)
  rw [Vector.getElem_flatten]
  simp only [decode, Fin.ofNat, hrow]
  rfl

/-- The instruction of an opcode stands in the list at the place of the opcode. -/
theorem getElem?_catalog (opcode : Byte) : catalog[opcode.toNat]? = some (decode opcode) := by
  rw [← toList_flatten_table, Vector.getElem?_toList, decode_eq_getElem opcode opcode.isLt]
  exact Vector.getElem?_eq_getElem opcode.isLt

theorem decode_mem_catalog (opcode : Byte) : decode opcode ∈ catalog :=
  List.mem_of_getElem? (getElem?_catalog opcode)

/-- In one mode no mnemonic but `NOP` stands twice. -/
theorem pairwise_mode (m : Mode) :
    (catalog.filter fun i => i.mode = m ∧ i.mnemonic ≠ .NOP).Pairwise
      fun i j => i.mnemonic ≠ j.mnemonic := by
  cases m <;> decide +kernel

/-- An instruction does not stand at a second place further down. -/
theorem not_lt_of_decode_eq {o₁ o₂ : Byte} (h : decode o₁ = decode o₂)
    (hNOP : (decode o₁).mnemonic ≠ .NOP) : ¬ o₁.toNat < o₂.toNat := by
  intro hlt
  have hdistinct := List.pairwise_filter.mp (pairwise_mode (decode o₁).mode)
  rw [List.pairwise_iff_getElem] at hdistinct
  obtain ⟨h₁, hget₁⟩ := List.getElem?_eq_some_iff.mp (getElem?_catalog o₁)
  obtain ⟨h₂, hget₂⟩ := List.getElem?_eq_some_iff.mp (getElem?_catalog o₂)
  have hne := hdistinct o₁.toNat o₂.toNat h₁ h₂ hlt
  rw [hget₁, hget₂, ← h] at hne
  have hlisted :
      decide ((decode o₁).mode = (decode o₁).mode ∧ (decode o₁).mnemonic ≠ .NOP) = true :=
    decide_eq_true ⟨rfl, hNOP⟩
  exact hne hlisted hlisted rfl

/-- An opcode can be told from its instruction, unless that is a no-operation. -/
theorem eq_of_decode_eq {o₁ o₂ : Byte} (h : decode o₁ = decode o₂)
    (hNOP : (decode o₁).mnemonic ≠ .NOP) : o₁ = o₂ := by
  have hle := Nat.le_of_not_lt (not_lt_of_decode_eq h.symm (h ▸ hNOP))
  have hge := Nat.le_of_not_lt (not_lt_of_decode_eq h hNOP)
  exact BitVec.eq_of_toNat_eq (Nat.le_antisymm hle hge)

end Instruction

end TraceCheck
