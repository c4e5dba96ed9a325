import Mathlib.Logic.Function.Iterate
import TraceCheck.Instruction.Stream
import TraceCheck.Proofs.TemplateRendering
import TraceCheck.Proofs.UnambiguousText

/-!
# `TraceCheck.Proofs.StreamReading`: a reader stays in step with its stream

`Chunk.split` reads a stream of bytes instruction by instruction. Whether that goes well depends
on three tables that know nothing of each other: from an opcode to its mode, from a mode to its
size, and from a mode to the template that looks operand bytes up by their index. This module
says how they fit together, for streams of any length (`Chunk.stays_in_step`).

The reading itself is a matter of sizes. A step takes the front off the stream, and after any
number of steps the reader stands in front of the next chunk (`split_remainder_iterate`), until
nothing is left. The chunks put together are the stream, and only the last of them may lack bytes.
No other chunks do the same (`split_flatMap_bytes`): one instruction too long or too short, and
all that follow would be read from the wrong place. The lemma behind it is `split_bytes_append`,
which says when a chunk that stands in front of other bytes is found again.

The texts are a matter of the templates. A template asks for the operand bytes that it shows, and
these are all that its mode has, apart from the offset of a branch, for which it shows the label
(`Mode.need_template`). So a chunk that is complete can always be written, and one that is not can
be written just when the offset is all that it lacks (`shownBytes_le_iff`).
-/

set_option autoImplicit false

namespace TraceCheck

/-! ### What the modes show -/

namespace Mode

/-- The modes that show a branch target. -/
def ShowsTarget (m : Mode) : Prop := m = relative ∨ m = zeroPageRelative

instance (m : Mode) : Decidable m.ShowsTarget := inferInstanceAs (Decidable (_ ∨ _))

/-- How many operand bytes a mode shows: all but the offset of a branch, which comes last. -/
def shownBytes (m : Mode) : Nat := if m.ShowsTarget then m.operandBytes - 1 else m.operandBytes

theorem label_mem_template_iff (m : Mode) : .label ∈ m.template ↔ m.ShowsTarget := by
  cases m <;> decide

/-- A template asks for the operand bytes that are shown. -/
theorem need_template (m : Mode) : m.template.need = m.shownBytes := by
  cases m <;> decide

theorem shownBytes_le (m : Mode) : m.shownBytes ≤ m.operandBytes := by
  rw [← need_template]
  exact m.need_template_le

theorem size_le_three (m : Mode) : m.size ≤ 3 := by
  cases m <;> decide

/-- A template shows each of these bytes at one place, and no others. -/
theorem count_byte_template (m : Mode) (i : Nat) :
    m.template.count (.byte i) = if i < m.shownBytes then 1 else 0 := by
  rw [← need_template]
  by_cases hi : i < m.template.need
  · -- No mode has more than two indices to look at.
    have hall : ∀ m ∈ all, ∀ i < m.template.need, m.template.count (.byte i) = 1 := by decide
    rw [if_pos hi]
    exact hall m (mem_all m) i hi
  · rw [if_neg hi, List.count_eq_zero]
    intro hmem
    exact hi (Template.need_le_iff.mp (Nat.le_refl _) i hmem)

end Mode

namespace Chunk

open Instruction (front remainder)

variable {c : Chunk} {stream : List Byte}

/-! ### Single chunks -/

theorem isComplete_iff : c.IsComplete ↔ c.operands.length = c.instruction.mode.operandBytes :=
  Nat.succ_inj

theorem length_operands_lt (h : ¬ c.IsComplete) :
    c.operands.length < c.instruction.mode.operandBytes :=
  Nat.lt_of_le_of_ne c.bounded fun heq => h (isComplete_iff.mpr heq)

theorem shownBytes_le_of_isComplete (h : c.IsComplete) :
    c.instruction.mode.shownBytes ≤ c.operands.length := by
  rw [isComplete_iff.mp h]
  exact c.instruction.mode.shownBytes_le

theorem length_bytes_le_size (c : Chunk) : c.bytes.length ≤ c.instruction.size :=
  Nat.succ_le_succ c.bounded

/-- A chunk with something behind it has all its bytes. -/
theorem isComplete_first {opcode : Byte} {rest : List Byte}
    (h : remainder (opcode :: rest) ≠ []) : (first opcode rest).IsComplete := by
  have hpos := List.length_pos_iff.mpr h
  simp only [remainder, Instruction.size, Mode.size, List.drop_succ_cons, List.length_drop] at hpos
  rw [isComplete_iff]
  refine List.length_take_of_le ?_
  omega

/-! ### Reading a stream -/

/-- The chunks in a row are the stream. -/
theorem flatMap_bytes_split (stream : List Byte) : (split stream).flatMap bytes = stream := by
  induction stream using split.induct with
  | case1 =>
    rw [split_nil]
    rfl
  | case2 opcode rest ih =>
    rw [split_cons, List.flatMap_cons, ih, bytes_first, Instruction.front_append_remainder]

theorem split_eq_nil_iff : split stream = [] ↔ stream = [] := by
  cases stream with
  | nil => simp
  | cons opcode rest => simp

/-- Only the last chunk may lack bytes. -/
theorem isComplete_of_mem_dropLast_split (h : c ∈ (split stream).dropLast) : c.IsComplete := by
  induction stream using split.induct with
  | case1 =>
    rw [split_nil] at h
    exact absurd h List.not_mem_nil
  | case2 opcode rest ih =>
    rw [split_cons] at h
    by_cases hend : remainder (opcode :: rest) = []
    · -- The first chunk is the last one too.
      rw [hend, split_nil] at h
      exact absurd h List.not_mem_nil
    · rw [List.dropLast_cons_of_ne_nil (mt split_eq_nil_iff.mp hend)] at h
      rcases List.mem_cons.mp h with rfl | h
      · exact isComplete_first hend
      · exact ih h

/-- One step of the reader uses up one chunk. -/
theorem split_remainder (stream : List Byte) : split (remainder stream) = (split stream).tail := by
  cases stream with
  | nil => simp [remainder]
  | cons opcode rest => rw [split_cons, List.tail_cons]

/-- After any number of steps, the reader stands in front of the next chunk. -/
theorem split_remainder_iterate (stream : List Byte) (i : Nat) :
    split (remainder^[i] stream) = (split stream).drop i := by
  induction i with
  | zero => rfl
  | succ i ih => rw [Function.iterate_succ_apply', split_remainder, ih, List.tail_drop]

/-- Once there was a step for each chunk, nothing is left. -/
theorem remainder_iterate_length_split (stream : List Byte) :
    remainder^[(split stream).length] stream = [] := by
  rw [← split_eq_nil_iff, split_remainder_iterate, List.drop_length]

/-- Each chunk is the front of what is left when those before it have been taken. -/
theorem bytes_of_getElem?_split {i : Nat} (h : (split stream)[i]? = some c) :
    remainder^[i] stream ≠ [] ∧ c.bytes = front (remainder^[i] stream) := by
  obtain ⟨hi, rfl⟩ := List.getElem?_eq_some_iff.mp h
  have hread := split_remainder_iterate stream i
  rw [List.drop_eq_getElem_cons hi] at hread
  cases hleft : remainder^[i] stream with
  | nil =>
    rw [hleft, split_nil] at hread
    cases hread
  | cons opcode rest =>
    rw [hleft, split_cons] at hread
    injection hread with hfirst
    rw [← hfirst]
    exact ⟨List.cons_ne_nil _ _, bytes_first opcode rest⟩

/-- A chunk in front of other bytes is found again, if it is complete. In front of nothing it
need not be. -/
theorem split_bytes_append (c : Chunk) {rest : List Byte} (h : c.IsComplete ∨ rest = []) :
    split (c.bytes ++ rest) = c :: split rest := by
  obtain ⟨opcode, operands, hbounded⟩ := c
  -- As many bytes are taken as the mode has, and these are the operands in both cases: there are
  -- so many of them, or there is nothing else to take.
  have htake : (operands ++ rest).take (Instruction.decode opcode).mode.operandBytes =
      operands := by
    rcases h with h | rfl
    · exact List.take_left' (isComplete_iff.mp h)
    · rw [List.append_nil]
      exact List.take_of_length_le hbounded
  have hdrop : (operands ++ rest).drop (Instruction.decode opcode).mode.operandBytes = rest := by
    rcases h with h | rfl
    · exact List.drop_left' (isComplete_iff.mp h)
    · rw [List.append_nil]
      exact List.drop_of_length_le hbounded
  have hfirst : first opcode (operands ++ rest) = ⟨opcode, operands, hbounded⟩ := by
    simp only [first, htake]
  have hremainder : remainder (opcode :: (operands ++ rest)) = rest := hdrop
  show split (opcode :: (operands ++ rest)) = _
  rw [split_cons, hfirst, hremainder]

/-- Chunks of which only the last may lack bytes are found again in what they make up. -/
theorem split_flatMap_bytes {cs : List Chunk} (h : ∀ c ∈ cs.dropLast, c.IsComplete) :
    split (cs.flatMap bytes) = cs := by
  induction cs with
  | nil => exact split_nil
  | cons c rest ih =>
    rw [List.flatMap_cons]
    -- The last chunk has nothing behind it, and every other one is complete.
    by_cases hlast : rest = []
    · subst hlast
      rw [List.flatMap_nil, split_bytes_append c (Or.inr rfl), split_nil]
    · rw [List.dropLast_cons_of_ne_nil hlast] at h
      rw [split_bytes_append c (Or.inl (h c List.mem_cons_self)),
        ih fun c' hmem => h c' (List.mem_cons_of_mem _ hmem)]

/-! ### The texts of chunks -/

theorem format_eq (c : Chunk) (label : Option String) :
    c.format label =
      c.instruction.template.render (Instruction.filling c.opcode c.operands label) := rfl

/-- The operand bytes that the text shows are there. -/
theorem covered_iff (label : Option String) :
    c.instruction.template.Covered (Instruction.filling c.opcode c.operands label) ↔
      c.instruction.mode.shownBytes ≤ c.operands.length := by
  rw [← Template.need_le_length_iff, Instruction.template, Mode.need_template]
  rfl

/-- A text that spells the template is all that is left when these bytes and a label are
there. -/
theorem exists_format_eq_ok (h : c.instruction.mode.shownBytes ≤ c.operands.length) (l : String) :
    ∃ text, c.format (some l) = .ok text ∧
      c.instruction.template.Spells (Instruction.filling c.opcode c.operands (some l)) text := by
  obtain ⟨text, htext⟩ := Template.exists_render_eq_ok ((covered_iff (some l)).mpr h)
    fun _ => Option.some_ne_none l
  exact ⟨text, htext, Template.render_eq_ok_iff.mp htext⟩

theorem format_none_eq_error_iff (h : c.instruction.mode.shownBytes ≤ c.operands.length)
    {e : RenderError} :
    c.format none = .error e ↔
      c.instruction.mode.ShowsTarget ∧ e = .missingLabel c.instruction.mnemonic.text := by
  rw [format_eq, Template.render_of_covered ((covered_iff none).mpr h),
    Template.write_eq_error_iff ((covered_iff none).mpr h), Instruction.template,
    Mode.label_mem_template_iff]
  simp only [Instruction.filling, true_and]
  rfl

theorem format_of_length_lt (h : c.operands.length < c.instruction.mode.shownBytes)
    (label : Option String) :
    c.format label = .error (.operandLength c.instruction.mnemonic.text
      c.instruction.mode.shownBytes c.operands.length) := by
  have hcovered := mt (covered_iff label).mp (Nat.not_le.mpr h)
  rw [format_eq, Template.render_of_not_covered hcovered, Instruction.template,
    Mode.need_template]
  rfl

/-- If anything is missing, it is the offset of a branch: the mode has no other operand byte, or
the other one is there. -/
def LacksOffset (c : Chunk) : Prop :=
  c.instruction.mode = .relative ∨
    c.instruction.mode = .zeroPageRelative ∧ c.operands.length = 1

instance (c : Chunk) : Decidable c.LacksOffset := inferInstanceAs (Decidable (_ ∨ _))

/-- The text of an instruction that is cut off can do without the missing bytes just when they
are the offset. -/
theorem shownBytes_le_iff (h : ¬ c.IsComplete) :
    c.instruction.mode.shownBytes ≤ c.operands.length ↔ c.LacksOffset := by
  have hlt := length_operands_lt h
  unfold LacksOffset
  by_cases htarget : c.instruction.mode.ShowsTarget
  · rcases htarget with hmode | hmode
    · have hshown : Mode.relative.shownBytes = 0 := by decide
      rw [hmode, hshown]
      simp
    · -- The offset is missing, and it is left open whether the other byte is.
      have hshown : Mode.zeroPageRelative.shownBytes = 1 := by decide
      have hoperands : Mode.zeroPageRelative.operandBytes = 2 := rfl
      rw [hmode, hoperands] at hlt
      rw [hmode, hshown]
      simp only [reduceCtorEq, false_or, true_and]
      omega
  · -- All operand bytes are shown, and one of them is missing.
    rw [Mode.shownBytes, if_neg htarget]
    constructor
    · intro hle
      omega
    · rintro (hmode | ⟨hmode, -⟩)
      · exact absurd (Or.inl hmode) htarget
      · exact absurd (Or.inr hmode) htarget

/-- What comes of writing a chunk. -/
structure WrittenExactly (c : Chunk) : Prop where
  /-- With a label, a complete instruction has a text, in which every token is spelled. -/
  labelled : c.IsComplete → ∀ l, ∃ text, c.format (some l) = .ok text ∧
    c.instruction.template.Spells (Instruction.filling c.opcode c.operands (some l)) text
  /-- Without a label it has one too, unless it shows a branch target. -/
  unlabelled : c.IsComplete → ∀ e, c.format none = .error e ↔
    (c.instruction.mode = .relative ∨ c.instruction.mode = .zeroPageRelative) ∧
      e = .missingLabel c.instruction.mnemonic.text
  /-- If bytes are missing that the text shows, they are reported, with the number of those that
  are there. -/
  short : ¬ c.IsComplete → ¬ c.LacksOffset → ∀ l, c.format (some l) =
    .error (.operandLength c.instruction.mnemonic.text c.instruction.mode.shownBytes
      c.operands.length)
  /-- If the offset of a branch is missing, there is a text all the same. -/
  spared : ¬ c.IsComplete → c.LacksOffset → ∀ l, ∃ text, c.format (some l) = .ok text

theorem writtenExactly (c : Chunk) : c.WrittenExactly where
  labelled h l := exists_format_eq_ok (shownBytes_le_of_isComplete h) l
  unlabelled h _ := format_none_eq_error_iff (shownBytes_le_of_isComplete h)
  short h hoffset l :=
    format_of_length_lt (Nat.lt_of_not_le (mt (shownBytes_le_iff h).mp hoffset)) (some l)
  spared h hoffset l := by
    obtain ⟨text, htext, -⟩ := exists_format_eq_ok ((shownBytes_le_iff h).mpr hoffset) l
    exact ⟨text, htext⟩

/-! ### Reading and writing -/

/-- What comes of reading a stream. -/
structure ReadInStep (stream : List Byte) : Prop where
  /-- To take off as many bytes as the next size says, again and again, comes to an end. -/
  ends : remainder^[(split stream).length] stream = []
  /-- Until then there is something to take, and it is the next chunk. -/
  taken : ∀ i c, (split stream)[i]? = some c →
    remainder^[i] stream ≠ [] ∧ c.bytes = front (remainder^[i] stream)
  /-- What is left at any time is read as it would be by a reader that starts there. -/
  resumed : ∀ i, split (remainder^[i] stream) = (split stream).drop i
  /-- A chunk has one to three bytes. -/
  sizes : ∀ c ∈ split stream, 1 ≤ c.bytes.length ∧ c.bytes.length ≤ 3
  /-- The chunks in a row are the stream. -/
  joined : (split stream).flatMap bytes = stream
  /-- All chunks but the last have the size of their instruction. -/
  complete : ∀ c ∈ (split stream).dropLast, c.bytes.length = c.instruction.size
  /-- The last may have fewer bytes, but not more. -/
  shorter : ∀ c ∈ split stream, c.bytes.length ≤ c.instruction.size
  /-- There is no other way to cut the stream into such chunks. -/
  determined : ∀ cs : List Chunk, (∀ c ∈ cs.dropLast, c.IsComplete) →
    cs.flatMap bytes = stream → cs = split stream
  /-- Every chunk is written as it should be. -/
  written : ∀ c ∈ split stream, c.WrittenExactly

/-- Whatever the bytes are, a reader that goes by the sizes stays in step with the instructions,
and what it reads it can write, as far as the stream has it. Where no branch target is shown, all
operand bytes are, and each of them once. -/
theorem stays_in_step :
    (∀ stream, ReadInStep stream) ∧
    ∀ opcode, (Instruction.decode opcode).mode ≠ .relative →
      (Instruction.decode opcode).mode ≠ .zeroPageRelative →
      ∀ i, (Instruction.decode opcode).template.count (.byte i) =
        if i < (Instruction.decode opcode).mode.operandBytes then 1 else 0 := by
  constructor
  · intro stream
    have hsize : ∀ c : Chunk, c.bytes.length ≤ 3 := fun c =>
      Nat.le_trans c.length_bytes_le_size c.instruction.mode.size_le_three
    exact {
      ends := remainder_iterate_length_split stream
      taken := fun i c h => bytes_of_getElem?_split h
      resumed := split_remainder_iterate stream
      sizes := fun c _ => ⟨Nat.succ_pos _, hsize c⟩
      joined := flatMap_bytes_split stream
      complete := fun c h => isComplete_of_mem_dropLast_split h
      shorter := fun c _ => c.length_bytes_le_size
      determined := fun cs hcs hjoined => by rw [← hjoined, split_flatMap_bytes hcs]
      written := fun c _ => c.writtenExactly }
  · intro opcode hrelative hzeroPage i
    have htarget : ¬ (Instruction.decode opcode).mode.ShowsTarget :=
      not_or.mpr ⟨hrelative, hzeroPage⟩
    have hcount := (Instruction.decode opcode).mode.count_byte_template i
    rw [Mode.shownBytes, if_neg htarget] at hcount
    exact hcount

/-- A stream that ends in the middle of a jump. All that stands before it is read as it would be
otherwise, and the jump is reported. -/
theorem stays_in_step_cut_jump :
    let stream : List Byte := [0xA9, 0x42, 0xD0, 0xFB, 0x0F, 0x12, 0x05, 0x6C, 0xFC]
    let branch : Chunk := ⟨0xD0, [0xFB], by decide⟩
    let jump : Chunk := ⟨0x6C, [0xFC], by decide⟩
    split stream = [⟨0xA9, [0x42], by decide⟩, branch, ⟨0x0F, [0x12, 0x05], by decide⟩, jump] ∧
    branch.format none = .error (.missingLabel "BNE") ∧
    jump.format (some "loop") = .error (.operandLength "JMP" 2 1) ∧
    (Instruction.decode 0x6C).template.count (.byte 1) = 1 := by
  intro stream branch jump
  have hread := stays_in_step.1 stream
  have hsplit := (hread.determined
    [⟨0xA9, [0x42], by decide⟩, branch, ⟨0x0F, [0x12, 0x05], by decide⟩, jump]
    (by decide) (by decide)).symm
  have hbranch := hread.written branch (by rw [hsplit]; simp)
  have hjump := hread.written jump (by rw [hsplit]; simp)
  refine ⟨hsplit, ?_, ?_, ?_⟩
  · exact (hbranch.unlabelled (by decide) _).mpr ⟨by decide, by decide⟩
  · exact (hjump.short (by decide) (by decide) "loop").trans (by decide)
  · exact stays_in_step.2 0x6C (by decide) (by decide) 1

end Chunk

end TraceCheck
