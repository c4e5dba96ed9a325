import Mathlib.Data.List.Forall2
import TraceCheck.Proofs.TemplateText

/-!
# `TraceCheck.Proofs.TemplateRendering`: filling in templates of any shape

`Template.render` goes over a template twice, once for the operand bytes that it mentions and
once for its text, and each time it may give up. This module says what comes of it for every
template and every filling (`Template.render_exact`). It says so without the two passes. The
text of a template is spelled token by token (`Template.Spells`), where an operand byte has to
be there and is spelled by the two hexadecimal digits that are read as it, and a label has to be
there too.

A template has one of three outcomes. Too few operand bytes are reported before a missing
label, wherever the two stand in the template. Otherwise the second pass finds every byte that
it looks for, which is what the first was for (`Template.Covered`), and it is stopped by a label
only. An outcome depends on nothing but what the tokens look at (`Template.write_congr`), and
templates can be rendered in parts.
-/

set_option autoImplicit false

namespace TraceCheck

/-! ### Spellings -/

/-- A text spells a token. -/
inductive Token.Spells (f : Filling) : Token → String → Prop where
  /-- The mnemonic is spelled by its text. -/
  | mnemonic : Spells f .mnemonic f.mnemonic
  /-- Literal text is spelled by itself. -/
  | text (literal : String) : Spells f (.text literal) literal
  /-- An operand byte is spelled by two characters that are read as it. -/
  | byte {i : Nat} {s : String} (hi : i < f.operands.length) (hlength : s.toList.length = 2)
      (hread : Byte.readHex? s.toList = some f.operands[i].toNat) : Spells f (.byte i) s
  /-- A label is spelled by the text that is given for it. -/
  | label {l : String} (hl : f.label = some l) : Spells f .label l

/-- A text spells a template if it is made of texts that spell the tokens, in their order. -/
def Template.Spells (t : Template) (f : Filling) (s : String) : Prop :=
  ∃ pieces, List.Forall₂ (Token.Spells f) t pieces ∧ s = String.join pieces

namespace Token

variable {f : Filling} {token : Token} {s : String}

/-- A token is written as it is spelled. -/
theorem write_eq_ok_iff : token.write f = .ok s ↔ token.Spells f s := by
  constructor
  · intro h
    cases token with
    | mnemonic =>
      cases h
      exact .mnemonic
    | text literal =>
      cases h
      exact .text _
    | byte i =>
      obtain ⟨b, hb, rfl⟩ := write_byte_eq_ok_iff.mp h
      obtain ⟨hi, rfl⟩ := List.getElem?_eq_some_iff.mp hb
      have hread : Byte.readHex? (Byte.hex f.operands[i]).toList = some f.operands[i].toNat := by
        rw [Byte.toList_hex, Byte.readHex?_hexDigits]
      exact .byte hi (by rw [Byte.toList_hex, Byte.length_hexDigits]) hread
    | label => exact .label (write_label_eq_ok_iff.mp h)
  · intro h
    cases h with
    | mnemonic => rfl
    | text literal => rfl
    | @byte i _ hi hlength hread =>
      refine write_byte_eq_ok_iff.mpr ⟨_, List.getElem?_eq_getElem hi, ?_⟩
      rw [← String.toList_inj, Byte.toList_hex]
      exact Byte.eq_hexDigits_of_readHex? hlength hread
    | label hl => exact write_label_eq_ok_iff.mpr hl

/-- What can go wrong with a token. -/
theorem write_eq_error_iff {e : RenderError} :
    token.write f = .error e ↔
      (∃ i, token = .byte i ∧ f.operands.length ≤ i ∧
        e = .operandLength f.mnemonic (i + 1) f.operands.length) ∨
      (token = .label ∧ f.label = none ∧ e = .missingLabel f.mnemonic) := by
  cases token with
  | byte i =>
    simp only [write]
    cases hb : f.operands[i]? with
    | some b => simp [Nat.not_le.mpr (List.getElem?_eq_some_iff.mp hb).1]
    | none => simp [List.getElem?_eq_none_iff.mp hb, eq_comm]
  | label =>
    simp only [write]
    cases f.label with
    | some l => simp
    | none => simp [eq_comm]
  | _ => simp [write]

end Token

namespace Template

variable {f g : Filling} {t u : Template} {s : String}

/-- A template is written as it is spelled. -/
theorem write_eq_ok_iff : t.write f = .ok s ↔ t.Spells f s := by
  induction t generalizing s with
  | nil =>
    constructor
    · rintro ⟨⟩
      exact ⟨[], .nil, rfl⟩
    · rintro ⟨_, ⟨⟩, rfl⟩
      rfl
  | cons token rest ih =>
    rw [write_cons_eq_ok_iff]
    constructor
    · rintro ⟨a, b, ha, hb, rfl⟩
      obtain ⟨pieces, hpieces, rfl⟩ := ih.mp hb
      exact ⟨a :: pieces, .cons (Token.write_eq_ok_iff.mp ha) hpieces, String.join_cons.symm⟩
    · rintro ⟨_, hpieces, rfl⟩
      cases hpieces with
      | @cons _ a _ pieces ha hrest =>
        exact ⟨a, String.join pieces, Token.write_eq_ok_iff.mpr ha, ih.mpr ⟨pieces, hrest, rfl⟩,
          String.join_cons⟩

/-- A template that could not be written has a token that could not. -/
theorem exists_write_eq_error {e : RenderError} (h : t.write f = .error e) :
    ∃ token ∈ t, token.write f = .error e := by
  induction t with
  | nil => cases h
  | cons token rest ih =>
    simp only [write] at h
    cases htoken : token.write f with
    | error e' =>
      rw [htoken] at h
      cases h
      exact ⟨token, List.mem_cons_self, htoken⟩
    | ok a =>
      cases hrest : write f rest with
      | error e' =>
        rw [htoken, hrest] at h
        cases h
        obtain ⟨token', hmem, htoken'⟩ := ih hrest
        exact ⟨token', List.mem_cons_of_mem _ hmem, htoken'⟩
      | ok b =>
        rw [htoken, hrest] at h
        cases h

/-- The text depends on nothing but the texts of the tokens. -/
theorem write_congr (h : ∀ token ∈ t, token.write f = token.write g) : t.write f = t.write g := by
  induction t with
  | nil => rfl
  | cons token rest ih =>
    simp only [write]
    rw [h token List.mem_cons_self, ih fun token' hmem => h token' (List.mem_cons_of_mem _ hmem)]

theorem write_append_eq_ok_iff :
    write f (t ++ u) = .ok s ↔ ∃ a b, write f t = .ok a ∧ write f u = .ok b ∧ s = a ++ b := by
  rw [write_append]
  cases write f t with
  | error e => simp [bind, Except.bind]
  | ok a =>
    cases write f u with
    | error e => simp [bind, Except.bind]
    | ok b => simp [bind, Except.bind, pure, Except.pure, eq_comm]

/-! ### The two passes -/

/-- Every operand byte that the template mentions is there. -/
def Covered (t : Template) (f : Filling) : Prop := ∀ i, .byte i ∈ t → i < f.operands.length

theorem need_le_iff {n : Nat} : t.need ≤ n ↔ ∀ i, .byte i ∈ t → i < n := by
  induction t with
  | nil => simp
  | cons token rest ih =>
    rw [need_cons, Nat.max_le, ih]
    cases token with
    | byte i =>
      simp only [Token.need, List.mem_cons, Token.byte.injEq, Nat.succ_le_iff]
      constructor
      · rintro ⟨hi, hrest⟩ j (rfl | hj)
        · exact hi
        · exact hrest j hj
      · intro h
        exact ⟨h i (Or.inl rfl), fun j hj => h j (Or.inr hj)⟩
    | _ => simp [Token.need]

/-- The first pass is passed when the template is covered. -/
theorem need_le_length_iff : t.need ≤ f.operands.length ↔ t.Covered f := need_le_iff

/-- A template that asks for bytes mentions the last of them. -/
theorem need_eq_zero_or (t : Template) : t.need = 0 ∨ ∃ i, .byte i ∈ t ∧ t.need = i + 1 := by
  induction t with
  | nil => exact Or.inl rfl
  | cons token rest ih =>
    rw [need_cons]
    rcases Nat.le_total token.need (need rest) with hle | hle
    · rw [Nat.max_eq_right hle]
      exact ih.imp_right fun ⟨i, hi, hneed⟩ => ⟨i, List.mem_cons_of_mem _ hi, hneed⟩
    · rw [Nat.max_eq_left hle]
      cases token with
      | byte i => exact Or.inr ⟨i, List.mem_cons_self, rfl⟩
      | _ => exact Or.inl rfl

theorem hasLabel_iff : t.hasLabel = true ↔ .label ∈ t := by
  simp [hasLabel]

/-- Whatever can be spelled is covered. -/
theorem covered_of_write (h : t.write f = .ok s) : t.Covered f := by
  intro i hi
  obtain ⟨a, ha⟩ := exists_write_of_mem h hi
  obtain ⟨b, hb, -⟩ := Token.write_byte_eq_ok_iff.mp ha
  exact (List.getElem?_eq_some_iff.mp hb).1

/-- The second pass over a template that is covered stops at a label that is not given, and
nowhere else. -/
theorem write_eq_error_iff (h : t.Covered f) {e : RenderError} :
    t.write f = .error e ↔ .label ∈ t ∧ f.label = none ∧ e = .missingLabel f.mnemonic := by
  have honly : ∀ {e}, t.write f = .error e →
      .label ∈ t ∧ f.label = none ∧ e = .missingLabel f.mnemonic := by
    intro e he
    obtain ⟨token, hmem, htoken⟩ := exists_write_eq_error he
    rcases Token.write_eq_error_iff.mp htoken with ⟨i, rfl, hi, -⟩ | ⟨rfl, hnone, hmissing⟩
    · exact absurd (h i hmem) (Nat.not_lt.mpr hi)
    · exact ⟨hmem, hnone, hmissing⟩
  refine ⟨honly, ?_⟩
  rintro ⟨hmem, hnone, rfl⟩
  cases hwrite : t.write f with
  | error e => rw [(honly hwrite).2.2]
  | ok s =>
    obtain ⟨l, hl⟩ := exists_write_of_mem hwrite hmem
    rw [Token.write_label_eq_ok_iff, hnone] at hl
    cases hl

/-! ### The three outcomes -/

theorem render_of_covered (h : t.Covered f) : t.render f = t.write f :=
  if_neg (Nat.not_lt.mpr (need_le_length_iff.mpr h))

theorem render_of_not_covered (h : ¬ t.Covered f) :
    t.render f = .error (.operandLength f.mnemonic t.need f.operands.length) :=
  if_pos (Nat.lt_of_not_le fun hle => h (need_le_length_iff.mp hle))

/-- A template is rendered as it is spelled. -/
theorem render_eq_ok_iff : t.render f = .ok s ↔ t.Spells f s := by
  rw [← write_eq_ok_iff]
  constructor
  · exact write_of_render
  · intro h
    rw [render_of_covered (covered_of_write h), h]

/-- A text is all that is left when the bytes and the label are there. -/
theorem exists_render_eq_ok (h : t.Covered f) (hlabel : .label ∈ t → f.label ≠ none) :
    ∃ s, t.render f = .ok s := by
  rw [render_of_covered h]
  cases hwrite : t.write f with
  | ok s => exact ⟨s, rfl⟩
  | error e =>
    obtain ⟨hmem, hnone, -⟩ := (write_eq_error_iff h).mp hwrite
    exact absurd hnone (hlabel hmem)

theorem render_eq_error_iff {e : RenderError} :
    t.render f = .error e ↔
      (¬ t.Covered f ∧ e = .operandLength f.mnemonic t.need f.operands.length) ∨
      (t.Covered f ∧ .label ∈ t ∧ f.label = none ∧ e = .missingLabel f.mnemonic) := by
  by_cases h : t.Covered f
  · rw [render_of_covered h, write_eq_error_iff h]
    simp [h]
  · rw [render_of_not_covered h]
    simp [h, eq_comm]

/-! ### What the outcome depends on -/

/-- The text is the same with other operands, if they begin with the same bytes. -/
theorem render_of_take_eq (h : t.render f = .ok s) {bytes : List Byte}
    (htake : bytes.take t.need = f.operands.take t.need) :
    t.render { f with operands := bytes } = .ok s := by
  rw [render_eq_ok_iff, ← write_eq_ok_iff, ← write_of_render h]
  refine write_congr fun token hmem => ?_
  cases token with
  | byte i =>
    -- A byte that is mentioned is among those that are asked for.
    have hi : i < t.need := need_le_iff.mp (Nat.le_refl _) i hmem
    have hsame : bytes[i]? = f.operands[i]? := by
      rw [← List.getElem?_take_of_lt hi, htake, List.getElem?_take_of_lt hi]
    obtain ⟨a, ha⟩ := exists_write_of_mem (write_of_render h) hmem
    rw [ha, Token.write_byte_eq_ok_iff, hsame]
    exact Token.write_byte_eq_ok_iff.mp ha
  | _ => rfl

theorem render_of_label_notMem (h : .label ∉ t) (l : Option String) :
    t.render { f with label := l } = t.render f := by
  have hwrite : t.write { f with label := l } = t.write f := by
    refine write_congr fun token hmem => ?_
    cases token with
    | label => exact absurd hmem h
    | _ => rfl
  unfold render
  rw [hwrite]

/-- Two templates in a row are rendered when both are, and their texts stand in a row. -/
theorem render_append_eq_ok_iff :
    (t ++ u).render f = .ok s ↔
      ∃ a b, t.render f = .ok a ∧ u.render f = .ok b ∧ s = a ++ b := by
  simp only [render_eq_ok_iff, ← write_eq_ok_iff]
  exact write_append_eq_ok_iff

/-- What comes of filling in a template. -/
structure RendersExactly (t : Template) (f : Filling) : Prop where
  /-- No byte is mentioned beyond those that are asked for. -/
  bounded : ∀ i, .byte i ∈ t → i + 1 ≤ t.need
  /-- The last byte that is asked for is mentioned. -/
  attained : t.need = 0 ∨ ∃ i, .byte i ∈ t ∧ t.need = i + 1
  /-- Too few operand bytes are an error, which tells how many are asked for. -/
  short : ∀ m expected actual, t.render f = .error (.operandLength m expected actual) ↔
    f.operands.length < t.need ∧
      m = f.mnemonic ∧ expected = t.need ∧ actual = f.operands.length
  /-- With enough operand bytes, a label that is mentioned and not given is an error. -/
  unlabelled : ∀ m, t.render f = .error (.missingLabel m) ↔
    t.need ≤ f.operands.length ∧ t.hasLabel = true ∧ f.label = none ∧ m = f.mnemonic
  /-- In all other cases there is a text. -/
  total : t.need ≤ f.operands.length → (t.hasLabel = true → f.label ≠ none) →
    ∃ s, t.render f = .ok s
  /-- The text spells the template. -/
  spelled : ∀ s, t.render f = .ok s ↔ t.Spells f s
  /-- With enough operand bytes, every byte that is mentioned is there. -/
  covered : t.need ≤ f.operands.length → ∀ i, .byte i ∈ t → i < f.operands.length
  /-- The template mentions a label when a token is one. -/
  labelled : t.hasLabel = true ↔ .label ∈ t
  /-- The text depends on no operand bytes but those that are asked for. -/
  operands : ∀ s bytes, t.render f = .ok s → bytes.take t.need = f.operands.take t.need →
    t.render { f with operands := bytes } = .ok s
  /-- The label is not looked at unless it is mentioned. -/
  label : t.hasLabel = false → ∀ l, t.render { f with label := l } = t.render f
  /-- Two templates in a row have a text when both have, and then it is theirs in a row. -/
  append : ∀ (u : Template) s, (t ++ u).render f = .ok s ↔
    ∃ a b, t.render f = .ok a ∧ u.render f = .ok b ∧ s = a ++ b

/-- Templates of any length and order are rendered exactly. -/
theorem render_exact (t : Template) (f : Filling) : t.RendersExactly f where
  bounded i hi := need_le_iff.mp (Nat.le_refl _) i hi
  attained := t.need_eq_zero_or
  short m expected actual := by
    rw [render_eq_error_iff, ← need_le_length_iff]
    simp
  unlabelled m := by
    rw [render_eq_error_iff, hasLabel_iff, need_le_length_iff]
    simp
  total h hlabel := exists_render_eq_ok (need_le_length_iff.mp h) fun hmem =>
    hlabel (hasLabel_iff.mpr hmem)
  spelled s := render_eq_ok_iff
  covered := need_le_length_iff.mp
  labelled := hasLabel_iff
  operands s bytes h htake := render_of_take_eq h htake
  label h := render_of_label_notMem fun hmem => by
    rw [hasLabel_iff.mpr hmem] at h
    cases h
  append u s := render_append_eq_ok_iff

/-- A template that mentions a label before its bytes, and one of the bytes twice. What is
missing is reported in the order of the checks and not in that of the tokens. -/
theorem render_exact_out_of_order :
    let t : Template := [.label, .text ",", .byte 1, .byte 0, .byte 1]
    let f : Filling := { mnemonic := "BBR0", operands := [0x12], label := none }
    t.render f = .error (.operandLength "BBR0" 2 1) ∧
    t.render { f with operands := [0x12, 0xFB] } = .error (.missingLabel "BBR0") ∧
    t.render { f with operands := [0x12, 0xFB, 0x07], label := some "loop" } =
      .ok "loop,FB12FB" := by
  intro t f
  refine ⟨?_, ?_, ?_⟩
  · exact ((render_exact t f).short _ _ _).mpr ⟨by decide, rfl, rfl, rfl⟩
  · exact ((render_exact t _).unlabelled _).mpr ⟨by decide, rfl, rfl, rfl⟩
  · refine ((render_exact t _).spelled _).mpr ⟨["loop", ",", "FB", "12", "FB"], ?_, by decide⟩
    refine .cons (.label rfl) (.cons (.text _) (.cons ?_ (.cons ?_ (.cons ?_ .nil))))
    · exact .byte (by decide) (by decide) (by decide)
    · exact .byte (by decide) (by decide) (by decide)
    · exact .byte (by decide) (by decide) (by decide)

end Template

end TraceCheck
