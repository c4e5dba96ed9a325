import Mathlib.Data.List.Basic
import TraceCheck.Instruction.Template
import TraceCheck.Proofs.Hexadecimal

/-!
# `TraceCheck.Proofs.TemplateText`: the text of a template, token by token

`Template.write` puts the texts of the tokens in a row. Once a template could be written, each
of its tokens could (`exists_write_of_mem`), and the text is the texts of the tokens one after
the other (`toList_of_write`). This module asks how much of that can be seen from the outside.

* Two fillings with the same mnemonic that give the same text give every token the same text
  (`write_token_eq`). Every token but a label has a text of fixed length, so this holds for
  templates in which nothing follows a label.
* The outline of a text, in which all hexadecimal digits look alike, is a matter of the
  template alone where it has only literals and operand bytes (`map_veil_write`).
-/

set_option autoImplicit false

namespace TraceCheck

/-! ### Texts of tokens and templates -/

namespace Token

variable {f g : Filling} {s : String}

theorem write_byte_eq_ok_iff {i : Nat} :
    (byte i).write f = .ok s ↔ ∃ b, f.operands[i]? = some b ∧ s = Byte.hex b := by
  simp only [write]
  cases f.operands[i]? with
  | some b => simp [eq_comm]
  | none => simp

theorem write_label_eq_ok_iff : label.write f = .ok s ↔ f.label = some s := by
  simp only [write]
  cases f.label with
  | some l => simp
  | none => simp

/-- A token that is no label has a text of the same length under all fillings with one
mnemonic. -/
theorem length_write_eq {token : Token} (hlabel : token ≠ label)
    (hmnemonic : f.mnemonic = g.mnemonic) {u v : String} (hu : token.write f = .ok u)
    (hv : token.write g = .ok v) : u.toList.length = v.toList.length := by
  cases token with
  | mnemonic =>
    cases hu
    cases hv
    rw [hmnemonic]
  | text literal =>
    cases hu
    cases hv
    rfl
  | byte i =>
    obtain ⟨b, -, rfl⟩ := write_byte_eq_ok_iff.mp hu
    obtain ⟨c, -, rfl⟩ := write_byte_eq_ok_iff.mp hv
    rw [Byte.toList_hex, Byte.toList_hex, Byte.length_hexDigits, Byte.length_hexDigits]
  | label => exact absurd rfl hlabel

/-- The characters of a token's text, none if the token can not be written. -/
def chars (f : Filling) (token : Token) : List Char :=
  match token.write f with
  | .ok u => u.toList
  | .error _ => []

theorem chars_of_write {token : Token} {u : String} (hu : token.write f = .ok u) :
    token.chars f = u.toList := by
  simp only [chars, hu]

theorem chars_byte {i : Nat} {b : Byte} (hb : f.operands[i]? = some b) :
    (byte i).chars f = Byte.hexDigits b := by
  rw [chars_of_write (write_byte_eq_ok_iff.mpr ⟨b, hb, rfl⟩), Byte.toList_hex]

end Token

namespace Template

variable {f g : Filling} {s : String} {t : Template}

theorem write_cons_eq_ok_iff {token : Token} {rest : Template} :
    write f (token :: rest) = .ok s ↔
      ∃ u v, token.write f = .ok u ∧ write f rest = .ok v ∧ s = u ++ v := by
  simp only [write]
  cases token.write f with
  | error e => simp [bind, Except.bind]
  | ok u =>
    cases write f rest with
    | error e => simp [bind, Except.bind]
    | ok v => simp [bind, Except.bind, pure, Except.pure, eq_comm]

theorem write_of_render (h : t.render f = .ok s) : t.write f = .ok s := by
  unfold render at h
  split at h
  · cases h
  · exact h

/-- Every token of a template that is written is written. -/
theorem exists_write_of_mem (h : t.write f = .ok s) {token : Token} (hmem : token ∈ t) :
    ∃ u, token.write f = .ok u := by
  induction t generalizing s with
  | nil => exact absurd hmem List.not_mem_nil
  | cons first rest ih =>
    obtain ⟨u, v, hu, hv, -⟩ := write_cons_eq_ok_iff.mp h
    rcases List.mem_cons.mp hmem with rfl | hmem
    · exact ⟨u, hu⟩
    · exact ih hv hmem

/-- The text of a template is the texts of its tokens in a row. -/
theorem toList_of_write (h : t.write f = .ok s) : s.toList = t.flatMap (Token.chars f) := by
  induction t generalizing s with
  | nil =>
    cases h
    rfl
  | cons token rest ih =>
    obtain ⟨u, v, hu, hv, rfl⟩ := write_cons_eq_ok_iff.mp h
    rw [String.toList_append, ih hv, List.flatMap_cons, Token.chars_of_write hu]

/-! ### Two texts of one template -/

/-- Whether a label stands nowhere but at the end. -/
def labelLast : Template → Bool
  | [] => true
  | token :: rest => (token != .label || rest.isEmpty) && labelLast rest

/-- Two fillings of one template with the same mnemonic that give the same text write every
token in the same way. -/
theorem write_token_eq (hlast : t.labelLast = true) (hmnemonic : f.mnemonic = g.mnemonic)
    (hf : t.write f = .ok s) (hg : t.write g = .ok s) {token : Token} (hmem : token ∈ t) :
    token.write f = token.write g := by
  induction t generalizing s with
  | nil => exact absurd hmem List.not_mem_nil
  | cons first rest ih =>
    obtain ⟨u, v, hu, hv, rfl⟩ := write_cons_eq_ok_iff.mp hf
    obtain ⟨u', v', hu', hv', heq⟩ := write_cons_eq_ok_iff.mp hg
    simp only [labelLast, Bool.and_eq_true, Bool.or_eq_true, bne_iff_ne,
      List.isEmpty_iff] at hlast
    have happend : u.toList ++ v.toList = u'.toList ++ v'.toList := by
      rw [← String.toList_append, ← String.toList_append, heq]
    -- Nothing follows a label, and everything else has the same length in both texts.
    have hsplit : u = u' ∧ v = v' := by
      by_cases hlabel : first = .label
      · obtain rfl : rest = [] := hlast.1.resolve_left fun hne => hne hlabel
        cases hv
        cases hv'
        exact ⟨String.toList_inj.mp (List.append_cancel_right happend), rfl⟩
      · have hlength := Token.length_write_eq hlabel hmnemonic hu hu'
        obtain ⟨hfirst, hrest⟩ := List.append_inj happend hlength
        exact ⟨String.toList_inj.mp hfirst, String.toList_inj.mp hrest⟩
    obtain ⟨rfl, rfl⟩ := hsplit
    rcases List.mem_cons.mp hmem with rfl | hmem
    · rw [hu, hu']
    · exact ih hlast.2 hv hv' hmem

end Template

/-! ### Outlines -/

/-- A character of which one can no longer see which hexadecimal digit it is, if it is one. -/
def veil (c : Char) : Char := if Byte.isHexDigit c then '0' else c

/-- The veiled text of a token that is literal or a byte. It depends on no operand byte. -/
def Token.outline : Token → List Char
  | text literal => literal.toList.map veil
  | byte _ => ['0', '0']
  | mnemonic | label => []

namespace Template

/-- The veiled text of a template of literals and bytes. -/
def outline (t : Template) : List Char := t.flatMap Token.outline

/-- Whether a template has nothing but literals and bytes. -/
def isPlain (t : Template) : Bool :=
  t.all fun
    | .text _ | .byte _ => true
    | .mnemonic | .label => false

theorem map_veil_write {f : Filling} {s : String} {t : Template} (hplain : t.isPlain = true)
    (h : t.write f = .ok s) : s.toList.map veil = t.outline := by
  rw [toList_of_write h, List.map_flatMap]
  refine List.flatMap_congr fun token hmem => ?_
  obtain ⟨u, hu⟩ := exists_write_of_mem h hmem
  have hkind := List.all_eq_true.mp hplain token hmem
  rw [Token.chars_of_write hu]
  cases token with
  | text literal =>
    cases hu
    rfl
  | byte i =>
    obtain ⟨b, -, rfl⟩ := Token.write_byte_eq_ok_iff.mp hu
    have hveil : ∀ c ∈ Byte.hexDigits b, veil c = '0' := fun c hc =>
      if_pos (Byte.isHexDigit_of_mem_hexDigits hc)
    rw [Byte.toList_hex, List.map_congr_left hveil]
    rfl
  | mnemonic => cases hkind
  | label => cases hkind

end Template

end TraceCheck
