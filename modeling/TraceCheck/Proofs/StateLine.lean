import Mathlib.Data.List.Basic
import TraceCheck.Checker.State
import TraceCheck.Proofs.Hexadecimal

/-!
# `TraceCheck.Proofs.StateLine`: where a state line tells of a fault

A state line is ten fields and, while a fault is pending, the annotation behind them. A
reader of the line knows only its characters, so this module says what the characters
give away. The line ends with the annotation just when the fault is pending
(`annotation_suffix_iff`), and there is no other place in a line where the annotation
stands (`lineChars_eq_append`). In particular no line holds it twice.

Both rest on the letter `p`. The fields have capital letters, digits, question marks and
signs, and the annotation has the letter once, so an occurrence of the annotation can be
found by it.
-/

set_option autoImplicit false

namespace TraceCheck

/-- A character that is in no text and not in the text between them is not in the whole. -/
theorem notMem_intercalate {x : Char} {sep : List Char} (hsep : x ∉ sep)
    {texts : List (List Char)} (h : ∀ t ∈ texts, x ∉ t) : x ∉ sep.intercalate texts := by
  induction texts with
  | nil => exact List.not_mem_nil
  | cons t texts ih =>
    have hrest := ih fun u hu => h u (List.mem_cons_of_mem t hu)
    cases texts with
    | nil =>
      show x ∉ [t].flatten
      rw [List.flatten_singleton]
      exact h t List.mem_cons_self
    | cons u texts =>
      rw [List.intercalate_cons_cons]
      intro hx
      rcases List.mem_append.mp hx with hx | hx
      · rcases List.mem_append.mp hx with hx | hx
        · exact h t List.mem_cons_self hx
        · exact hsep hx
      · exact hrest hx

namespace State

/-- The fields of the state line with the spaces between them. -/
def fieldChars (p : Prediction) : List Char := [' '].intercalate (Cell.all.map (field p))

/-- What stands behind the fields of a line that tells of a fault. -/
def annotation : List Char := ' ' :: faultAnnotation.toList

theorem lineChars_eq (s : State) :
    s.lineChars = fieldChars s.cells ++ if s.fault then annotation else [] := rfl

/-! ### The letter that marks the annotation -/

/-- The characters of the fields. -/
def fieldAlphabet : List Char := "0123456789ABCDEF?=XYSPNVIZ".toList

theorem registerChars_subset (k : Knowledge Byte) : registerChars k ⊆ fieldAlphabet := by
  have hdigit : ∀ n, n < 16 → Byte.hexDigit n ∈ fieldAlphabet := by decide
  cases k with
  | known b =>
    obtain ⟨high, low, hhigh, hlow, -, hdigits⟩ := Byte.exists_hexDigits b
    rw [registerChars, hdigits]
    exact List.cons_subset.mpr
      ⟨hdigit high hhigh, List.cons_subset.mpr ⟨hdigit low hlow, List.nil_subset _⟩⟩
  | unknown => decide

theorem flagChars_subset (k : Knowledge Bool) : flagChars k ⊆ fieldAlphabet := by
  cases k with
  | known b => cases b <;> decide
  | unknown => decide

theorem field_subset (p : Prediction) (c : Cell) : field p c ⊆ fieldAlphabet := by
  have hname : ∀ d ∈ Cell.all, d.name.toList ⊆ fieldAlphabet := by decide
  have hvalue : cellChars p c ⊆ fieldAlphabet := by
    cases c with
    | register r => exact registerChars_subset _
    | flag f => exact flagChars_subset _
  exact List.append_subset.mpr
    ⟨hname c (Cell.mem_all c), List.cons_subset.mpr ⟨by decide, hvalue⟩⟩

theorem p_notMem_field (p : Prediction) (c : Cell) : 'p' ∉ field p c := by
  intro h
  exact absurd (field_subset p c h) (by decide)

theorem p_notMem_fieldChars (p : Prediction) : 'p' ∉ fieldChars p := by
  refine notMem_intercalate (by decide) fun t ht => ?_
  obtain ⟨c, -, rfl⟩ := List.mem_map.mp ht
  exact p_notMem_field p c

/-! ### The annotation in a line -/

/-- Wherever the annotation stands in a line, a fault is pending, the fields are in front of
it and nothing is behind it. -/
theorem lineChars_eq_append {s : State} {before after : List Char}
    (h : s.lineChars = before ++ annotation ++ after) :
    s.fault = true ∧ before = fieldChars s.cells ∧ after = [] := by
  obtain ⟨rest, hannotation, hrest⟩ :
      ∃ rest, annotation = ' ' :: 'p' :: rest ∧ 'p' ∉ rest :=
    ⟨_, rfl, by decide⟩
  have hp := p_notMem_fieldChars s.cells
  rw [lineChars_eq, hannotation] at h
  cases hfault : s.fault with
  | false =>
    -- The fields would have to hold the letter.
    rw [hfault, if_neg Bool.false_ne_true, List.append_nil] at h
    rw [h] at hp
    exact absurd (by simp) hp
  | true =>
    -- The letter is found once in the line, and the two ways to cut there are the same.
    rw [hfault, if_pos rfl] at h
    have hcut : (before ++ [' ']) ++ 'p' :: (rest ++ after) =
        (fieldChars s.cells ++ [' ']) ++ 'p' :: rest := by
      simpa using h.symm
    have hfront : 'p' ∉ fieldChars s.cells ++ [' '] := by
      simpa using hp
    obtain ⟨hbefore, -, hafter⟩ := (List.append_cons_inj_of_notMem hfront hrest).mp hcut.symm
    exact ⟨rfl, (List.append_cancel_right hbefore).symm, List.self_eq_append_right.mp hafter⟩

/-- A line ends with the annotation just when a fault is pending. -/
theorem annotation_suffix_iff (s : State) : annotation <:+ s.lineChars ↔ s.fault = true := by
  constructor
  · rintro ⟨before, h⟩
    have hline : s.lineChars = before ++ annotation ++ [] := by
      rw [List.append_nil, h]
    exact (lineChars_eq_append hline).1
  · intro hfault
    refine ⟨fieldChars s.cells, ?_⟩
    rw [lineChars_eq, if_pos hfault]

end State

end TraceCheck
