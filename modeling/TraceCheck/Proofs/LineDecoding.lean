import Mathlib.Algebra.Ring.Nat
import Mathlib.Data.List.Basic
import TraceCheck.Proofs.Activity
import TraceCheck.Proofs.StateLine

/-!
# `TraceCheck.Proofs.LineDecoding`: the state can be read from the state line

A state line has a fixed layout. It is a list of words with single spaces between them, ten
fields and then perhaps the two words of the annotation (`State.words`). Every field has a
width and a column that depend on the cell alone (`Cell.width`, `Cell.column`), so the value
of a cell can be cut out of a line without a look at the rest of it.

`State.ofLine?` reads a text in this way and accepts it when it is the line of the state it
has read. That it accepts all lines and nothing else is `ofLine?_eq_some_iff`. The state is
therefore determined by its line. With the settings it determines all that a checker will do,
so what two checkers do is the same as soon as they show the same line (`line_lossless`).
-/

set_option autoImplicit false

namespace TraceCheck

/-! ### Where a word stands in a text -/

/-- The words of two texts in a row. -/
theorem intercalate_append {words words' : List (List Char)} (h : words ≠ [])
    (h' : words' ≠ []) :
    [' '].intercalate (words ++ words') =
      ([' '].intercalate words ++ [' ']) ++ [' '].intercalate words' := by
  induction words with
  | nil => exact absurd rfl h
  | cons u words ih =>
    cases words with
    | nil =>
      rw [List.singleton_append, List.intercalate_cons_of_ne_nil h', List.intercalate_singleton]
    | cons v words =>
      rw [List.cons_append, List.cons_append, List.intercalate_cons_cons, ← List.cons_append,
        ih (List.cons_ne_nil v words), List.intercalate_cons_cons]
      simp only [List.append_assoc]

/-- The words of a text and the spaces between them make up its length. -/
theorem length_intercalate {words : List (List Char)} (h : words ≠ []) :
    ([' '].intercalate words).length + 1 = (words.map fun u => u.length + 1).sum := by
  induction words with
  | nil => exact absurd rfl h
  | cons u words ih =>
    cases words with
    | nil => rw [List.intercalate_singleton, List.map_singleton, List.sum_singleton]
    | cons v words =>
      rw [List.intercalate_cons_cons, List.map_cons, List.sum_cons, ← ih (List.cons_ne_nil v words),
        List.length_append, List.length_append, List.length_singleton]
      omega

/-- A word stands behind the words before it and one space for each of them. -/
theorem take_drop_intercalate (before after : List (List Char)) (t : List Char) :
    (([' '].intercalate (before ++ t :: after)).drop
      (before.map fun u => u.length + 1).sum).take t.length = t := by
  have hdrop : ([' '].intercalate (before ++ t :: after)).drop
      (before.map fun u => u.length + 1).sum = [' '].intercalate (t :: after) := by
    cases before with
    | nil => rfl
    | cons u before =>
      -- The words before it with all spaces, also the one behind them, are what is dropped.
      have hlength : ([' '].intercalate (u :: before) ++ [' ']).length =
          ((u :: before).map fun u => u.length + 1).sum := by
        rw [List.length_append, List.length_singleton]
        exact length_intercalate (List.cons_ne_nil u before)
      rw [intercalate_append (List.cons_ne_nil u before) (List.cons_ne_nil t after), ← hlength]
      exact List.drop_left
  rw [hdrop]
  cases after with
  | nil =>
    rw [List.intercalate_singleton]
    exact List.take_length
  | cons u after =>
    rw [List.intercalate_cons_cons, List.append_assoc]
    exact List.take_left

/-! ### The layout of a line -/

namespace Cell

/-- How many characters the value of a cell takes. -/
def valueWidth : Cell → Nat
  | register _ => 2
  | flag _ => 1

/-- How many characters the field of a cell takes. -/
def width (c : Cell) : Nat := c.name.toList.length + 1 + c.valueWidth

/-- Where the field of a cell starts in a line. -/
def column : Cell → Nat
  | register .A => 0
  | register .X => 5
  | register .Y => 10
  | register .S => 15
  | flag .N => 21
  | flag .V => 25
  | flag .D => 29
  | flag .I => 33
  | flag .Z => 37
  | flag .C => 41

/-- The fields in front of that of a cell, and the spaces behind them, fill the line up to
its column. -/
theorem column_eq : ∀ c ∈ all, ∃ before after, all = before ++ c :: after ∧
    (before.map fun d => d.width + 1).sum = c.column := by
  intro c hc
  refine ⟨all.takeWhile (· != c), (all.dropWhile (· != c)).tail, ?_⟩
  revert c
  decide

end Cell

namespace State

theorem length_cellChars (p : Prediction) (c : Cell) : (cellChars p c).length = c.valueWidth := by
  cases c with
  | register r =>
    show (registerChars (p.register r)).length = 2
    cases p.register r with
    | known b => exact Byte.length_hexDigits b
    | unknown => rfl
  | flag f =>
    show (flagChars (p.flag f)).length = 1
    cases p.flag f <;> rfl

theorem length_field (p : Prediction) (c : Cell) : (field p c).length = c.width := by
  rw [field, List.length_append, List.length_cons, length_cellChars]
  show _ = c.name.toList.length + 1 + c.valueWidth
  omega

/-- The words behind the fields of a line that tells of a fault. -/
def annotationWords : List (List Char) := ["prediction".toList, "failed".toList]

theorem annotation_eq : annotation = [' '] ++ [' '].intercalate annotationWords := by decide

/-- The words of a state line. -/
def words (s : State) : List (List Char) :=
  Cell.all.map (field s.cells) ++ if s.fault then annotationWords else []

theorem map_field_ne_nil (p : Prediction) : Cell.all.map (field p) ≠ [] := by
  intro h
  exact absurd (List.map_eq_nil_iff.mp h) (by decide)

theorem words_ne_nil (s : State) : s.words ≠ [] :=
  List.append_ne_nil_of_left_ne_nil (map_field_ne_nil s.cells) _

theorem lineChars_eq_words (s : State) : s.lineChars = [' '].intercalate s.words := by
  rw [lineChars_eq, words]
  cases s.fault with
  | false =>
    rw [if_neg Bool.false_ne_true, if_neg Bool.false_ne_true, List.append_nil, List.append_nil,
      fieldChars]
  | true =>
    rw [if_pos rfl, if_pos rfl, intercalate_append (map_field_ne_nil s.cells) (by decide),
      annotation_eq, fieldChars, List.append_assoc]

/-- There is no space inside a word. -/
theorem space_notMem_words (s : State) : ∀ w ∈ s.words, ' ' ∉ w := by
  have hannotation : ∀ w ∈ annotationWords, ' ' ∉ w := by decide
  intro w hw
  rcases List.mem_append.mp hw with hw | hw
  · obtain ⟨c, -, rfl⟩ := List.mem_map.mp hw
    intro hspace
    exact absurd (field_subset s.cells c hspace) (by decide)
  · split at hw
    · exact hannotation w hw
    · exact absurd hw List.not_mem_nil

/-- The field of a cell can be cut out of the line at the column of the cell. -/
theorem take_drop_lineChars (s : State) (c : Cell) :
    (s.lineChars.drop c.column).take c.width = field s.cells c := by
  obtain ⟨before, after, hall, hcolumn⟩ := Cell.column_eq c (Cell.mem_all c)
  have hwords : ∃ rest, s.words = before.map (field s.cells) ++ field s.cells c :: rest := by
    refine ⟨after.map (field s.cells) ++ if s.fault then annotationWords else [], ?_⟩
    rw [words, hall, List.map_append, List.map_cons, List.append_assoc, List.cons_append]
  obtain ⟨rest, hwords⟩ := hwords
  have hbefore : ((before.map (field s.cells)).map fun u => u.length + 1).sum = c.column := by
    rw [List.map_map, ← hcolumn]
    congr 1
    refine List.map_congr_left fun d _ => ?_
    exact congrArg (· + 1) (length_field s.cells d)
  have hword := take_drop_intercalate (before.map (field s.cells)) rest (field s.cells c)
  rwa [hbefore, length_field, ← hwords, ← lineChars_eq_words] at hword

theorem length_lineChars (s : State) : s.lineChars.length = if s.fault then 62 else 44 := by
  have hfields : (s.words.map fun u => u.length + 1).sum = if s.fault then 63 else 45 := by
    rw [words, List.map_append, List.map_map, List.sum_append]
    have hmap : (Cell.all.map ((fun u : List Char => u.length + 1) ∘ field s.cells)).sum = 45 := by
      have hwidth : (fun u : List Char => u.length + 1) ∘ field s.cells = fun c => c.width + 1 :=
        funext fun c => congrArg (· + 1) (length_field s.cells c)
      rw [hwidth]
      rfl
    rw [hmap]
    cases s.fault <;> rfl
  -- The sum counts a space behind the last word too.
  have hlength := length_intercalate s.words_ne_nil
  rw [hfields, ← lineChars_eq_words] at hlength
  cases hfault : s.fault with
  | false =>
    rw [hfault, if_neg Bool.false_ne_true] at hlength
    rw [if_neg Bool.false_ne_true]
    omega
  | true =>
    rw [hfault, if_pos rfl] at hlength
    rw [if_pos rfl]
    omega

/-! ### Reading a line -/

/-- Reads the value of a register. Anything but hexadecimal digits says nothing. -/
def readRegister (value : List Char) : Knowledge Byte :=
  .ofOption ((Byte.readHex? value).map (BitVec.ofNat 8))

/-- Reads the value of a flag. Anything but the two digits says nothing. -/
def readFlag (value : List Char) : Knowledge Bool :=
  match value with
  | ['1'] => .known true
  | ['0'] => .known false
  | _ => .unknown

/-- What stands in a text where the value of a cell belongs. -/
def valueAt (text : List Char) (c : Cell) : List Char :=
  ((text.drop c.column).take c.width).drop (c.name.toList.length + 1)

/-- Reads the values of all cells from their columns. -/
def readCells (text : List Char) : Prediction :=
  let register (r : Register) := readRegister (valueAt text (.register r))
  let flag (f : Flag) := readFlag (valueAt text (.flag f))
  { a := register .A, x := register .X, y := register .Y, s := register .S
    n := flag .N, v := flag .V, d := flag .D, i := flag .I, z := flag .Z, c := flag .C }

/-- Reads the cells from their columns and the fault from the end of a text. -/
def read (text : String) : State :=
  { cells := readCells text.toList, fault := annotation.isSuffixOf text.toList }

/-- The state that a text is the line of, if there is one. -/
def ofLine? (text : String) : Option State :=
  if (read text).line = text then some (read text) else none

theorem readRegister_registerChars (k : Knowledge Byte) :
    readRegister (registerChars k) = k := by
  cases k with
  | known b =>
    show Knowledge.ofOption ((Byte.readHex? (Byte.hexDigits b)).map (BitVec.ofNat 8)) = _
    rw [Byte.readHex?_hexDigits, Option.map_some, BitVec.ofNat_toNat, BitVec.setWidth_eq]
    rfl
  | unknown => decide

theorem readFlag_flagChars (k : Knowledge Bool) : readFlag (flagChars k) = k := by
  cases k with
  | known b => cases b <;> decide
  | unknown => decide

theorem valueAt_lineChars (s : State) (c : Cell) :
    valueAt s.lineChars c = cellChars s.cells c := by
  have hname : (c.name.toList ++ ['=']).length = c.name.toList.length + 1 := List.length_append
  rw [valueAt, take_drop_lineChars, field, List.append_cons, ← hname]
  exact List.drop_left

theorem register_readCells (text : List Char) (r : Register) :
    (readCells text).register r = readRegister (valueAt text (.register r)) := by
  cases r <;> rfl

theorem flag_readCells (text : List Char) (f : Flag) :
    (readCells text).flag f = readFlag (valueAt text (.flag f)) := by
  cases f <;> rfl

/-- The cells are read from a line as they were written to it. -/
theorem readCells_lineChars (s : State) : readCells s.lineChars = s.cells := by
  refine Cells.ext_cells (fun r => ?_) fun f => ?_
  · rw [register_readCells, valueAt_lineChars]
    exact readRegister_registerChars _
  · rw [flag_readCells, valueAt_lineChars]
    exact readFlag_flagChars _

theorem read_line (s : State) : read s.line = s := by
  refine State.ext ?_ ?_
  · show readCells s.line.toList = s.cells
    rw [toList_line, readCells_lineChars]
  · show annotation.isSuffixOf s.line.toList = s.fault
    rw [toList_line, Bool.eq_iff_iff, List.isSuffixOf_iff_suffix]
    exact annotation_suffix_iff s

/-- Exactly the state lines are read, and each as the state it shows. -/
theorem ofLine?_eq_some_iff {text : String} {s : State} :
    ofLine? text = some s ↔ text = s.line := by
  unfold ofLine?
  constructor
  · intro h
    split at h
    · next hline =>
      rw [← hline, Option.some.inj h]
    · cases h
  · rintro rfl
    rw [read_line, if_pos rfl]

theorem line_inj {s t : State} : s.line = t.line ↔ s = t := by
  constructor
  · intro h
    rw [← read_line s, h, read_line]
  · rintro rfl
    rfl

/-- How the line of a state is laid out. -/
structure LaidOut (s : State) : Prop where
  /-- The annotation adds eighteen characters to forty-four. -/
  length : s.line.length = if s.fault then 62 else 44
  /-- The field of every cell stands in its column. -/
  field : ∀ c, (s.line.toList.drop c.column).take c.width = field s.cells c
  /-- Cut at the spaces, the line falls into the fields in their order and the words of the
  annotation. -/
  words : s.line.toList.splitOn ' ' =
    Cell.all.map (State.field s.cells) ++ if s.fault then annotationWords else []

theorem laidOut (s : State) : s.LaidOut where
  length := by
    rw [line, String.length_ofList]
    exact s.length_lineChars
  field c := by
    rw [toList_line]
    exact s.take_drop_lineChars c
  words := by
    rw [toList_line, lineChars_eq_words]
    exact List.splitOn_intercalate ' ' s.space_notMem_words s.words_ne_nil

end State

namespace Checker

/-- Checkers with the same settings that show the same line are the same. -/
theorem eq_of_line {c d : Checker} (hsettings : c.settings = d.settings)
    (hline : c.state.line = d.state.line) : c = d := by
  obtain ⟨settings, state⟩ := c
  obtain ⟨settings', state'⟩ := d
  obtain rfl : settings = settings' := hsettings
  obtain rfl : state = state' := State.line_inj.mp hline
  rfl

/-- The state line loses nothing. There is a reader that takes each line, and no other text,
to the state it shows. So states have the same line only if they are the same. The ten fields
stand in fixed columns in the order of the cells, with single spaces between them. Whatever
has happened to two checkers with the same settings, once they show the same line they answer
and log the same in every run from there on. -/
theorem line_lossless :
    (∀ text s, State.ofLine? text = some s ↔ text = s.line) ∧
      (∀ s t : State, s.line = t.line ↔ s = t) ∧
      (∀ s : State, s.LaidOut) ∧
      Cell.all.map Cell.name = ["A", "X", "Y", "SP", "N", "V", "D", "I", "Z", "C"] ∧
      ∀ c d : Checker, c.settings = d.settings → ∀ ks ls : List Call,
        (c.after ks).state.line = (d.after ls).state.line →
        ∀ js, (c.after ks).outcomes js = (d.after ls).outcomes js := by
  refine ⟨fun text s => State.ofLine?_eq_some_iff, fun s t => State.line_inj,
    fun s => s.laidOut, rfl, ?_⟩
  intro c d hsettings ks ls hline js
  have hafter : (c.after ks).settings = (d.after ls).settings := by
    rw [settings_after, settings_after, hsettings]
  rw [eq_of_line hafter hline]

end Checker

end TraceCheck
