import TraceCheck.Proofs.LongArithmetic
import TraceCheck.Proofs.Rotation

/-!
# `TraceCheck.Proofs.LongShifts`: rotates, and shifts of any length in a trace

A program shifts a long number by one place with rotates. It clears the carry, and for each byte
it loads the byte, rotates the accumulator and stores the result (`Call.ShiftColumns`). To double
the number it goes from the lowest byte up and rotates to the left, to halve it from the top byte
down and to the right: each byte has to give its bit to the next one.

The store of a column may be wrong, and the next load makes up for it. Only the carry goes from
column to column, and neither a load nor a store touches it. The columns therefore compute
`Byte.longShift`, with one judgement for each store (`Checker.shiftColumns`), and what that is as
a number is said in `TraceCheck.Proofs.ByteNumbers`. `Checker.rotates_exactly` puts this together
with the turns of `TraceCheck.Proofs.Rotation`.
-/

set_option autoImplicit false

namespace TraceCheck

open Byte

/-- The calls for the columns of a long shift, in the order in which the bytes are shifted: a byte
is loaded, the accumulator is rotated, and a byte is stored. -/
inductive Call.ShiftColumns (d : Direction) : List Byte → List Byte → List Call → Prop where
  | nil : ShiftColumns d [] [] []
  | cons {b s : Byte} {bs ss : List Byte} {load rotate store : Call} {ks : List Call}
      (hload : load.Reports .LDA b) (hrotate : rotate.Rotates d)
      (hstore : store.Reports .STA s) (rest : ShiftColumns d bs ss ks) :
      ShiftColumns d (b :: bs) (s :: ss) (load :: rotate :: store :: ks)

namespace Checker

variable {c : Checker} {d : Direction}

/-! ### Columns -/

/-- A column hands on the bit that leaves its byte, and it is judged by the shifted byte. -/
theorem shiftColumn {b s : Byte} {carry : Bool} {load rotate store : Call}
    (hload : load.Reports .LDA b) (hrotate : rotate.Rotates d) (hstore : store.Reports .STA s)
    (hcarry : c.state.cells.c = .known carry) :
    (c.after [load, rotate, store]).state.cells.c = .known (shift d b carry).carry ∧
      (c.outcomes [load, rotate, store]).map (·.mismatches) =
        [[], [], judge (shift d b carry).value s] := by
  let loaded := (c.call load).checker
  let rotated := (loaded.call rotate).checker
  obtain ⟨mode, hloaded⟩ := hload.cells c
  obtain ⟨mode', hstored⟩ := hstore.cells rotated
  have hrotated : rotated.state.cells =
      loaded.state.cells.setShifted (.register .A) (.known (shift d b carry)) := by
    rw [show rotated.state.cells = _ from hrotate.cells loaded,
      show loaded.state.cells = _ from hloaded]
    -- The load has not changed the carry.
    show Cells.setShifted _ _ (Knowledge.map₂ _ (.known b) c.state.cells.c) = _
    rw [hcarry]
    rfl
  constructor
  · show (rotated.call store).checker.state.cells.c = _
    rw [hstored, hrotated]
    rfl
  · refine outcomes_column hload hstore ?_ (hrotate.mismatches loaded)
    show rotated.state.cells.a = _
    rw [hrotated]
    rfl

/-- The columns compute the long shift and are judged by it. -/
theorem shiftColumns {bs ss : List Byte} {ks : List Call} (hks : Call.ShiftColumns d bs ss ks)
    {carry : Bool} (hcarry : c.state.cells.c = .known carry) :
    (c.after ks).state.cells.c = .known (longShiftCarry d bs carry) ∧
      (c.outcomes ks).map (·.mismatches) = judgements (longShift d bs carry) ss := by
  induction hks generalizing c carry with
  | nil => exact ⟨hcarry, rfl⟩
  | @cons b s bs ss load rotate store ks hload hrotate hstore rest ih =>
    -- The carry is the invariant: a column is left with the one that the next starts with.
    obtain ⟨hnext, hjudged⟩ := shiftColumn hload hrotate hstore hcarry
    obtain ⟨hlast, hjudged'⟩ := ih hnext
    refine ⟨hlast, ?_⟩
    show (c.outcomes ([load, rotate, store] ++ ks)).map (·.mismatches) = _
    rw [outcomes_append, List.map_append, hjudged, hjudged', longShift, judgements_cons]

/-- The columns behind a cleared carry. -/
theorem shiftColumns_after_clear {bs ss : List Byte} {start : Call} {ks : List Call}
    {ignored : Byte} (hstart : start.Reports .CLC ignored)
    (hks : Call.ShiftColumns d bs ss ks) :
    (c.after (start :: ks)).state.cells.c = .known (longShiftCarry d bs false) ∧
      (c.outcomes (start :: ks)).map (·.mismatches) =
        [] :: judgements (longShift d bs false) ss := by
  obtain ⟨mode, hcells⟩ := hstart.cells c
  obtain ⟨mode', hnone⟩ := hstart.mismatches c
  have hcarry : (c.call start).checker.state.cells.c = .known false := by
    rw [hcells]
    rfl
  obtain ⟨hlast, hjudged⟩ := shiftColumns hks hcarry
  refine ⟨hlast, ?_⟩
  show (c.call start).mismatches :: ((c.call start).checker.outcomes ks).map (·.mismatches) = _
  rw [hnone, hjudged]
  rfl

/-! ### Rotates and long shifts are exact -/

/-- How a checker follows rotates of the accumulator and the programs made of them. -/
structure RotatesExactly (c : Checker) : Prop where
  /-- Rotates in one direction turn the carry and the accumulator as nine bits, by one place
  each, and N and Z are those of the accumulator as soon as there is a rotate. -/
  turned : ∀ a carry, c.state.cells.a = .known a → c.state.cells.c = .known carry →
    ∀ (d : Direction) (ks : List Call), (∀ k ∈ ks, k.Rotates d) →
      ∃ a' carry', (c.after ks).state.cells.a = .known a' ∧
        (c.after ks).state.cells.c = .known carry' ∧
        BitVec.cons carry' a' = d.turn ks.length (BitVec.cons carry a) ∧
        (1 ≤ ks.length → (c.after ks).state.cells.n = .known a'.msb ∧
          (c.after ks).state.cells.z = .known (a' == 0))
  /-- As many rotates in the other direction restore the accumulator and the carry. -/
  restored : ∀ a carry, c.state.cells.a = .known a → c.state.cells.c = .known carry →
    ∀ (d : Direction) (ks ls : List Call), (∀ k ∈ ks, k.Rotates d) →
      (∀ l ∈ ls, l.Rotates d.opposite) → ks.length = ls.length →
      (c.after (ks ++ ls)).state.cells.a = .known a ∧
        (c.after (ks ++ ls)).state.cells.c = .known carry
  /-- Nine rotates in one direction restore the accumulator and the carry. -/
  ninefold : ∀ a carry, c.state.cells.a = .known a → c.state.cells.c = .known carry →
    ∀ (d : Direction) (ks : List Call), (∀ k ∈ ks, k.Rotates d) → ks.length = 9 →
      (c.after ks).state.cells.a = .known a ∧ (c.after ks).state.cells.c = .known carry
  /-- Where the accumulator or the carry is unknown, nothing is known after any rotates, in
  whatever directions, of the accumulator and of the flags that a rotate writes. -/
  forgotten : c.state.cells.a = .unknown ∨ c.state.cells.c = .unknown →
    ∀ ks : List Call, (∀ k ∈ ks, ∃ d, k.Rotates d) → 1 ≤ ks.length →
      (c.after ks).state.cells.Forgets
  /-- When a number is shifted to the left from its lowest byte up, a store raises a mismatch just
  when the byte is not the digit of the doubled number at its place, and the top bit of the number
  is left in the carry. -/
  doubled : ∀ (bs ss : List Byte) (start : Call) (ignored : Byte) (ks : List Call),
    start.Reports .CLC ignored → Call.ShiftColumns .left bs ss ks →
      (c.outcomes (start :: ks)).map (·.mismatches) =
          [] :: judgements (digits bs.length (2 * number bs % 256 ^ bs.length)) ss ∧
        (c.after (start :: ks)).state.cells.c =
          .known ((number bs).testBit (8 * bs.length - 1))
  /-- When a number is shifted to the right from its top byte down, a store raises a mismatch just
  when the byte is not the digit of the halved number at its place, and the bottom bit of the
  number is left in the carry. -/
  halved : ∀ (bs ss : List Byte) (start : Call) (ignored : Byte) (ks : List Call),
    start.Reports .CLC ignored → Call.ShiftColumns .right bs.reverse ss.reverse ks →
      (c.outcomes (start :: ks)).map (·.mismatches) =
          [] :: judgements (digits bs.length (number bs / 2)).reverse ss.reverse ∧
        (c.after (start :: ks)).state.cells.c = .known ((number bs).testBit 0)

/-- Rotates turn nine bits, whatever else a checker knows, and the traces of long shifts are
judged by the doubled and the halved number, whatever was known before them. -/
theorem rotates_exactly (c : Checker) : c.RotatesExactly where
  turned a carry ha hcarry d ks hks := by
    obtain ⟨a', carry', ha', hcarry', hturn⟩ :=
      holds_after hks (Cells.holds_cons_iff.mpr ⟨ha, hcarry⟩)
    refine ⟨a', carry', ha', hcarry', hturn, fun hlength => ?_⟩
    obtain ⟨hn, hz⟩ := signsFollow_after (fun k hk => ⟨d, hks k hk⟩)
      (List.ne_nil_of_length_pos hlength) c
    rw [hn, hz, ha']
    exact ⟨rfl, rfl⟩
  restored a carry ha hcarry d ks ls hks hls hlength := by
    have hback := holds_after hls (holds_after hks (Cells.holds_cons_iff.mpr ⟨ha, hcarry⟩))
    rw [← after_append, ← hlength, Direction.turn_opposite] at hback
    exact Cells.holds_cons_iff.mp hback
  ninefold a carry ha hcarry d ks hks hlength := by
    have hround := holds_after hks (Cells.holds_cons_iff.mpr ⟨ha, hcarry⟩)
    rw [hlength, d.turn_eq_self rfl] at hround
    exact Cells.holds_cons_iff.mp hround
  forgotten hunknown ks hks hlength :=
    forgets_after hks (List.ne_nil_of_length_pos hlength) hunknown
  doubled bs ss start ignored ks hstart hks := by
    obtain ⟨hcarry, hjudged⟩ := shiftColumns_after_clear (c := c) hstart hks
    rw [hjudged, hcarry, longShift_left, longShiftCarry_left]
    exact ⟨rfl, rfl⟩
  halved bs ss start ignored ks hstart hks := by
    obtain ⟨hcarry, hjudged⟩ := shiftColumns_after_clear (c := c) hstart hks
    rw [hjudged, hcarry, longShift_right, longShiftCarry_right]
    exact ⟨rfl, rfl⟩

/-- The carry comes back into an accumulator that is turned twice. A number of two bytes is doubled
behind it, and the low byte is stored wrongly. The same number is halved, and its top byte is
stored wrongly then. -/
theorem rotates_exactly_two_bytes :
    let c := (fresh {}).after [.dispatch 0xA9 0x41, .dispatch 0x38 0x00]
    let turned := c.after [.dispatch 0x2A 0x00, .dispatch 0x2A 0xFF]
    let doubled : List Call := [.dispatch 0x18 0x00,
      .dispatch 0xA5 0x81, .dispatch 0x2A 0x00, .dispatch 0x85 0x03,
      .observe 0xB5 (.data 0x40), .observe 0x2A (.data 0x00), .observe 0x95 (.data 0x81)]
    let halved : List Call := [.dispatch 0x18 0x00,
      .dispatch 0xB9 0x40, .dispatch 0x6A 0x00, .dispatch 0x99 0xA0,
      .dispatch 0xAD 0x81, .dispatch 0x6A 0x00, .dispatch 0x8D 0x40]
    (∃ a' carry', turned.state.cells.a = .known a' ∧ turned.state.cells.c = .known carry' ∧
      BitVec.cons carry' a' = 0x106#9) ∧
    ((c.outcomes doubled).map (·.mismatches) =
        [[], [], [], [⟨.register .A, 0x02, 0x03⟩], [], [], []] ∧
      (c.after doubled).state.cells.c = .known false) ∧
    (c.outcomes halved).map (·.mismatches) =
        [[], [], [], [⟨.register .A, 0x20, 0xA0⟩], [], [], []] ∧
      (c.after halved).state.cells.c = .known true := by
  intro c turned doubled halved
  have hc := rotates_exactly c
  have hrotates : ∀ k ∈ [Call.dispatch 0x2A 0x00, Call.dispatch 0x2A 0xFF], k.Rotates .left := by
    rw [List.forall_mem_cons, List.forall_mem_singleton]
    exact ⟨⟨0x00, 0x2A, rfl, by decide⟩, ⟨0xFF, 0x2A, rfl, by decide⟩⟩
  have hdoubled : Call.ShiftColumns .left [0x81, 0x40] [0x03, 0x81] doubled.tail :=
    .cons ⟨0xA5, rfl, by decide⟩ ⟨0x00, 0x2A, rfl, by decide⟩ ⟨0x85, rfl, by decide⟩
      (.cons ⟨0xB5, rfl, by decide⟩ ⟨0x00, 0x2A, rfl, by decide⟩ ⟨0x95, rfl, by decide⟩ .nil)
  have hhalved : Call.ShiftColumns .right [0x81, 0x40].reverse [0x40, 0xA0].reverse
      halved.tail :=
    .cons ⟨0xB9, rfl, by decide⟩ ⟨0x00, 0x6A, rfl, by decide⟩ ⟨0x99, rfl, by decide⟩
      (.cons ⟨0xAD, rfl, by decide⟩ ⟨0x00, 0x6A, rfl, by decide⟩ ⟨0x8D, rfl, by decide⟩ .nil)
  obtain ⟨a', carry', ha', hcarry', hturn, -⟩ :=
    hc.turned 0x41 true (by decide) (by decide) .left _ hrotates
  obtain ⟨hjudged, hout⟩ :=
    hc.doubled _ _ (.dispatch 0x18 0x00) 0x00 _ ⟨0x18, rfl, by decide⟩ hdoubled
  obtain ⟨hjudged', hout'⟩ :=
    hc.halved _ _ (.dispatch 0x18 0x00) 0x00 _ ⟨0x18, rfl, by decide⟩ hhalved
  refine ⟨⟨a', carry', ha', hcarry', hturn.trans (by decide)⟩, ⟨?_, ?_⟩, ?_, ?_⟩
  · exact hjudged.trans (by decide)
  · exact hout.trans (by decide)
  · exact hjudged'.trans (by decide)
  · exact hout'.trans (by decide)

end Checker

end TraceCheck
