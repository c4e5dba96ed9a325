import TraceCheck.Proofs.Activity
import TraceCheck.Proofs.ExactArithmetic

/-!
# `TraceCheck.Proofs.Rotation`: the accumulator and the carry turn as nine bits

A rotate moves the accumulator by one place. The old carry enters at one end, and the bit that
leaves at the other end is the new carry. Nothing is lost, so the nine bits of the two together,
with the carry on top, turn in a ring. `Direction.turn` is a turn of nine bits by any number of
places, and `Byte.cons_shift` says that a rotate is a turn by one. It is the only lemma that looks
at single bits of a byte.

A run of rotates in one direction is then one long turn (`Checker.holds_after`), which the same
number of rotates in the other direction takes back, and nine are as good as none. Where the
accumulator or the carry is unknown, the first rotate makes both unknown, and they stay so
(`Checker.forgets_after`).
-/

set_option autoImplicit false

namespace TraceCheck

namespace Direction

/-! ### Turns of nine bits -/

/-- Turns nine bits by a number of places. -/
def turn : Direction → Nat → BitVec 9 → BitVec 9
  | left, k, w => w.rotateLeft k
  | right, k, w => w.rotateRight k

/-- The other direction. -/
def opposite : Direction → Direction
  | left => right
  | right => left

/-- The place from which a turn takes the bit that it puts at a place. -/
def origin : Direction → Nat → Nat → Nat
  | left, k, i => (i + 9 - k % 9) % 9
  | right, k, i => (i + k) % 9

theorem origin_lt (d : Direction) (k i : Nat) : d.origin k i < 9 := by
  cases d <;> exact Nat.mod_lt _ (by decide)

theorem getLsbD_turn (d : Direction) (k : Nat) (w : BitVec 9) {i : Nat} (hi : i < 9) :
    (d.turn k w).getLsbD i = w.getLsbD (d.origin k i) := by
  cases d with
  | left =>
    show (w.rotateLeft k).getLsbD i = w.getLsbD ((i + 9 - k % 9) % 9)
    rw [BitVec.getLsbD_rotateLeft]
    -- The lowest places are filled from the top.
    by_cases h : i < k % 9
    · rw [decide_eq_true h, cond_true]
      congr 1
      omega
    · rw [decide_eq_false h, cond_false, decide_eq_true hi, Bool.true_and]
      congr 1
      omega
  | right =>
    show (w.rotateRight k).getLsbD i = w.getLsbD ((i + k) % 9)
    rw [BitVec.getLsbD_rotateRight]
    -- The highest places are filled from the bottom.
    by_cases h : i < 9 - k % 9
    · rw [decide_eq_true h, cond_true]
      congr 1
      omega
    · rw [decide_eq_false h, cond_false, decide_eq_true hi, Bool.true_and]
      congr 1
      omega

/-- Two turns in one direction are one turn by all the places together. -/
theorem turn_turn (d : Direction) (j k : Nat) (w : BitVec 9) :
    d.turn k (d.turn j w) = d.turn (j + k) w := by
  apply BitVec.eq_of_getLsbD_eq
  intro i hi
  rw [getLsbD_turn d k _ hi, getLsbD_turn d j w (origin_lt d k i), getLsbD_turn d _ w hi]
  congr 1
  cases d <;> simp only [origin] <;> omega

/-- A turn in the other direction by as many places takes a turn back. -/
theorem turn_opposite (d : Direction) (k : Nat) (w : BitVec 9) :
    d.opposite.turn k (d.turn k w) = w := by
  apply BitVec.eq_of_getLsbD_eq
  intro i hi
  rw [getLsbD_turn _ k _ hi, getLsbD_turn d k w (origin_lt _ k i)]
  congr 1
  cases d <;> simp only [opposite, origin] <;> omega

/-- A turn by any number of whole rounds changes nothing. -/
theorem turn_eq_self (d : Direction) {k : Nat} (hk : k % 9 = 0) (w : BitVec 9) :
    d.turn k w = w := by
  apply BitVec.eq_of_getLsbD_eq
  intro i hi
  rw [getLsbD_turn d k w hi]
  congr 1
  cases d <;> simp only [origin] <;> omega

end Direction

namespace Byte

/-! ### Bits of a shifted byte -/

/-- A shift to the left moves every bit up, and the carry enters at the bottom. -/
theorem getLsbD_shift_left (b : Byte) (c : Bool) {i : Nat} (hi : i < 8) :
    (shift .left b c).value.getLsbD i = if i = 0 then c else b.getLsbD (i - 1) := by
  have hcarry : (if c then 0x01 else 0 : Byte).getLsbD i = (decide (i = 0) && c) := by
    cases c <;> simp [BitVec.getLsbD_one]
  show (b <<< 1 ||| (if c then 0x01 else 0 : Byte)).getLsbD i = _
  rw [BitVec.getLsbD_or, BitVec.getLsbD_shiftLeft, hcarry, decide_eq_true hi]
  by_cases hzero : i = 0
  · simp [hzero]
  · have hone : ¬ i < 1 := by omega
    simp [hzero, hone]

/-- A shift to the right moves every bit down, and the carry enters at the top. -/
theorem getLsbD_shift_right (b : Byte) (c : Bool) (i : Nat) :
    (shift .right b c).value.getLsbD i = if i = 7 then c else b.getLsbD (i + 1) := by
  have hcarry : (if c then 0x80 else 0 : Byte).getLsbD i = (decide (i = 7) && c) := by
    cases c with
    | false => simp
    | true =>
      show (BitVec.twoPow 8 7).getLsbD i = _
      rw [BitVec.getLsbD_twoPow]
      simp [eq_comm]
  show (b >>> 1 ||| (if c then 0x80 else 0 : Byte)).getLsbD i = _
  rw [BitVec.getLsbD_or, BitVec.getLsbD_ushiftRight, hcarry, Nat.add_comm 1 i]
  by_cases hseven : i = 7
  · simp [hseven]
  · simp [hseven]

/-- A shift of a byte with the carry above it is a turn by one place. -/
theorem cons_shift (d : Direction) (b : Byte) (c : Bool) :
    BitVec.cons (shift d b c).carry (shift d b c).value = d.turn 1 (BitVec.cons c b) := by
  apply BitVec.eq_of_getLsbD_eq
  intro i hi
  rw [Direction.getLsbD_turn d 1 _ hi, BitVec.getLsbD_cons, BitVec.getLsbD_cons]
  by_cases htop : i = 8
  · -- The bit that leaves goes to the top.
    subst htop
    cases d with
    | left => exact BitVec.msb_eq_getLsbD_last b
    | right => rfl
  · rw [if_neg htop]
    cases d with
    | left =>
      rw [getLsbD_shift_left b c (by omega)]
      by_cases hzero : i = 0
      · rw [if_pos hzero, hzero]
        rfl
      · have horigin : Direction.left.origin 1 i = i - 1 := by
          simp only [Direction.origin]
          omega
        rw [if_neg hzero, horigin, if_neg (by omega)]
    | right =>
      rw [getLsbD_shift_right]
      by_cases hseven : i = 7
      · rw [if_pos hseven, hseven]
        rfl
      · have horigin : Direction.right.origin 1 i = i + 1 := by
          simp only [Direction.origin]
          omega
        rw [if_neg hseven, horigin, if_neg (by omega)]

end Byte

/-! ### Rotates of the accumulator -/

/-- The instruction that rotates the accumulator. -/
def Direction.accumulatorRotate : Direction → Instruction
  | left => ⟨.ROL, .accumulator⟩
  | right => ⟨.ROR, .accumulator⟩

/-- The call reports a rotate of the accumulator. Its operand is ignored. -/
def Call.Rotates (k : Call) (d : Direction) : Prop :=
  ∃ ignored, k.Executes d.accumulatorRotate ignored

namespace Cells

/-- The accumulator and, above it, the carry are known to be these nine bits. -/
def Holds (p : Prediction) (w : BitVec 9) : Prop :=
  ∃ a carry, p.a = .known a ∧ p.c = .known carry ∧ BitVec.cons carry a = w

/-- N and Z are those of the accumulator, as far as it is known. -/
def SignsFollow (p : Prediction) : Prop :=
  p.n = p.a.map BitVec.msb ∧ p.z = p.a.map (· == 0)

/-- Nothing is known of the accumulator and of the flags that a rotate writes. -/
structure Forgets (p : Prediction) : Prop where
  accumulator : p.a = .unknown
  negative : p.n = .unknown
  zero : p.z = .unknown
  carry : p.c = .unknown

theorem holds_cons_iff {p : Prediction} {a : Byte} {carry : Bool} :
    p.Holds (BitVec.cons carry a) ↔ p.a = .known a ∧ p.c = .known carry := by
  constructor
  · rintro ⟨a', carry', ha, hcarry, hsame⟩
    have htop : carry' = carry := by
      rw [← BitVec.msb_cons (a := carry') (x := a'), hsame, BitVec.msb_cons]
    have hrest : a' = a := by
      rw [← BitVec.setWidth_cons (a := carry') (x := a'), hsame, BitVec.setWidth_cons]
    rw [ha, hcarry, hrest, htop]
    exact ⟨rfl, rfl⟩
  · rintro ⟨ha, hcarry⟩
    exact ⟨a, carry, ha, hcarry, rfl⟩

end Cells

namespace Call.Rotates

variable {k : Call} {d : Direction}

theorem cells (h : k.Rotates d) (c : Checker) :
    (c.call k).checker.state.cells =
      c.state.cells.setShifted (.register .A)
        (Knowledge.map₂ (Byte.shift d) c.state.cells.a c.state.cells.c) := by
  obtain ⟨ignored, hk⟩ := h
  rw [hk.cells c]
  cases d <;> rfl

theorem mismatches (h : k.Rotates d) (c : Checker) : (c.call k).mismatches = [] := by
  obtain ⟨ignored, hk⟩ := h
  rw [hk.mismatches c]
  cases d <;> rfl

/-- The nine bits turn by one place. -/
theorem holds (h : k.Rotates d) {c : Checker} {w : BitVec 9} (hw : c.state.cells.Holds w) :
    (c.call k).checker.state.cells.Holds (d.turn 1 w) := by
  obtain ⟨a, carry, ha, hcarry, rfl⟩ := hw
  rw [h.cells c, ha, hcarry]
  exact ⟨_, _, rfl, rfl, Byte.cons_shift d a carry⟩

theorem signsFollow (h : k.Rotates d) (c : Checker) :
    (c.call k).checker.state.cells.SignsFollow := by
  rw [h.cells c]
  exact ⟨rfl, rfl⟩

/-- One of the two inputs is enough to lose both. -/
theorem forgets (h : k.Rotates d) {c : Checker}
    (hunknown : c.state.cells.a = .unknown ∨ c.state.cells.c = .unknown) :
    (c.call k).checker.state.cells.Forgets := by
  have hresult : Knowledge.map₂ (Byte.shift d) c.state.cells.a c.state.cells.c = .unknown := by
    rcases hunknown with ha | hcarry
    · rw [ha, Knowledge.map₂_unknown_left]
    · rw [hcarry, Knowledge.map₂_unknown_right]
  rw [h.cells c, hresult]
  exact ⟨rfl, rfl, rfl, rfl⟩

end Call.Rotates

namespace Checker

/-! ### Runs of rotates -/

/-- A run of rotates in one direction turns the nine bits by as many places. -/
theorem holds_after {d : Direction} {ks : List Call} (hks : ∀ k ∈ ks, k.Rotates d) {c : Checker}
    {w : BitVec 9} (hw : c.state.cells.Holds w) :
    (c.after ks).state.cells.Holds (d.turn ks.length w) := by
  induction ks generalizing c w with
  | nil =>
    rw [List.length_nil, d.turn_eq_self (Nat.zero_mod 9)]
    exact hw
  | cons k ks ih =>
    rw [List.forall_mem_cons] at hks
    -- The rest of the run turns what the first rotate has turned.
    have hrest := ih hks.2 (hks.1.holds hw)
    rwa [Direction.turn_turn, Nat.add_comm] at hrest

/-- After a run of rotates, in whatever directions, N and Z are those of the accumulator. -/
theorem signsFollow_after {ks : List Call} (hks : ∀ k ∈ ks, ∃ d, k.Rotates d) (hne : ks ≠ [])
    (c : Checker) : (c.after ks).state.cells.SignsFollow := by
  obtain ⟨d, hlast⟩ := hks _ (List.getLast_mem hne)
  rw [← List.dropLast_concat_getLast hne, after_append]
  exact hlast.signsFollow _

/-- What the first rotate of a run forgets is not learnt in the rest of it. -/
theorem forgets_after {ks : List Call} (hks : ∀ k ∈ ks, ∃ d, k.Rotates d) (hne : ks ≠ [])
    {c : Checker} (hunknown : c.state.cells.a = .unknown ∨ c.state.cells.c = .unknown) :
    (c.after ks).state.cells.Forgets := by
  induction ks generalizing c with
  | nil => exact absurd rfl hne
  | cons k ks ih =>
    rw [List.forall_mem_cons] at hks
    obtain ⟨⟨d, hk⟩, hks⟩ := hks
    -- An unknown accumulator is what makes the next rotate forget.
    have hfirst := hk.forgets hunknown
    by_cases hlast : ks = []
    · rw [hlast]
      exact hfirst
    · exact ih hks hlast (Or.inl hfirst.accumulator)

end Checker

end TraceCheck
