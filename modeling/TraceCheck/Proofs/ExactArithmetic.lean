import TraceCheck.Arithmetic

/-!
# `TraceCheck.Proofs.ExactArithmetic`: eight-bit arithmetic as arithmetic on numbers

`TraceCheck.Arithmetic` computes the way an arithmetic unit does: the overflow of a sum
is read off three sign bits, and a shift moves bits and drops the carry in at one end.
This module says what these results are as numbers. A carry and an overflow tell
whether an exact sum or difference leaves the range of unsigned and of signed bytes. A
subtraction is the addition of the complement (`subtractWithBorrow_eq`): the exact
difference and the exact sum with the complement are 256 apart, so a missing borrow is a
carry. A shift to the left doubles a nine-bit number, and a shift to the right halves one.

Every proof moves the statement to `Nat` and `Int`, where the bounds of the operands are
all that is needed.
-/

set_option autoImplicit false

namespace TraceCheck

namespace Byte

/-! ### Addition and subtraction -/

/-- An addition overflows when the exact sum of the signed operands is no signed byte. -/
theorem overflow_addWithCarry (a m : Byte) (c : Bool) :
    (addWithCarry a m c).overflow =
      decide (a.toInt + m.toInt + c.toNat < -128 ∨ 127 < a.toInt + m.toInt + c.toNat) := by
  have ha := a.isLt
  have hm := m.isLt
  have hc := Bool.toNat_le c
  simp only [addWithCarry, BitVec.msb_eq_decide, BitVec.toNat_ofNat, BitVec.toInt_eq_toNat_cond]
  rw [Bool.eq_iff_iff]
  simp
  omega

/-- A subtraction overflows when the exact difference of the signed operands is no
signed byte. -/
theorem overflow_subtractWithBorrow (a m : Byte) (c : Bool) :
    (subtractWithBorrow a m c).overflow =
      decide (a.toInt - m.toInt - (1 - c.toNat) < -128 ∨
        127 < a.toInt - m.toInt - (1 - c.toNat)) := by
  have ha := a.isLt
  have hm := m.isLt
  have hc := Bool.toNat_le c
  simp only [subtractWithBorrow, difference, BitVec.msb_eq_decide, BitVec.toNat_ofInt,
    BitVec.toInt_eq_toNat_cond]
  rw [Bool.eq_iff_iff]
  simp
  omega

/-- The sign bit of a sum and its overflow tell together whether the exact sum of the signed
operands is negative. -/
theorem sign_addWithCarry (a m : Byte) (c : Bool) :
    ((addWithCarry a m c).value.msb != (addWithCarry a m c).overflow) =
      decide (a.toInt + m.toInt + c.toNat < 0) := by
  have ha := a.isLt
  have hm := m.isLt
  have hc := Bool.toNat_le c
  have hmsb : (addWithCarry a m c).value.msb =
      decide (128 ≤ (a.toNat + m.toNat + c.toNat) % 256) := by
    show (BitVec.ofNat 8 (a.toNat + m.toNat + c.toNat)).msb = _
    rw [BitVec.msb_eq_decide, BitVec.toNat_ofNat]
  rw [hmsb, overflow_addWithCarry, BitVec.toInt_eq_toNat_cond, BitVec.toInt_eq_toNat_cond,
    Bool.eq_iff_iff, bne_iff_ne, ne_eq, Bool.eq_iff_iff]
  simp only [decide_eq_true_iff]
  omega

/-- The byte that remains of a sum and the carry make up the exact sum. -/
theorem value_add_carry (a m : Byte) (c : Bool) :
    (addWithCarry a m c).value.toNat + 256 * (addWithCarry a m c).carry.toNat =
      a.toNat + m.toNat + c.toNat := by
  have ha := a.isLt
  have hm := m.isLt
  have hc := Bool.toNat_le c
  show (BitVec.ofNat 8 (a.toNat + m.toNat + c.toNat)).toNat +
    256 * (decide (256 ≤ a.toNat + m.toNat + c.toNat)).toNat = _
  rw [BitVec.toNat_ofNat]
  by_cases h : 256 ≤ a.toNat + m.toNat + c.toNat
  · rw [decide_eq_true h, Bool.toNat_true]
    omega
  · rw [decide_eq_false h, Bool.toNat_false]
    omega

/-! ### Subtraction as addition of the complement -/

/-- A difference of bytes has nine bits and a sign. -/
theorem difference_mem_range (a m : Byte) (c : Bool) :
    -256 ≤ difference a m c ∧ difference a m c ≤ 255 := by
  have ha := a.isLt
  have hm := m.isLt
  have hc := Bool.toNat_le c
  unfold difference
  omega

/-- The result of a subtraction is the exact difference modulo 256. -/
theorem toNat_value_subtractWithBorrow (a m : Byte) (c : Bool) :
    ((subtractWithBorrow a m c).value.toNat : Int) =
      ((a.toNat : Int) - m.toNat - (1 - c.toNat)) % 256 := by
  show ((BitVec.ofInt 8 (difference a m c)).toNat : Int) = difference a m c % 256
  rw [BitVec.toNat_ofInt]
  omega

theorem toNat_complement (m : Byte) : (255 - m : Byte).toNat = 255 - m.toNat := by
  have hm := m.isLt
  rw [BitVec.toNat_sub]
  show (256 - m.toNat + 255) % 256 = 255 - m.toNat
  omega

theorem msb_complement (m : Byte) : (255 - m : Byte).msb = !m.msb := by
  have hm := m.isLt
  rw [BitVec.msb_eq_decide, BitVec.msb_eq_decide, toNat_complement, Bool.eq_iff_iff]
  simp
  omega

/-- The exact sum with the complement is the exact difference and 256 more. -/
theorem sum_complement (a m : Byte) (c : Bool) :
    ((a.toNat + (255 - m : Byte).toNat + c.toNat : Nat) : Int) = difference a m c + 256 := by
  have hm := m.isLt
  have hc := Bool.toNat_le c
  rw [toNat_complement]
  unfold difference
  omega

/-- To subtract is to add the complement. -/
theorem subtractWithBorrow_eq (a m : Byte) (c : Bool) :
    subtractWithBorrow a m c = addWithCarry a (255 - m) c := by
  have hsum := sum_complement a m c
  have hvalue : BitVec.ofInt 8 (difference a m c) =
      BitVec.ofNat 8 (a.toNat + (255 - m : Byte).toNat + c.toNat) := by
    apply BitVec.eq_of_toNat_eq
    rw [BitVec.toNat_ofInt, BitVec.toNat_ofNat]
    omega
  have hcarry : decide (0 ≤ difference a m c) =
      decide (256 ≤ a.toNat + (255 - m : Byte).toNat + c.toNat) := by
    rw [decide_eq_decide]
    omega
  -- Operands that differ in sign share one with the complement.
  have hsign : (a.msb != m.msb) = (a.msb == (255 - m : Byte).msb) := by
    rw [msb_complement]
    cases a.msb <;> cases m.msb <;> rfl
  simp only [subtractWithBorrow, addWithCarry, hvalue, hcarry, hsign]

/-- With the carry set nothing more than the operand is subtracted. -/
theorem value_subtractWithBorrow_true (a m : Byte) :
    (subtractWithBorrow a m true).value = a - m := by
  have ha := a.isLt
  have hm := m.isLt
  apply BitVec.eq_of_toNat_eq
  rw [BitVec.toNat_sub]
  have hvalue := toNat_value_subtractWithBorrow a m true
  simp only [Bool.toNat_true] at hvalue
  omega

theorem carry_subtractWithBorrow_true (a m : Byte) :
    (subtractWithBorrow a m true).carry = decide (m ≤ a) := by
  show decide (0 ≤ difference a m true) = decide (m.toNat ≤ a.toNat)
  rw [decide_eq_decide]
  simp only [difference, Bool.toNat_true]
  omega

/-! ### Shifts -/

/-- The bit that enters at the bottom meets a clear bit. -/
private theorem shiftLeft_and_one (b : Byte) : b <<< 1 &&& 0x01 = 0#8 := by
  show b <<< 1 &&& BitVec.twoPow 8 0 = 0#8
  rw [BitVec.and_twoPow]
  simp

/-- The bit that enters at the top meets a clear bit. -/
private theorem shiftRight_and_top (b : Byte) : b >>> 1 &&& 0x80 = 0#8 := by
  show b >>> 1 &&& BitVec.twoPow 8 7 = 0#8
  rw [BitVec.and_twoPow]
  simp

/-- A shift to the left doubles the byte and adds the bit that enters. -/
theorem value_shift_left (b : Byte) (c : Bool) :
    (shift .left b c).value = BitVec.ofNat 8 (2 * b.toNat + c.toNat) := by
  have hb := b.isLt
  have hclear : b <<< 1 &&& (if c then 0x01 else 0) = 0#8 := by
    cases c with
    | false => simp
    | true => exact shiftLeft_and_one b
  apply BitVec.eq_of_toNat_eq
  simp only [shift]
  rw [← BitVec.add_eq_or_of_and_eq_zero _ _ hclear]
  cases c <;> simp [BitVec.toNat_add, BitVec.toNat_shiftLeft, Nat.shiftLeft_eq] <;> omega

/-- The bit that leaves a shift to the left tells whether the doubled byte has nine bits. -/
theorem carry_shift_left (b : Byte) (c : Bool) :
    (shift .left b c).carry = decide (256 ≤ 2 * b.toNat + c.toNat) := by
  have hc := Bool.toNat_le c
  simp only [shift, BitVec.msb_eq_decide]
  simp
  omega

/-- A shift to the right halves the byte with the bit that enters above it. -/
theorem value_shift_right (b : Byte) (c : Bool) :
    (shift .right b c).value = BitVec.ofNat 8 ((256 * c.toNat + b.toNat) / 2) := by
  have hb := b.isLt
  have hclear : b >>> 1 &&& (if c then 0x80 else 0) = 0#8 := by
    cases c with
    | false => simp
    | true => exact shiftRight_and_top b
  apply BitVec.eq_of_toNat_eq
  simp only [shift]
  rw [← BitVec.add_eq_or_of_and_eq_zero _ _ hclear]
  cases c <;>
    simp [BitVec.toNat_add, BitVec.toNat_ushiftRight, Nat.shiftRight_eq_div_pow] <;> omega

/-- The bit that leaves a shift to the right tells whether the byte is odd. -/
theorem carry_shift_right (b : Byte) (c : Bool) :
    (shift .right b c).carry = decide (b.toNat % 2 = 1) := by
  simp only [shift, BitVec.getLsbD, Nat.testBit_zero]

/-- The byte that remains of a shift to the left and the carry make up the doubled byte. -/
theorem value_add_carry_shift_left (b : Byte) (c : Bool) :
    (shift .left b c).value.toNat + 256 * (shift .left b c).carry.toNat =
      2 * b.toNat + c.toNat := by
  have hb := b.isLt
  have hc := Bool.toNat_le c
  rw [value_shift_left, carry_shift_left, BitVec.toNat_ofNat]
  by_cases h : 256 ≤ 2 * b.toNat + c.toNat
  · rw [decide_eq_true h, Bool.toNat_true]
    omega
  · rw [decide_eq_false h, Bool.toNat_false]
    omega

/-- A byte and the carry above it are twice what a shift to the right leaves of them, and the bit
that leaves. -/
theorem value_add_carry_shift_right (b : Byte) (c : Bool) :
    2 * (shift .right b c).value.toNat + (shift .right b c).carry.toNat =
      256 * c.toNat + b.toNat := by
  have hb := b.isLt
  have hc := Bool.toNat_le c
  rw [value_shift_right, carry_shift_right, BitVec.toNat_ofNat]
  by_cases h : b.toNat % 2 = 1
  · rw [decide_eq_true h, Bool.toNat_true]
    omega
  · rw [decide_eq_false h, Bool.toNat_false]
    omega

end Byte

end TraceCheck
