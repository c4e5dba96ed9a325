import Mathlib.Data.Nat.Digits.Defs
import TraceCheck.Proofs.ExactArithmetic

/-!
# `TraceCheck.Proofs.ByteNumbers`: numbers of several bytes

A list of bytes, lowest byte first, stands for a number below a power of 256 (`Byte.number`)
and for a number in two's complement (`Byte.signed`). `Byte.digits` goes back from a number to
its bytes, and forgets whatever the bytes have no room for (`digits_number_add`).

Two numbers are added byte by byte with a carry between the bytes (`Byte.chain`). The bytes of
the result and the last carry make up the exact sum (`number_chain_add`). This one equation
tells the bytes, the last carry and, since no digit is left over, whether the sum fits. The top
byte tells the rest: its overflow is the overflow of the whole sum, and its sign bit the sign of
it (`exists_last_chain_add`). The induction goes from the lowest byte up, and each byte below
the top shifts the bounds of the signed range by a factor of 256.

A subtraction is the addition of the complement at every byte (`chain_subtract`), and the
complement of a number is what is left to the highest number of its length.

A number is shifted by one place byte by byte as well (`Byte.longShift`), up from the lowest byte
to double it and down from the top byte to halve it. Here too one equation for each direction says
that no bit is lost on the way (`number_longShift_left`, `number_longShift_right`). The second
goes against the order in which a number is read: its induction puts a byte on top.
-/

set_option autoImplicit false

namespace TraceCheck

namespace Byte

/-! ### Numbers and their bytes -/

/-- The number that a list of bytes stands for, lowest byte first. -/
def number (bs : List Byte) : Nat := Nat.ofDigits 256 (bs.map BitVec.toNat)

/-- The byte of a number at a place, counted from the lowest. -/
def digit (n i : Nat) : Byte := BitVec.ofNat 8 (n / 256 ^ i)

/-- The lowest bytes of a number. -/
def digits (len n : Nat) : List Byte := (List.range len).map (digit n)

/-- The number that a list of bytes stands for in two's complement. -/
def signed (bs : List Byte) : Int :=
  if 2 * number bs < 256 ^ bs.length then number bs else (number bs : Int) - 256 ^ bs.length

/-- A number has a place in two's complement of so many bytes. -/
def Fits (len : Nat) (z : Int) : Prop := -256 ^ len ≤ 2 * z ∧ 2 * z < 256 ^ len

instance (len : Nat) (z : Int) : Decidable (Fits len z) := inferInstanceAs (Decidable (_ ∧ _))

@[simp] theorem number_nil : number [] = 0 := rfl

@[simp] theorem number_cons (b : Byte) (bs : List Byte) :
    number (b :: bs) = b.toNat + 256 * number bs := Nat.ofDigits_cons

theorem number_concat (bs : List Byte) (b : Byte) :
    number (bs ++ [b]) = number bs + 256 ^ bs.length * b.toNat := by
  unfold number
  rw [List.map_append, Nat.ofDigits_append, List.length_map, List.map_singleton,
    Nat.ofDigits_singleton]

theorem number_lt (bs : List Byte) : number bs < 256 ^ bs.length := by
  have hlt := Nat.ofDigits_lt_base_pow_length (b := 256) (l := bs.map BitVec.toNat) (by decide)
    (by
      intro n hn
      obtain ⟨b, -, rfl⟩ := List.mem_map.mp hn
      exact b.isLt)
  rwa [List.length_map] at hlt

theorem digits_succ (len n : Nat) :
    digits (len + 1) n = BitVec.ofNat 8 n :: digits len (n / 256) := by
  have hdigit : ∀ i, digit n (i + 1) = digit (n / 256) i := by
    intro i
    unfold digit
    rw [Nat.div_div_eq_div_mul, Nat.pow_succ, Nat.mul_comm]
  have hlow : digit n 0 = BitVec.ofNat 8 n := by
    unfold digit
    rw [Nat.pow_zero, Nat.div_one]
  unfold digits
  rw [List.range_succ_eq_map, List.map_cons, List.map_map, hlow]
  exact congrArg _ (List.map_congr_left fun i _ => hdigit i)

/-- The bytes of a number are read off it again, whatever is added above them. -/
theorem digits_number_add (bs : List Byte) (k : Nat) :
    digits bs.length (number bs + 256 ^ bs.length * k) = bs := by
  induction bs with
  | nil => rfl
  | cons b bs ih =>
    have hb := b.isLt
    have hshift : number (b :: bs) + 256 ^ (bs.length + 1) * k =
        b.toNat + 256 * (number bs + 256 ^ bs.length * k) := by
      rw [number_cons, Nat.pow_succ']
      ring
    have hlow : BitVec.ofNat 8 (b.toNat + 256 * (number bs + 256 ^ bs.length * k)) = b := by
      apply BitVec.eq_of_toNat_eq
      rw [BitVec.toNat_ofNat]
      omega
    have hrest : (b.toNat + 256 * (number bs + 256 ^ bs.length * k)) / 256 =
        number bs + 256 ^ bs.length * k := by omega
    rw [List.length_cons, hshift, digits_succ, hlow, hrest, ih]

/-- The bytes of a number are read off it again. -/
theorem digits_number (bs : List Byte) : digits bs.length (number bs) = bs := by
  have hdigits := digits_number_add bs 0
  rwa [Nat.mul_zero, Nat.add_zero] at hdigits

/-! ### Two's complement -/

/-- A power of 256 other than one is even. -/
theorem exists_two_mul_eq_pow {bs : List Byte} (h : bs ≠ []) :
    ∃ half : Nat, 256 ^ bs.length = 2 * half := by
  cases bs with
  | nil => exact absurd rfl h
  | cons b bs =>
    refine ⟨128 * 256 ^ bs.length, ?_⟩
    rw [List.length_cons, Nat.pow_succ]
    ring

theorem signed_singleton (b : Byte) : signed [b] = b.toInt := by
  rw [BitVec.toInt_eq_toNat_cond]
  simp [signed]

/-- The lowest byte of a longer number has no sign. -/
theorem signed_cons (b : Byte) {bs : List Byte} (h : bs ≠ []) :
    signed (b :: bs) = b.toNat + 256 * signed bs := by
  have hb := b.isLt
  obtain ⟨half, hhalf⟩ := exists_two_mul_eq_pow h
  have hpow : (256 : Int) ^ bs.length = 2 * half := by exact_mod_cast hhalf
  have hlow : 2 * (b.toNat + 256 * number bs) < 256 * (2 * half) ↔ 2 * number bs < 2 * half := by
    omega
  simp only [signed, number_cons, List.length_cons, Nat.pow_succ', hhalf, Int.pow_succ', hpow,
    hlow]
  split
  · push_cast
    ring
  · push_cast
    ring

/-- To have room for one more byte is to have room for the rest without it. -/
theorem fits_cons_iff {bs : List Byte} (h : bs ≠ []) {v : Nat} (hv : v < 256) (z : Int) :
    Fits (bs.length + 1) (v + 256 * z) ↔ Fits bs.length z := by
  obtain ⟨half, hhalf⟩ := exists_two_mul_eq_pow h
  have hpow : (256 : Int) ^ bs.length = 2 * half := by exact_mod_cast hhalf
  unfold Fits
  rw [Int.pow_succ', hpow]
  omega

/-! ### Complements -/

theorem number_map_complement (bs : List Byte) :
    number (bs.map (255 - ·)) + number bs + 1 = 256 ^ bs.length := by
  induction bs with
  | nil => rfl
  | cons b bs ih =>
    have hb := b.isLt
    have hcomplement := toNat_complement b
    rw [List.map_cons, number_cons, number_cons, List.length_cons, Nat.pow_succ', ← ih]
    omega

theorem signed_map_complement {bs : List Byte} (h : bs ≠ []) :
    signed (bs.map (255 - ·)) = -1 - signed bs := by
  obtain ⟨half, hhalf⟩ := exists_two_mul_eq_pow h
  have hpow : (256 : Int) ^ bs.length = 2 * half := by exact_mod_cast hhalf
  have hsum := number_map_complement bs
  simp only [signed, List.length_map, hpow]
  rw [hhalf] at hsum ⊢
  split <;> split <;> omega

/-! ### Arithmetic byte by byte -/

/-- The results of an arithmetic unit at each byte of two numbers, lowest byte first. The carry
goes from each byte to the next. -/
def chain (unit : Byte → Byte → Bool → ArithmeticResult) :
    List Byte → List Byte → Bool → List ArithmeticResult
  | a :: as, b :: bs, c => unit a b c :: chain unit as bs (unit a b c).carry
  | _, _, _ => []

/-- The value that the last of a list of results has in some respect, or another if there is
none. -/
def lastOf {α : Type} (f : ArithmeticResult → α) (x : α) (rs : List ArithmeticResult) : α :=
  rs.foldl (fun _ r => f r) x

@[simp] theorem lastOf_cons {α : Type} (f : ArithmeticResult → α) (x : α) (r : ArithmeticResult)
    (rs : List ArithmeticResult) : lastOf f x (r :: rs) = lastOf f (f r) rs := rfl

@[simp] theorem lastOf_concat {α : Type} (f : ArithmeticResult → α) (x : α)
    (rs : List ArithmeticResult) (r : ArithmeticResult) : lastOf f x (rs ++ [r]) = f r := by
  simp [lastOf]

theorem lastOf_map {α β : Type} (g : α → β) (f : ArithmeticResult → α) (x : α)
    (rs : List ArithmeticResult) : lastOf (fun r => g (f r)) (g x) rs = g (lastOf f x rs) := by
  induction rs generalizing x with
  | nil => rfl
  | cons r rs ih => exact ih (f r)

/-- To subtract is to add the complement, at every byte. -/
theorem chain_subtract (as bs : List Byte) (c : Bool) :
    chain subtractWithBorrow as bs c = chain addWithCarry as (bs.map (255 - ·)) c := by
  induction as generalizing bs c with
  | nil => rfl
  | cons a as ih =>
    cases bs with
    | nil => rfl
    | cons b bs => rw [List.map_cons, chain, chain, ih, subtractWithBorrow_eq]

theorem length_chain (unit : Byte → Byte → Bool → ArithmeticResult) {as bs : List Byte}
    (h : as.length = bs.length) (c : Bool) : (chain unit as bs c).length = as.length := by
  induction as generalizing bs c with
  | nil => rfl
  | cons a as ih =>
    cases bs with
    | nil => cases h
    | cons b bs => rw [chain, List.length_cons, List.length_cons, ih (Nat.succ.inj h)]

/-- The bytes of a sum and its last carry make up the exact sum. -/
theorem number_chain_add {as bs : List Byte} (h : as.length = bs.length) (c : Bool) :
    number ((chain addWithCarry as bs c).map ArithmeticResult.value) +
        256 ^ as.length * (lastOf ArithmeticResult.carry c (chain addWithCarry as bs c)).toNat =
      number as + number bs + c.toNat := by
  induction as generalizing bs c with
  | nil =>
    cases bs with
    | nil => simp [chain, lastOf]
    | cons b bs => cases h
  | cons a as ih =>
    cases bs with
    | nil => cases h
    | cons b bs =>
      -- What is carried out of the lowest byte is carried into the rest.
      have hlow := value_add_carry a b c
      have hrest := ih (Nat.succ.inj h) (addWithCarry a b c).carry
      rw [chain, List.map_cons, number_cons, number_cons, number_cons, lastOf_cons,
        List.length_cons, Nat.pow_succ', Nat.mul_assoc]
      omega

/-- The top byte of a sum overflows when the exact sum of the two numbers in two's complement
does not fit, and its sign bit and its overflow tell together whether that sum is negative. -/
theorem exists_last_chain_add {as bs : List Byte} (h : as.length = bs.length) (hne : as ≠ [])
    (c : Bool) :
    ∃ init last, chain addWithCarry as bs c = init ++ [last] ∧
      last.overflow = decide (¬ Fits as.length (signed as + signed bs + c.toNat)) ∧
      (last.value.msb != last.overflow) = decide (signed as + signed bs + c.toNat < 0) := by
  induction as generalizing bs c with
  | nil => exact absurd rfl hne
  | cons a as ih =>
    cases bs with
    | nil => cases h
    | cons b bs =>
      have hlength : as.length = bs.length := Nat.succ.inj h
      by_cases has : as = []
      · -- One byte is left, and its range is the signed range of a byte.
        subst has
        obtain rfl : bs = [] := List.length_eq_zero_iff.mp hlength.symm
        refine ⟨[], addWithCarry a b c, rfl, ?_, ?_⟩
        · rw [overflow_addWithCarry, signed_singleton, signed_singleton, decide_eq_decide]
          simp only [Fits, List.length_cons, List.length_nil]
          omega
        · rw [sign_addWithCarry, signed_singleton, signed_singleton]
      · have hbs : bs ≠ [] := by
          rintro rfl
          exact has (List.length_eq_zero_iff.mp hlength)
        obtain ⟨init, last, hchain, hoverflow, hsign⟩ := ih hlength has (addWithCarry a b c).carry
        have hlow := value_add_carry a b c
        have hvalue := (addWithCarry a b c).value.isLt
        have hexact : signed (a :: as) + signed (b :: bs) + c.toNat =
            ((addWithCarry a b c).value.toNat : Int) +
              256 * (signed as + signed bs + (addWithCarry a b c).carry.toNat) := by
          rw [signed_cons a has, signed_cons b hbs]
          omega
        refine ⟨addWithCarry a b c :: init, last, ?_, ?_, ?_⟩
        · rw [chain, hchain, List.cons_append]
        · rw [hoverflow, hexact, List.length_cons, decide_eq_decide, fits_cons_iff has hvalue]
        · rw [hsign, hexact, decide_eq_decide]
          omega

/-! ### Sums and differences -/

/-- The bytes of a sum are the lowest bytes of the exact sum. -/
theorem map_value_chain_add {as bs : List Byte} (h : as.length = bs.length) (c : Bool) :
    (chain addWithCarry as bs c).map ArithmeticResult.value =
      digits as.length (number as + number bs + c.toNat) := by
  have hdigits := digits_number_add ((chain addWithCarry as bs c).map ArithmeticResult.value)
    (lastOf ArithmeticResult.carry c (chain addWithCarry as bs c)).toNat
  rw [List.length_map, length_chain _ h, number_chain_add h] at hdigits
  exact hdigits.symm

/-- The last carry of a sum tells that the exact sum does not fit. -/
theorem carry_chain_add {as bs : List Byte} (h : as.length = bs.length) (c : Bool) :
    lastOf ArithmeticResult.carry c (chain addWithCarry as bs c) =
      decide (256 ^ as.length ≤ number as + number bs + c.toNat) := by
  have hexact := number_chain_add h c
  have hlow := number_lt ((chain addWithCarry as bs c).map ArithmeticResult.value)
  rw [List.length_map, length_chain _ h] at hlow
  cases hcarry : lastOf ArithmeticResult.carry c (chain addWithCarry as bs c) with
  | false =>
    rw [hcarry, Bool.toNat_false] at hexact
    rw [eq_comm, decide_eq_false_iff_not]
    omega
  | true =>
    rw [hcarry, Bool.toNat_true] at hexact
    rw [eq_comm, decide_eq_true_iff]
    omega

/-- The bytes of a difference and its last carry make up the exact difference. A missing borrow
counts as nothing, and a borrow takes a power of 256 away. -/
theorem number_chain_subtract {as bs : List Byte} (h : as.length = bs.length) :
    (number as : Int) - number bs =
      (number ((chain subtractWithBorrow as bs true).map ArithmeticResult.value) : Int) +
        256 ^ as.length *
          ((lastOf ArithmeticResult.carry true
            (chain subtractWithBorrow as bs true)).toNat - 1) := by
  have hlength : as.length = (bs.map (255 - ·)).length := by rw [List.length_map, h]
  have hcomplement := number_map_complement bs
  rw [← h] at hcomplement
  have hexact := number_chain_add hlength true
  rw [← chain_subtract, Bool.toNat_true] at hexact
  have hpow : (256 : Int) ^ as.length = ((256 ^ as.length : Nat) : Int) := by norm_cast
  cases hcarry : lastOf ArithmeticResult.carry true (chain subtractWithBorrow as bs true) with
  | false =>
    rw [hcarry, Bool.toNat_false] at hexact
    rw [Bool.toNat_false, hpow]
    omega
  | true =>
    rw [hcarry, Bool.toNat_true] at hexact
    rw [Bool.toNat_true, hpow]
    omega

/-- The bytes of a difference are those of the exact difference modulo a power of 256. -/
theorem map_value_chain_subtract {as bs : List Byte} (h : as.length = bs.length) :
    (chain subtractWithBorrow as bs true).map ArithmeticResult.value =
      digits as.length (((number as : Int) - number bs) % 256 ^ as.length).toNat := by
  have hlength :
      ((chain subtractWithBorrow as bs true).map ArithmeticResult.value).length = as.length := by
    rw [List.length_map, length_chain _ h]
  have hlow := number_lt ((chain subtractWithBorrow as bs true).map ArithmeticResult.value)
  have hdigits := digits_number
    ((chain subtractWithBorrow as bs true).map ArithmeticResult.value)
  rw [hlength] at hlow hdigits
  have hpow : (256 : Int) ^ as.length = ((256 ^ as.length : Nat) : Int) := by norm_cast
  rw [number_chain_subtract h, Int.add_mul_emod_self_left, hpow]
  rw [Int.emod_eq_of_lt (Int.natCast_nonneg _) (Int.ofNat_lt.mpr hlow), Int.toNat_natCast]
  exact hdigits.symm

/-- The last carry of a difference tells that nothing was borrowed. -/
theorem carry_chain_subtract {as bs : List Byte} (h : as.length = bs.length) :
    lastOf ArithmeticResult.carry true (chain subtractWithBorrow as bs true) =
      decide (number bs ≤ number as) := by
  have hexact := number_chain_subtract h
  have hlow := number_lt ((chain subtractWithBorrow as bs true).map ArithmeticResult.value)
  rw [List.length_map, length_chain _ h] at hlow
  have hpow : (256 : Int) ^ as.length = ((256 ^ as.length : Nat) : Int) := by norm_cast
  rw [hpow] at hexact
  cases hcarry : lastOf ArithmeticResult.carry true (chain subtractWithBorrow as bs true) with
  | false =>
    rw [hcarry, Bool.toNat_false] at hexact
    rw [eq_comm, decide_eq_false_iff_not]
    omega
  | true =>
    rw [hcarry, Bool.toNat_true] at hexact
    rw [eq_comm, decide_eq_true_iff]
    omega

/-- The top byte of a difference overflows when the exact difference of the two numbers in two's
complement does not fit, and its sign bit and its overflow tell together whether the first
number is the smaller one. -/
theorem exists_last_chain_subtract {as bs : List Byte} (h : as.length = bs.length)
    (hne : as ≠ []) :
    ∃ init last, chain subtractWithBorrow as bs true = init ++ [last] ∧
      last.overflow = decide (¬ Fits as.length (signed as - signed bs)) ∧
      (last.value.msb != last.overflow) = decide (signed as < signed bs) := by
  have hbs : bs ≠ [] := by
    rintro rfl
    exact hne (List.length_eq_zero_iff.mp h)
  have hlength : as.length = (bs.map (255 - ·)).length := by rw [List.length_map, h]
  obtain ⟨init, last, hchain, hoverflow, hsign⟩ := exists_last_chain_add hlength hne true
  have hexact : signed as + signed (bs.map (255 - ·)) + true.toNat = signed as - signed bs := by
    rw [signed_map_complement hbs, Bool.toNat_true]
    omega
  rw [hexact] at hoverflow hsign
  refine ⟨init, last, by rw [chain_subtract, hchain], hoverflow, ?_⟩
  rw [hsign, decide_eq_decide]
  omega

/-! ### Shifts byte by byte -/

/-- The bytes of a number shifted by one place, in the order in which they are shifted. The carry
goes from each byte to the next. -/
def longShift (d : Direction) : List Byte → Bool → List Byte
  | [], _ => []
  | b :: bs, c => (shift d b c).value :: longShift d bs (shift d b c).carry

/-- The bit that leaves the last byte. -/
def longShiftCarry (d : Direction) : List Byte → Bool → Bool
  | [], c => c
  | b :: bs, c => longShiftCarry d bs (shift d b c).carry

theorem length_longShift (d : Direction) (bs : List Byte) (c : Bool) :
    (longShift d bs c).length = bs.length := by
  induction bs generalizing c with
  | nil => rfl
  | cons b bs ih => rw [longShift, List.length_cons, List.length_cons, ih]

/-- Shifted to the left from the lowest byte up, the bytes and the bit that leaves make up the
doubled number. -/
theorem number_longShift_left (bs : List Byte) (c : Bool) :
    number (longShift .left bs c) + 256 ^ bs.length * (longShiftCarry .left bs c).toNat =
      2 * number bs + c.toNat := by
  induction bs generalizing c with
  | nil => simp [longShift, longShiftCarry]
  | cons b bs ih =>
    have hlow := value_add_carry_shift_left b c
    have hrest := ih (shift .left b c).carry
    rw [longShift, longShiftCarry, number_cons, number_cons, List.length_cons, Nat.pow_succ',
      Nat.mul_assoc]
    omega

/-- Shifted to the right from the top byte down, a number and the bit that enters above it are
twice what remains, and the bit that leaves. -/
theorem number_longShift_right (bs : List Byte) (c : Bool) :
    2 * number (longShift .right bs c).reverse + (longShiftCarry .right bs c).toNat =
      256 ^ bs.length * c.toNat + number bs.reverse := by
  induction bs generalizing c with
  | nil => simp [longShift, longShiftCarry]
  | cons b bs ih =>
    have htop := value_add_carry_shift_right b c
    have hrest := ih (shift .right b c).carry
    rw [longShift, longShiftCarry, List.reverse_cons, List.reverse_cons, number_concat,
      number_concat, List.length_reverse, List.length_reverse, length_longShift, List.length_cons,
      Nat.pow_succ]
    calc 2 * (number (longShift .right bs (shift .right b c).carry).reverse +
            256 ^ bs.length * (shift .right b c).value.toNat) +
          (longShiftCarry .right bs (shift .right b c).carry).toNat
        = (2 * number (longShift .right bs (shift .right b c).carry).reverse +
            (longShiftCarry .right bs (shift .right b c).carry).toNat) +
          256 ^ bs.length * (2 * (shift .right b c).value.toNat) := by ring
      _ = number bs.reverse + 256 ^ bs.length *
            (2 * (shift .right b c).value.toNat + (shift .right b c).carry.toNat) := by
          rw [hrest]
          ring
      _ = 256 ^ bs.length * 256 * c.toNat +
            (number bs.reverse + 256 ^ bs.length * b.toNat) := by
          rw [htop]
          ring

/-- The doubled number, as far as its bytes have room for it. -/
theorem longShift_left (bs : List Byte) :
    longShift .left bs false = digits bs.length (2 * number bs % 256 ^ bs.length) := by
  have hexact := number_longShift_left bs false
  have hlow := number_lt (longShift .left bs false)
  have hdigits := digits_number (longShift .left bs false)
  rw [length_longShift] at hlow hdigits
  rw [Bool.toNat_false, Nat.add_zero] at hexact
  rw [← hexact, Nat.add_mul_mod_self_left, Nat.mod_eq_of_lt hlow]
  exact hdigits.symm

/-- The bit that leaves at the top is the top bit of the number. No bytes have no such bit, and
the carry stays clear. -/
theorem longShiftCarry_left (bs : List Byte) :
    longShiftCarry .left bs false = (number bs).testBit (8 * bs.length - 1) := by
  cases hbs : bs with
  | nil => rfl
  | cons b rest =>
    rw [← hbs]
    have hexact := number_longShift_left bs false
    have hlow := number_lt (longShift .left bs false)
    have hbound := number_lt bs
    -- The top bit counts half of what the bytes have room for.
    have htop : 256 ^ bs.length = 2 * 2 ^ (8 * bs.length - 1) := by
      have hbits : 8 * bs.length = 8 * bs.length - 1 + 1 := by
        rw [hbs, List.length_cons]
        omega
      rw [show 256 = 2 ^ 8 from rfl, ← Nat.pow_mul, hbits, Nat.pow_succ', Nat.add_sub_cancel]
    rw [length_longShift] at hlow
    rw [Bool.toNat_false, Nat.add_zero] at hexact
    cases hcarry : longShiftCarry .left bs false with
    | false =>
      rw [hcarry, Bool.toNat_false, Nat.mul_zero, Nat.add_zero] at hexact
      exact (Nat.testBit_lt_two_pow (by omega)).symm
    | true =>
      rw [hcarry, Bool.toNat_true, Nat.mul_one] at hexact
      refine (Nat.testBit_of_two_pow_le_and_two_pow_add_one_gt (by omega) ?_).symm
      rw [Nat.pow_succ']
      omega

/-- The halved number. -/
theorem longShift_right (bs : List Byte) :
    longShift .right bs.reverse false = (digits bs.length (number bs / 2)).reverse := by
  have hexact := number_longShift_right bs.reverse false
  have hdigits := digits_number (longShift .right bs.reverse false).reverse
  have hcarry := Bool.toNat_le (longShiftCarry .right bs.reverse false)
  rw [Bool.toNat_false, Nat.mul_zero, Nat.zero_add, List.reverse_reverse] at hexact
  rw [List.length_reverse, length_longShift, List.length_reverse] at hdigits
  have hhalf : number bs / 2 = number (longShift .right bs.reverse false).reverse := by omega
  rw [hhalf, hdigits, List.reverse_reverse]

/-- The bit that leaves at the bottom is the bottom bit of the number. -/
theorem longShiftCarry_right (bs : List Byte) :
    longShiftCarry .right bs.reverse false = (number bs).testBit 0 := by
  have hexact := number_longShift_right bs.reverse false
  rw [Bool.toNat_false, Nat.mul_zero, Nat.zero_add, List.reverse_reverse] at hexact
  rw [Nat.testBit_zero]
  cases hcarry : longShiftCarry .right bs.reverse false with
  | false =>
    rw [hcarry, Bool.toNat_false] at hexact
    rw [eq_comm, decide_eq_false_iff_not]
    omega
  | true =>
    rw [hcarry, Bool.toNat_true] at hexact
    rw [eq_comm, decide_eq_true_iff]
    omega

end Byte

end TraceCheck
