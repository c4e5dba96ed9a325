import TraceCheck.Byte

/-!
# `TraceCheck.Proofs.Hexadecimal`: reading hexadecimal digits

A byte is written as two upper-case digits, the high half first. This module reads digits
again. `digitValue?` looks a digit up in the list of the sixteen, and `readHex?` puts the
values together to one number, the first digit weighing most.

* `readHex?_hexDigits`: the digits of a byte are read as that byte, so two bytes with the same
  digits are the same (`hexDigits_inj`).
* `readHex?_word`: the digits of two bytes in a row are read as a number of sixteen bits, of
  which the first byte is the high half.
-/

set_option autoImplicit false

namespace TraceCheck

namespace Byte

/-- The value of an upper-case hexadecimal digit. -/
def digitValue? (c : Char) : Option Nat := "0123456789ABCDEF".toList.idxOf? c

/-- Whether a character is an upper-case hexadecimal digit. -/
def isHexDigit (c : Char) : Bool := (digitValue? c).isSome

/-- The number that a text of hexadecimal digits stands for, if it has no other characters. -/
def readHex? (digits : List Char) : Option Nat :=
  digits.foldlM (fun n c => (digitValue? c).map (16 * n + ·)) 0

/-! ### Single digits -/

theorem digitValue?_hexDigit : ∀ n, n < 16 → digitValue? (hexDigit n) = some n := by decide

theorem isHexDigit_hexDigit {n : Nat} (h : n < 16) : isHexDigit (hexDigit n) = true := by
  rw [isHexDigit, digitValue?_hexDigit n h]
  rfl

/-- The two digits of a byte are the digits of two numbers below sixteen. -/
theorem exists_hexDigits (b : Byte) :
    ∃ high low, high < 16 ∧ low < 16 ∧ b.toNat = 16 * high + low ∧
      hexDigits b = [hexDigit high, hexDigit low] := by
  have hb := b.isLt
  exact ⟨b.toNat / 16, b.toNat % 16, by omega, by omega, by omega, rfl⟩

@[simp] theorem length_hexDigits (b : Byte) : (hexDigits b).length = 2 := rfl

theorem isHexDigit_of_mem_hexDigits {b : Byte} {c : Char} (h : c ∈ hexDigits b) :
    isHexDigit c = true := by
  obtain ⟨high, low, hhigh, hlow, -, hdigits⟩ := exists_hexDigits b
  simp only [hdigits, List.mem_cons, List.not_mem_nil, or_false] at h
  rcases h with rfl | rfl
  · exact isHexDigit_hexDigit hhigh
  · exact isHexDigit_hexDigit hlow

/-! ### Numbers -/

/-- Reading goes on from the number read so far. -/
theorem foldlM_hexDigits (b : Byte) (n : Nat) :
    (hexDigits b).foldlM (fun n c => (digitValue? c).map (16 * n + ·)) n =
      some (256 * n + b.toNat) := by
  obtain ⟨high, low, hhigh, hlow, hb, hdigits⟩ := exists_hexDigits b
  have hvalue : 16 * (16 * n + high) + low = 256 * n + b.toNat := by omega
  simp [hdigits, digitValue?_hexDigit high hhigh, digitValue?_hexDigit low hlow, hvalue]

/-- The digits of a byte are read as the byte. -/
theorem readHex?_hexDigits (b : Byte) : readHex? (hexDigits b) = some b.toNat := by
  have h := foldlM_hexDigits b 0
  rwa [Nat.mul_zero, Nat.zero_add] at h

/-- The digits of two bytes are read as a word with the first byte on top. -/
theorem readHex?_word (high low : Byte) :
    readHex? (hexDigits high ++ hexDigits low) = some (low.toNat + 256 * high.toNat) := by
  have hhigh : (hexDigits high).foldlM _ 0 = some high.toNat := readHex?_hexDigits high
  rw [readHex?, List.foldlM_append, hhigh, Option.bind_eq_bind, Option.bind_some,
    foldlM_hexDigits, Nat.add_comm]

/-- A character with a value is the digit of that value. -/
theorem hexDigit_of_digitValue? {c : Char} {n : Nat} (h : digitValue? c = some n) :
    n < 16 ∧ hexDigit n = c := by
  obtain ⟨hn, rfl, -⟩ := List.idxOf?_eq_some_iff.mp h
  have hdigit : ∀ (i : Nat) (hi : i < "0123456789ABCDEF".toList.length),
      i < 16 ∧ hexDigit i = "0123456789ABCDEF".toList[i] := by decide
  exact hdigit n hn

/-- Two characters that are read as a byte are its digits. -/
theorem eq_hexDigits_of_readHex? {digits : List Char} {b : Byte} (hlength : digits.length = 2)
    (h : readHex? digits = some b.toNat) : digits = hexDigits b := by
  match digits, hlength with
  | [c, d], _ =>
    simp only [readHex?, List.foldlM_cons, List.foldlM_nil, Option.bind_eq_bind,
      Option.bind_eq_some_iff, Option.map_eq_some_iff, Option.pure_def, Option.some.injEq] at h
    obtain ⟨_, ⟨high, hc, rfl⟩, _, ⟨low, hd, rfl⟩, hb⟩ := h
    obtain ⟨hhigh, rfl⟩ := hexDigit_of_digitValue? hc
    obtain ⟨hlow, rfl⟩ := hexDigit_of_digitValue? hd
    have hquotient : b.toNat / 16 = high := by omega
    have hremainder : b.toNat % 16 = low := by omega
    rw [hexDigits, hquotient, hremainder]

/-- Bytes with the same digits are the same. -/
theorem hexDigits_inj {a b : Byte} : hexDigits a = hexDigits b ↔ a = b := by
  constructor
  · intro h
    have hread := congrArg readHex? h
    rw [readHex?_hexDigits, readHex?_hexDigits] at hread
    exact BitVec.eq_of_toNat_eq (Option.some.inj hread)
  · rintro rfl
    rfl

end Byte

end TraceCheck
