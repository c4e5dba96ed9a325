/-!
# `TraceCheck.Byte`: bytes and their two hexadecimal digits

Everything the processor moves is an eight-bit word. This module names that word,
says which byte a truth value counts as, and writes a byte as two upper-case
hexadecimal digits, high half first. The digits are a `List Char`, so that texts
built from them can be taken apart again column by column.
-/

set_option autoImplicit false

namespace TraceCheck

/-- An eight-bit word. Its arithmetic wraps modulo 256. -/
abbrev Byte := BitVec 8

namespace Byte

/-- The byte a truth value counts as: one when it holds, zero when it does not. -/
def ofBool (b : Bool) : Byte := if b then 1 else 0

/-- The upper-case hexadecimal digit of a number below sixteen. -/
def hexDigit (n : Nat) : Char := Char.ofNat (if n < 10 then 48 + n else 55 + n)

/-- The two digits of a byte, high half first. -/
def hexDigits (b : Byte) : List Char := [hexDigit (b.toNat / 16), hexDigit (b.toNat % 16)]

/-- The text of a byte. -/
def hex (b : Byte) : String := String.ofList (hexDigits b)

@[simp] theorem toList_hex (b : Byte) : (hex b).toList = hexDigits b := String.toList_ofList

/-- A truth value can be read back from the byte it counts as. -/
theorem ofBool_inj {a b : Bool} : ofBool a = ofBool b ↔ a = b := by
  cases a <;> cases b <;> decide

end Byte

end TraceCheck
