import TraceCheck.Byte
import TraceCheck.Cell
import TraceCheck.Knowledge

/-!
# `TraceCheck.Status`: the six flags in a status byte

The processor pushes and pulls its flags as one byte, laid out `NV..DIZC` from bit 7
down. Bits 5 and 4 belong to no flag: reading ignores them and writing leaves them
clear. A status byte of which only some flags are known is a `MaskedStatus`: a byte
of values beside a byte that marks the known ones, so that an unknown flag is never
taken for a clear one.
-/

set_option autoImplicit false

namespace TraceCheck

namespace Flag

/-- The position of a flag in the status byte. -/
def bit : Flag → Nat
  | N => 7
  | V => 6
  | D => 3
  | I => 2
  | Z => 1
  | C => 0

/-- The status byte in which this flag alone is set. -/
def mask (f : Flag) : Byte := 1#8 <<< f.bit

/-- Whether a status byte has this flag set. -/
def ofStatus (f : Flag) (status : Byte) : Bool := status.getLsbD f.bit

@[simp] theorem ofStatus_zero (f : Flag) : f.ofStatus 0#8 = false := by cases f <;> rfl

@[simp] theorem ofStatus_or (f : Flag) (s t : Byte) :
    f.ofStatus (s ||| t) = (f.ofStatus s || f.ofStatus t) := by
  simp [ofStatus]

@[simp] theorem ofStatus_mask (f g : Flag) : f.ofStatus g.mask = decide (f = g) := by
  cases f <;> cases g <;> decide

end Flag

/-! ### Writing flags into a status byte -/

/-- Sets one flag of a status byte where the condition holds. -/
def markFlag (g : Flag → Bool) (status : Byte) (f : Flag) : Byte :=
  if g f then status ||| f.mask else status

/-- The status byte with the given flags and with bits 5 and 4 clear. -/
def statusOf (g : Flag → Bool) : Byte := Flag.all.foldl (markFlag g) 0#8

theorem ofStatus_markFlag (g : Flag → Bool) (status : Byte) (h f : Flag) :
    f.ofStatus (markFlag g status h) = (f.ofStatus status || (decide (f = h) && g h)) := by
  unfold markFlag
  split <;> simp_all

/-- The flags written into a status byte are the flags read from it. -/
@[simp] theorem ofStatus_statusOf (g : Flag → Bool) (f : Flag) :
    f.ofStatus (statusOf g) = g f := by
  cases f <;> simp [statusOf, Flag.all, ofStatus_markFlag]

/-! ### Status bytes of which only some flags are known -/

/-- A status byte together with a mask of its known bits. -/
@[ext] structure MaskedStatus where
  /-- The values of the flags. They count only where `known` has a one. -/
  bits : Byte
  /-- Which bits are known. -/
  known : Byte
deriving DecidableEq

namespace MaskedStatus

/-- What a masked status says about a flag. -/
def flag (m : MaskedStatus) (f : Flag) : Knowledge Bool :=
  if f.ofStatus m.known then .known (f.ofStatus m.bits) else .unknown

/-- The status byte, once all six flags are known. Bits 5 and 4 are returned as they
stand, whatever the mask says about them. -/
def status (m : MaskedStatus) : Option Byte :=
  if Flag.all.all (·.ofStatus m.known) then some m.bits else none

end MaskedStatus

end TraceCheck
