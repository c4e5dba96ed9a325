import TraceCheck.Knowledge

/-!
# `TraceCheck.Settings`: the processor traced and the trust in binary arithmetic

Two choices fix how a checker predicts. The processor family decides whether entering
an interrupt handler clears the decimal flag. The decimal rule decides when addition
and subtraction may be computed in binary: decimal results are not modeled, so the
cautious rule gives up unless the decimal flag is known to be clear.
-/

set_option autoImplicit false

namespace TraceCheck

/-- The processor family. -/
inductive Variant where
  /-- 65C02: interrupts clear the decimal flag. -/
  | cmos
  /-- NMOS 6502: interrupts leave the decimal flag as pushed. -/
  | nmos
deriving DecidableEq

/-- Whether entering an interrupt handler clears the decimal flag. -/
def Variant.clearsDecimal : Variant → Bool
  | .cmos => true
  | .nmos => false

/-- How addition and subtraction treat the decimal flag. -/
inductive DecimalRule where
  /-- Results are binary, whatever the decimal flag says. -/
  | assumeBinary
  /-- Results are binary while the decimal flag is known to be clear, and unknown
  otherwise. -/
  | unknownWhenDecimal
deriving DecidableEq

/-- Whether a rule lets arithmetic be computed in binary, given what is known about
the decimal flag. -/
def DecimalRule.trusts : DecimalRule → Knowledge Bool → Bool
  | .assumeBinary, _ => true
  | .unknownWhenDecimal, d => d = .known false

/-- How a checker predicts. -/
structure Settings where
  /-- The processor family traced. -/
  variant : Variant := .cmos
  /-- The treatment of the decimal flag. -/
  decimal : DecimalRule := .assumeBinary
deriving DecidableEq

end TraceCheck
