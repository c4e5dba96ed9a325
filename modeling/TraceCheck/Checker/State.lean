import TraceCheck.Prediction

/-!
# `TraceCheck.Checker.State`: a prediction with its fault

Beside the prediction, a checker keeps one bit: whether a mismatch has been found that
no one has been told of yet. Both together are what a snapshot captures and what the
state line shows. The line has a fixed layout: ten fields `name=value` in the order of
the cells, separated by single spaces, with two digits for a register and one for a
flag, question marks for what is unknown, and an annotation behind them while a fault
is pending.
-/

set_option autoImplicit false

namespace TraceCheck

/-- What is known, and whether a mismatch is still to be reported. -/
@[ext] structure State where
  /-- What is known about the cells. -/
  cells : Prediction
  /-- Whether a mismatch is pending. -/
  fault : Bool
deriving DecidableEq

namespace State

/-- Nothing is known and nothing is pending. -/
def blank : State := { cells := Cells.blank, fault := false }

/-- The state once its fault has been reported. -/
def clearFault (s : State) : State := { s with fault := false }

/-- The value of a register as two characters. -/
def registerChars : Knowledge Byte → List Char
  | .known b => Byte.hexDigits b
  | .unknown => ['?', '?']

/-- The value of a flag as one character. -/
def flagChars : Knowledge Bool → List Char
  | .known b => [if b then '1' else '0']
  | .unknown => ['?']

/-- The value of a cell as the state line shows it. -/
def cellChars (p : Prediction) : Cell → List Char
  | .register r => registerChars (p.register r)
  | .flag f => flagChars (p.flag f)

/-- The field of a cell: its name, an equals sign and its value. -/
def field (p : Prediction) (c : Cell) : List Char := c.name.toList ++ '=' :: cellChars p c

/-- What follows the fields while a fault is pending. -/
def faultAnnotation : String := "prediction failed"

/-- The characters of the state line. -/
def lineChars (s : State) : List Char :=
  [' '].intercalate (Cell.all.map (field s.cells)) ++
    if s.fault then ' ' :: faultAnnotation.toList else []

/-- The state line. -/
def line (s : State) : String := String.ofList s.lineChars

@[simp] theorem toList_line (s : State) : s.line.toList = s.lineChars := String.toList_ofList

end State

end TraceCheck
