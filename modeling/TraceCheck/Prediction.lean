import TraceCheck.Cells
import TraceCheck.Status

/-!
# `TraceCheck.Prediction`: what is known about the ten cells

A prediction holds, for each cell, the value it must have or the admission that it is
unknown. This module gives the one view in which registers and flags look alike
(`look`), packs the six flags into a masked status byte, and defines the three writes
that instructions share: the flags of a result, a whole status byte, and a move of the
stack pointer.
-/

set_option autoImplicit false

namespace TraceCheck

/-- What is known about each cell. -/
abbrev Prediction := Cells (Knowledge Byte) (Knowledge Bool)

namespace Cells

/-- Nothing is known. -/
def blank : Prediction := uniform .unknown .unknown

/-- What is known about a cell, a flag counting as the byte zero or one. -/
def look (p : Prediction) : Cell → Knowledge Byte
  | .register r => p.register r
  | .flag f => (p.flag f).map Byte.ofBool

/-- The six flags as a status byte with a mask of the known ones. -/
def maskedStatus (p : Prediction) : MaskedStatus :=
  { bits := statusOf fun f => p.flag f == .known true
    known := statusOf fun f => (p.flag f).isKnown }

/-- N and Z follow a result, as far as it is known. -/
def setNZ (p : Prediction) (result : Knowledge Byte) : Prediction :=
  { p with n := result.map BitVec.msb, z := result.map (· == 0) }

/-- All six flags take their values from a status byte. -/
def setStatus (p : Prediction) (status : Byte) : Prediction :=
  p.setFlags fun f => .known (f.ofStatus status)

/-- The stack pointer moves modulo 256, if it is known at all. -/
def moveStack (p : Prediction) (offset : Int) : Prediction :=
  { p with s := p.s.map (· + BitVec.ofInt 8 offset) }

/-! ### Looking at the cells -/

@[simp] theorem look_register (p : Prediction) (r : Register) :
    p.look (.register r) = p.register r := rfl

@[simp] theorem look_flag (p : Prediction) (f : Flag) :
    p.look (.flag f) = (p.flag f).map Byte.ofBool := rfl

@[simp] theorem look_blank (c : Cell) : blank.look c = .unknown := by
  cases c <;> simp [blank]

/-- Predictions that look the same in every cell are the same. -/
theorem ext_look {p q : Prediction} (h : ∀ c, p.look c = q.look c) : p = q := by
  refine ext_cells (fun r => h (.register r)) fun f => ?_
  have hf := h (.flag f)
  simp only [look_flag] at hf
  cases hp : p.flag f <;> cases hq : q.flag f <;> simp_all [Byte.ofBool_inj]

theorem look_setRegister (p : Prediction) (r : Register) (k : Knowledge Byte) (c : Cell) :
    (p.setRegister r k).look c = if c = .register r then k else p.look c := by
  cases c with
  | register q => simp [register_setRegister]
  | flag f => simp

theorem look_setFlag (p : Prediction) (f : Flag) (k : Knowledge Bool) (c : Cell) :
    (p.setFlag f k).look c = if c = .flag f then k.map Byte.ofBool else p.look c := by
  cases c with
  | register q => simp
  | flag g => by_cases hg : g = f <;> simp [flag_setFlag, hg]

/-- A packed status says about each flag what the prediction says. -/
@[simp] theorem flag_maskedStatus (p : Prediction) (f : Flag) :
    p.maskedStatus.flag f = p.flag f := by
  unfold maskedStatus MaskedStatus.flag
  cases h : p.flag f with
  | known b => cases b <;> simp [h]
  | unknown => simp [h]

/-! ### What the shared writes do to the cells -/

@[simp] theorem register_setNZ (p : Prediction) (result : Knowledge Byte) (r : Register) :
    (p.setNZ result).register r = p.register r := by
  cases r <;> rfl

theorem flag_setNZ (p : Prediction) (result : Knowledge Byte) (f : Flag) :
    (p.setNZ result).flag f =
      match f with
      | .N => result.map BitVec.msb
      | .Z => result.map (· == 0)
      | f => p.flag f := by
  cases f <;> rfl

theorem register_moveStack (p : Prediction) (offset : Int) (r : Register) :
    (p.moveStack offset).register r =
      if r = .S then p.s.map (· + BitVec.ofInt 8 offset) else p.register r := by
  cases r <;> rfl

@[simp] theorem flag_moveStack (p : Prediction) (offset : Int) (f : Flag) :
    (p.moveStack offset).flag f = p.flag f := by
  cases f <;> rfl

@[simp] theorem flag_setStatus (p : Prediction) (status : Byte) (f : Flag) :
    (p.setStatus status).flag f = .known (f.ofStatus status) := by
  simp [setStatus]

@[simp] theorem register_setStatus (p : Prediction) (status : Byte) (r : Register) :
    (p.setStatus status).register r = p.register r := by
  simp [setStatus]

end Cells

end TraceCheck
