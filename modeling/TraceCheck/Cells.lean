import TraceCheck.Cell

/-!
# `TraceCheck.Cells`: one value for each cell

`Cells β φ` holds a `β` for each register and a `φ` for each flag. What a checker
predicts is `Cells` of knowledge; a concrete processor state is `Cells` of bytes and
truth values. Both are read and written through the same functions, and the lemmas
below say once what each write does to each read.
-/

set_option autoImplicit false

namespace TraceCheck

/-- A value for each register and one for each flag. -/
@[ext] structure Cells (β φ : Type) where
  /-- Accumulator. -/
  a : β
  /-- X index register. -/
  x : β
  /-- Y index register. -/
  y : β
  /-- Stack pointer. -/
  s : β
  /-- Negative. -/
  n : φ
  /-- Overflow. -/
  v : φ
  /-- Decimal mode. -/
  d : φ
  /-- Interrupt disable. -/
  i : φ
  /-- Zero. -/
  z : φ
  /-- Carry. -/
  c : φ
deriving DecidableEq

namespace Cells

variable {β φ : Type}

/-- The same value in every register and the same in every flag. -/
def uniform (b : β) (f : φ) : Cells β φ := ⟨b, b, b, b, f, f, f, f, f, f⟩

/-- The value of a register. -/
def register (k : Cells β φ) : Register → β
  | .A => k.a
  | .X => k.x
  | .Y => k.y
  | .S => k.s

/-- The value of a flag. -/
def flag (k : Cells β φ) : Flag → φ
  | .N => k.n
  | .V => k.v
  | .D => k.d
  | .I => k.i
  | .Z => k.z
  | .C => k.c

/-- Writes one register. -/
def setRegister (k : Cells β φ) (r : Register) (b : β) : Cells β φ :=
  match r with
  | .A => { k with a := b }
  | .X => { k with x := b }
  | .Y => { k with y := b }
  | .S => { k with s := b }

/-- Writes one flag. -/
def setFlag (k : Cells β φ) (f : Flag) (b : φ) : Cells β φ :=
  match f with
  | .N => { k with n := b }
  | .V => { k with v := b }
  | .D => { k with d := b }
  | .I => { k with i := b }
  | .Z => { k with z := b }
  | .C => { k with c := b }

/-- Writes all six flags. -/
def setFlags (k : Cells β φ) (g : Flag → φ) : Cells β φ :=
  { k with n := g .N, v := g .V, d := g .D, i := g .I, z := g .Z, c := g .C }

/-! ### Two collections are equal when they agree on every cell -/

/-- Registers and flags determine the whole. -/
theorem ext_cells {k l : Cells β φ} (hr : ∀ r, k.register r = l.register r)
    (hf : ∀ f, k.flag f = l.flag f) : k = l :=
  Cells.ext (hr .A) (hr .X) (hr .Y) (hr .S) (hf .N) (hf .V) (hf .D) (hf .I) (hf .Z) (hf .C)

/-! ### What a write does to a read -/

@[simp] theorem register_uniform (b : β) (f : φ) (r : Register) :
    (uniform b f).register r = b := by
  cases r <;> rfl

@[simp] theorem flag_uniform (b : β) (f : φ) (g : Flag) : (uniform b f).flag g = f := by
  cases g <;> rfl

theorem register_setRegister (k : Cells β φ) (r q : Register) (b : β) :
    (k.setRegister r b).register q = if q = r then b else k.register q := by
  cases r <;> cases q <;> rfl

@[simp] theorem flag_setRegister (k : Cells β φ) (r : Register) (b : β) (f : Flag) :
    (k.setRegister r b).flag f = k.flag f := by
  cases r <;> cases f <;> rfl

theorem flag_setFlag (k : Cells β φ) (f g : Flag) (b : φ) :
    (k.setFlag f b).flag g = if g = f then b else k.flag g := by
  cases f <;> cases g <;> rfl

@[simp] theorem register_setFlag (k : Cells β φ) (f : Flag) (b : φ) (r : Register) :
    (k.setFlag f b).register r = k.register r := by
  cases f <;> cases r <;> rfl

/-- To write all six flags is to write them one after the other. -/
theorem setFlags_eq (k : Cells β φ) (g : Flag → φ) :
    k.setFlags g =
      (((((k.setFlag .C (g .C)).setFlag .Z (g .Z)).setFlag .I (g .I)).setFlag .D (g .D)).setFlag
        .V (g .V)).setFlag .N (g .N) := by
  cases k
  rfl

@[simp] theorem flag_setFlags (k : Cells β φ) (g : Flag → φ) (f : Flag) :
    (k.setFlags g).flag f = g f := by
  cases f <;> rfl

@[simp] theorem register_setFlags (k : Cells β φ) (g : Flag → φ) (r : Register) :
    (k.setFlags g).register r = k.register r := by
  cases r <;> rfl

end Cells

end TraceCheck
