/-!
# `TraceCheck.Knowledge`: a value that is known or unknown

A cell of the processor either provably holds one value or nothing is known about
it. `Knowledge α` says which. New knowledge is made only by `map` and `map₂`, which
compute on known inputs and give `unknown` as soon as one input is unknown, and by
`learn`, which takes an observed value where nothing was known. A computation written
with them never runs on a placeholder, and whether its result is known depends on
which inputs are known, not on their values (`isKnown_map`, `isKnown_map₂`).
-/

set_option autoImplicit false

namespace TraceCheck

/-- What is known about a value. -/
inductive Knowledge (α : Type) where
  /-- The value is exactly this one. -/
  | known (value : α)
  /-- Nothing is known about the value. -/
  | unknown
deriving DecidableEq

namespace Knowledge

variable {α β γ : Type}

instance : Inhabited (Knowledge α) := ⟨unknown⟩

/-- The known value, if there is one. -/
def toOption : Knowledge α → Option α
  | known v => some v
  | unknown => none

/-- Knows the value of a present option and nothing of an absent one. -/
def ofOption : Option α → Knowledge α
  | some v => known v
  | none => unknown

/-- Whether the value is known. -/
def isKnown : Knowledge α → Bool
  | known _ => true
  | unknown => false

/-- Whether nothing is known. -/
def isUnknown (k : Knowledge α) : Bool := !k.isKnown

/-- Computes on a known value. -/
def map (f : α → β) : Knowledge α → Knowledge β
  | known v => known (f v)
  | unknown => unknown

/-- Computes on two values when both are known. -/
def map₂ (f : α → β → γ) : Knowledge α → Knowledge β → Knowledge γ
  | known v, known w => known (f v w)
  | _, _ => unknown

/-- Keeps what is known, and otherwise takes the observed value. -/
def learn : Knowledge α → α → Knowledge α
  | known v, _ => known v
  | unknown, w => known w

/-! ### Options and knowledge are two readings of one thing -/

@[simp] theorem toOption_ofOption (o : Option α) : (ofOption o).toOption = o := by
  cases o <;> rfl

@[simp] theorem ofOption_toOption (k : Knowledge α) : ofOption k.toOption = k := by
  cases k <;> rfl

/-! ### Whether a result is known depends on which inputs are known -/

@[simp] theorem isKnown_known (v : α) : (known v).isKnown = true := rfl

@[simp] theorem isKnown_unknown : (unknown : Knowledge α).isKnown = false := rfl

@[simp] theorem isKnown_map (f : α → β) (k : Knowledge α) : (k.map f).isKnown = k.isKnown := by
  cases k <;> rfl

@[simp] theorem isKnown_map₂ (f : α → β → γ) (k : Knowledge α) (l : Knowledge β) :
    (map₂ f k l).isKnown = (k.isKnown && l.isKnown) := by
  cases k <;> cases l <;> rfl

@[simp] theorem isKnown_learn (k : Knowledge α) (v : α) : (k.learn v).isKnown = true := by
  cases k <;> rfl

/-- A computed value is unknown just when its argument is. -/
theorem map_eq_unknown_iff {f : α → β} {k : Knowledge α} : k.map f = unknown ↔ k = unknown := by
  cases k <;> simp [map]

/-- What has been learnt is known. -/
theorem learn_ne_unknown (k : Knowledge α) (v : α) : k.learn v ≠ unknown := by
  cases k <;> simp [learn]

/-! ### Equations -/

@[simp] theorem map_known (f : α → β) (v : α) : (known v).map f = known (f v) := rfl

@[simp] theorem map_unknown (f : α → β) : (unknown : Knowledge α).map f = unknown := rfl

@[simp] theorem map₂_known (f : α → β → γ) (v : α) (w : β) :
    map₂ f (known v) (known w) = known (f v w) := rfl

@[simp] theorem map₂_unknown_left (f : α → β → γ) (l : Knowledge β) :
    map₂ f unknown l = unknown := rfl

@[simp] theorem map₂_unknown_right (f : α → β → γ) (k : Knowledge α) :
    map₂ f k unknown = unknown := by
  cases k <;> rfl

@[simp] theorem map_map (g : β → γ) (f : α → β) (k : Knowledge α) :
    (k.map f).map g = k.map fun v => g (f v) := by
  cases k <;> rfl

end Knowledge

end TraceCheck
