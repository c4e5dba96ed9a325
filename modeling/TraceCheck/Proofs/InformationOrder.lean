import Mathlib.Order.Defs.PartialOrder
import TraceCheck.Proofs.Agreement

/-!
# `TraceCheck.Proofs.InformationOrder`: knowing more

One piece of knowledge is below another when everything that it knows, the other knows
too. Nothing is below `unknown` but `unknown` itself, and two known values are comparable
only when they are equal. Predictions are ordered cell by cell.

New knowledge is made by `map`, `map₂` and `learn`. The first two are monotone as they
stand. Learning is not: from the outcome of a branch somebody who knew nothing learns the
flag, while somebody who knew the opposite learns nothing. It is monotone where the
better-informed side does not contradict what is observed (`learn_le_learn`).
-/

set_option autoImplicit false

namespace TraceCheck

namespace Knowledge

variable {α β γ : Type}

/-- What is known on the left is known on the right. -/
instance : PartialOrder (Knowledge α) where
  le k l := ∀ v, k = known v → l = known v
  le_refl _ _ h := h
  le_trans _ _ _ hkl hlm v h := hlm v (hkl v h)
  le_antisymm k l hkl hlk := by
    cases k with
    | known v => exact (hkl v rfl).symm
    | unknown =>
      cases l with
      | known v => exact hlk v rfl
      | unknown => rfl

theorem unknown_le (k : Knowledge α) : unknown ≤ k := by
  intro v h
  cases h

theorem known_le_iff {v : α} {k : Knowledge α} : known v ≤ k ↔ k = known v := by
  constructor
  · intro h
    exact h v rfl
  · rintro rfl
    exact le_refl _

theorem map_le_map {k l : Knowledge α} (h : k ≤ l) (f : α → β) : k.map f ≤ l.map f := by
  cases k with
  | unknown => exact unknown_le _
  | known v =>
    rw [known_le_iff.mp h]

theorem map₂_le_map₂ {k k' : Knowledge α} {l l' : Knowledge β} (hk : k ≤ k') (hl : l ≤ l')
    (f : α → β → γ) : map₂ f k l ≤ map₂ f k' l' := by
  cases k with
  | unknown => exact unknown_le _
  | known v =>
    cases l with
    | unknown => exact unknown_le _
    | known w => rw [known_le_iff.mp hk, known_le_iff.mp hl]

/-- Who knows less allows more. -/
theorem Allows.anti {k l : Knowledge α} {v : α} (h : l.Allows v) (hkl : k ≤ l) : k.Allows v := by
  intro u hu
  exact h u (hkl u hu)

theorem learn_le_learn {k l : Knowledge α} {v : α} (hkl : k ≤ l) (h : l.Allows v) :
    k.learn v ≤ l.learn v := by
  cases k with
  | known u =>
    rw [known_le_iff.mp hkl]
  | unknown =>
    show known v ≤ l.learn v
    rw [known_le_iff]
    cases l with
    | known u => exact congrArg known (allows_known.mp h)
    | unknown => rfl

end Knowledge

namespace Cells

variable {p q : Prediction}

/-- Every cell that is known on the left is known on the right, with the same value. -/
instance : PartialOrder Prediction where
  le p q := ∀ c, p.look c ≤ q.look c
  le_refl p c := le_refl (p.look c)
  le_trans _ _ _ hpq hqr c := le_trans (hpq c) (hqr c)
  le_antisymm _ _ hpq hqp := ext_look fun c => le_antisymm (hpq c) (hqp c)

theorem blank_le (p : Prediction) : blank ≤ p := by
  intro c
  rw [look_blank]
  exact Knowledge.unknown_le _

theorem register_le (h : p ≤ q) (r : Register) : p.register r ≤ q.register r :=
  h (.register r)

theorem flag_le (h : p ≤ q) (f : Flag) : p.flag f ≤ q.flag f := by
  intro b hb
  have hlook : q.look (.flag f) = .known (Byte.ofBool b) := by
    refine h (.flag f) _ ?_
    rw [look_flag, hb]
    rfl
  rw [look_flag] at hlook
  cases hq : q.flag f with
  | known b' =>
    rw [hq] at hlook
    rw [Byte.ofBool_inj.mp (Knowledge.known.inj hlook)]
  | unknown =>
    rw [hq] at hlook
    cases hlook

end Cells

end TraceCheck
