import TraceCheck.Proofs.DataFlow
import TraceCheck.Proofs.ExactArithmetic
import TraceCheck.Proofs.Processor

/-!
# `TraceCheck.Proofs.Agreement`: a prediction and the processor it is about

A prediction agrees with a processor at a cell when it knows nothing about the cell or
knows the value that the processor has there. `Operation.agreesAt_effect_of_reads` says
what a step does to agreement, cell by cell: a written cell agrees afterwards when every
cell that its value depends on agreed before. It makes no assumption about any other
cell, so it serves runs that agree everywhere and runs that have lost some cells alike.

The proof meets in the middle. `Operation.look_effect` computes what is known of a cell
from the cell's source. `Source.Gives` says what the same source gives in a concrete
state, and `Operation.yields_of_steps` shows that a step of the processor puts such a
value into each cell: here the arithmetic of the checker meets the numbers of the
processor. That known values are then the given ones is one case for each kind of source
(`Source.allows_value`).
-/

set_option autoImplicit false

namespace TraceCheck

/-! ### Agreement -/

namespace Knowledge

variable {α β γ : Type}

/-- The value may be this one, as far as is known. -/
def Allows (k : Knowledge α) (v : α) : Prop := ∀ u, k = known u → u = v

@[simp] theorem allows_known {u v : α} : (known u).Allows v ↔ u = v := by
  constructor
  · intro h
    exact h u rfl
  · rintro rfl w hw
    exact (known.inj hw).symm

@[simp] theorem allows_unknown (v : α) : (unknown : Knowledge α).Allows v := by
  intro u hu
  cases hu

/-- A computed value is right when its argument is, unless the argument does not matter. -/
theorem allows_map {k : Knowledge α} {v : α} {f : α → β} (h : Varies f → k.Allows v) :
    (k.map f).Allows (f v) := by
  cases k with
  | unknown => exact allows_unknown _
  | known u =>
    rw [map_known, allows_known]
    by_cases hf : Varies f
    · rw [allows_known.mp (h hf)]
    · exact Classical.byContradiction fun hne => hf ⟨u, v, hne⟩

theorem allows_map₂ {k : Knowledge α} {l : Knowledge β} {v : α} {w : β} {f : α → β → γ}
    (hk : (∃ t, Varies fun u => f u t) → k.Allows v) (hl : (∃ u, Varies (f u)) → l.Allows w) :
    (map₂ f k l).Allows (f v w) := by
  cases k with
  | unknown => exact allows_unknown _
  | known u =>
    cases l with
    | unknown => exact allows_unknown _
    | known t =>
      -- The arguments are put right one after the other.
      have hleft : f u t = f v t :=
        allows_known.mp (allows_map (k := known u) (f := (f · t)) fun h => hk ⟨t, h⟩)
      have hright : f v t = f v w :=
        allows_known.mp (allows_map (k := known t) (f := f v) fun h => hl ⟨v, h⟩)
      rw [map₂_known, allows_known]
      exact hleft.trans hright

theorem Allows.learn {k : Knowledge α} {v : α} (h : k.Allows v) : (k.learn v).Allows v := by
  cases k with
  | known u => exact h
  | unknown => exact allows_known.mpr rfl

end Knowledge

namespace Cells

/-- The prediction and the processor agree at a cell: it is unknown or known rightly. -/
def AgreesAt (p : Prediction) (m : Processor) (c : Cell) : Prop :=
  (p.look c).Allows (m.value c)

/-- The prediction and the processor agree at every cell. -/
def Agrees (p : Prediction) (m : Processor) : Prop := ∀ c, p.AgreesAt m c

theorem agreesAt_flag {p : Prediction} {m : Processor} {f : Flag} :
    p.AgreesAt m (.flag f) ↔ (p.flag f).Allows (m.flag f) := by
  show ((p.flag f).map Byte.ofBool).Allows (Byte.ofBool (m.flag f)) ↔ _
  cases p.flag f with
  | known b => simp [Byte.ofBool_inj]
  | unknown => simp

theorem agreesAt_of_unknown {p : Prediction} (m : Processor) {c : Cell}
    (h : p.look c = .unknown) : p.AgreesAt m c := by
  intro u hu
  rw [h] at hu
  cases hu

/-- Who knows nothing agrees with every processor. -/
theorem agrees_blank (m : Processor) : blank.Agrees m :=
  fun c => agreesAt_of_unknown m (look_blank c)

end Cells

/-! ### What a source gives in a concrete state -/

namespace Source

variable {α β : Type}

/-- The source gives a value in a state. Arithmetic in decimal mode may give anything
under the cautious rule, and a flag that is shown has to be the flag of the state. -/
def Gives (m : Processor) (s : Source α) (x : α) : Prop :=
  match s with
  | given v => x = v
  | ofRegister r g => x = g (m.register r)
  | ofCarry g => x = g m.c
  | withCarry r g => x = g (m.register r) m.c
  | arithmetic rule g => x = g m.a m.c ∨ rule = .unknownWhenDecimal ∧ m.d = true
  | shown f v g => m.flag f = v ∧ x = g v

theorem Gives.map {m : Processor} {s : Source α} {x : α} (h : s.Gives m x) (f : α → β) :
    (s.map f).Gives m (f x) := by
  cases s with
  | arithmetic rule g =>
    rcases h with h | hfree
    · exact Or.inl (congrArg f h)
    · exact Or.inr hfree
  | shown g v k => exact ⟨h.1, congrArg f h.2⟩
  | _ => exact congrArg f h

/-- Under a rule that trusts what is known of the decimal flag, the processor computes in
binary. -/
theorem not_free_of_trusts {p : Prediction} {m : Processor} {rule : DecimalRule}
    (hD : rule = .unknownWhenDecimal → p.AgreesAt m (.flag .D)) (htrust : rule.trusts p.d = true) :
    ¬ (rule = .unknownWhenDecimal ∧ m.d = true) := by
  rintro ⟨rfl, hd⟩
  have hclear : p.flag .D = .known false := of_decide_eq_true htrust
  have hallow : (p.flag .D).Allows (m.flag .D) := Cells.agreesAt_flag.mp (hD rfl)
  rw [hclear, Knowledge.allows_known] at hallow
  exact Bool.noConfusion (hallow.trans hd)

/-- What is known of a value is right when the cells it is read from agree. -/
theorem allows_value {p : Prediction} {m : Processor} {s : Source α} {x : α}
    (hx : s.Gives m x) (hreads : ∀ c, s.Reads c → p.AgreesAt m c) : (s.value p).Allows x := by
  cases s with
  | given v => exact Knowledge.allows_known.mpr hx.symm
  | ofRegister r g =>
    rw [show x = g (m.register r) from hx]
    exact Knowledge.allows_map fun h => hreads (.register r) ⟨rfl, h⟩
  | ofCarry g =>
    rw [show x = g m.c from hx]
    exact Knowledge.allows_map fun h => Cells.agreesAt_flag.mp (hreads (.flag .C) ⟨rfl, h⟩)
  | withCarry r g =>
    rw [show x = g (m.register r) m.c from hx]
    exact Knowledge.allows_map₂ (fun h => hreads (.register r) (Or.inl ⟨rfl, h⟩))
      fun h => Cells.agreesAt_flag.mp (hreads (.flag .C) (Or.inr ⟨rfl, h⟩))
  | arithmetic rule g =>
    show (Knowledge.map₂ g (p.binaryAccumulator rule) p.c).Allows x
    unfold Cells.binaryAccumulator
    split
    · next htrust =>
      have hD : rule = .unknownWhenDecimal → p.AgreesAt m (.flag .D) :=
        fun hrule => hreads (.flag .D) (Or.inr (Or.inr ⟨rfl, hrule⟩))
      rw [hx.resolve_right (not_free_of_trusts hD htrust)]
      exact Knowledge.allows_map₂ (fun h => hreads (.register .A) (Or.inl ⟨rfl, h⟩))
        fun h => Cells.agreesAt_flag.mp (hreads (.flag .C) (Or.inr (Or.inl ⟨rfl, h⟩)))
    · rw [Knowledge.map₂_unknown_left]
      exact Knowledge.allows_unknown x
  | shown f v g =>
    obtain ⟨hv, rfl⟩ := hx
    refine Knowledge.allows_map fun h => ?_
    have hf : (p.flag f).Allows (m.flag f) :=
      Cells.agreesAt_flag.mp (hreads (.flag f) ⟨rfl, h⟩)
    rw [hv] at hf
    exact hf.learn

end Source

/-! ### A step of the processor does what the table says -/

/-- One state after another as a list of assignments describes it: every assigned cell has
a value that its source gives in the earlier state, and no other cell has changed. -/
def Yields (m : Processor) (as : List Assignment) (m' : Processor) : Prop :=
  ∀ c,
    match Assignment.lookup as c with
    | some s => s.Gives m (m'.value c)
    | none => m'.value c = m.value c

namespace Yields

variable {m n n' : Processor} {as : List Assignment}

theorem nil (m : Processor) : Yields m [] m := fun _ => rfl

theorem cons (h : Yields m as n) (a : Assignment) (hcell : a.source.Gives m (n'.value a.cell))
    (hrest : ∀ c, a.cell ≠ c → n'.value c = n.value c) : Yields m (a :: as) n' := by
  intro c
  rw [Assignment.lookup_cons]
  by_cases hc : a.cell = c
  · subst hc
    rw [if_pos rfl]
    exact hcell
  · simp only [if_neg hc]
    rw [hrest c hc]
    exact h c

theorem register (h : Yields m as n) (r : Register) {s : Source Byte} {b : Byte}
    (hb : s.Gives m b) : Yields m (⟨.register r, s⟩ :: as) (n.setRegister r b) := by
  refine h.cons _ ?_ fun c hc => ?_
  · rw [Cells.value_setRegister, if_pos rfl]
    exact hb
  · rw [Cells.value_setRegister, if_neg fun e => hc e.symm]

theorem flag (h : Yields m as n) (f : Flag) {s : Source Byte} {b : Bool}
    (hb : s.Gives m (Byte.ofBool b)) : Yields m (⟨.flag f, s⟩ :: as) (n.setFlag f b) := by
  refine h.cons _ ?_ fun c hc => ?_
  · rw [Cells.value_setFlag, if_pos rfl]
    exact hb
  · rw [Cells.value_setFlag, if_neg fun e => hc e.symm]

/-- A cell that has the value its source gives need not be written. -/
theorem held (h : Yields m as n) (a : Assignment) (hcell : a.source.Gives m (n.value a.cell)) :
    Yields m (a :: as) n :=
  h.cons a hcell fun _ _ => rfl

theorem signs (h : Yields m as n) {s : Source Byte} {b : Byte} (hb : s.Gives m b) :
    Yields m (Assignment.signs s ++ as) (n.reflect b) := by
  have hZ := h.flag .Z (hb.map fun b => Byte.ofBool (b == 0))
  have hN := hZ.flag .N (hb.map fun b => Byte.ofBool b.msb)
  rw [BitVec.msb_eq_toInt] at hN
  exact hN

theorem stack (h : Yields m as n) (offset : Int) (hS : n.s = m.s) :
    Yields m (Assignment.stack offset :: as) (n.shiftStack offset) := by
  have hmove : (Assignment.stack offset).source.Gives m (n.s + BitVec.ofInt 8 offset) := by
    rw [hS]
    rfl
  exact h.register .S hmove

theorem result (m : Processor) (t : Target) {s : Source Byte} {b : Byte} (hb : s.Gives m b) :
    Yields m (Assignment.result t s) (t.deposit m b) := by
  cases t with
  | register r => exact ((nil m).register r hb).signs hb
  | memory => exact (nil m).signs hb

theorem flags (h : Yields m as n) (g : Flag → Bool) :
    Yields m (Assignment.flags g ++ as) (n.setFlags g) := by
  have write : ∀ {n : Processor} {as : List Assignment}, Yields m as n → ∀ f,
      Yields m (⟨.flag f, .given (Byte.ofBool (g f))⟩ :: as) (n.setFlag f (g f)) :=
    fun h f => h.flag f rfl
  rw [Cells.setFlags_eq]
  exact write (write (write (write (write (write h .C) .Z) .I) .D) .V) .N

/-- Flags that a status byte shows need not be written. -/
theorem flagsHeld (h : Yields m as n) {g : Flag → Bool} (hg : ∀ f, g f = n.flag f) :
    Yields m (Assignment.flags g ++ as) n := by
  have hself : n.setFlags g = n := by
    apply Cells.ext_cells
    · intro r
      exact Cells.register_setFlags n g r
    · intro f
      rw [Cells.flag_setFlags, hg]
  have hall := h.flags g
  rwa [hself] at hall

theorem sum (m : Processor) {s : Source ArithmeticResult} {r : ArithmeticResult}
    (hr : s.Gives m r) :
    Yields m (Assignment.sum s) ((((m.setRegister .A r.value).setFlag .V r.overflow).setFlag .C
      r.carry).reflect r.value) := by
  have hA := (nil m).register .A (hr.map ArithmeticResult.value)
  have hV := hA.flag .V (hr.map fun r => Byte.ofBool r.overflow)
  have hC := hV.flag .C (hr.map fun r => Byte.ofBool r.carry)
  exact hC.signs (hr.map ArithmeticResult.value)

/-- In decimal mode the cautious rule asks nothing of the cells that arithmetic writes. -/
theorem decimal {m : Processor} {rule : DecimalRule}
    (hfree : rule = .unknownWhenDecimal ∧ m.d = true) (g : Byte → Bool → ArithmeticResult)
    (a : Byte) (n v z c : Bool) :
    Yields m (Assignment.sum (.arithmetic rule g))
      { m with a := a, n := n, v := v, z := z, c := c } := by
  have free : ∀ (h : Byte → Bool → Byte) (b : Byte), (Source.arithmetic rule h).Gives m b :=
    fun _ _ => Or.inr hfree
  have hA := (nil m).register .A (b := a) (free (fun a c => (g a c).value) _)
  have hV := hA.flag .V (b := v) (free (fun a c => Byte.ofBool (g a c).overflow) _)
  have hC := hV.flag .C (b := c) (free (fun a c => Byte.ofBool (g a c).carry) _)
  have hZ := hC.flag .Z (b := z) (free (fun a c => Byte.ofBool ((g a c).value == 0)) _)
  exact hZ.flag .N (b := n) (free (fun a c => Byte.ofBool (g a c).value.msb) _)

theorem shifted (m : Processor) (t : Target) {s : Source Shifted} {r : Shifted}
    (hr : s.Gives m r) :
    Yields m (Assignment.shifted t s) ((t.deposit m r.value).setFlag .C r.carry) :=
  (result m t (hr.map Shifted.value)).flag .C (hr.map fun r => Byte.ofBool r.carry)

end Yields

/-! ### The arithmetic of the processor in the checker's terms -/

theorem Cells.addByte_eq (m : Processor) (b : Byte) :
    m.addByte b =
      (((m.setRegister .A (Byte.addWithCarry m.a b m.c).value).setFlag .V
        (Byte.addWithCarry m.a b m.c).overflow).setFlag .C
        (Byte.addWithCarry m.a b m.c).carry).reflect (Byte.addWithCarry m.a b m.c).value := by
  rw [Byte.overflow_addWithCarry]
  rfl

theorem Cells.subtractByte_eq (m : Processor) (b : Byte) :
    m.subtractByte b =
      (((m.setRegister .A (Byte.subtractWithBorrow m.a b m.c).value).setFlag .V
        (Byte.subtractWithBorrow m.a b m.c).overflow).setFlag .C
        (Byte.subtractWithBorrow m.a b m.c).carry).reflect
        (Byte.subtractWithBorrow m.a b m.c).value := by
  rw [Byte.overflow_subtractWithBorrow]
  rfl

namespace Target

theorem shift_eq (t : Target) (d : Direction) (m : Processor) (operand : Byte)
    (entering : Bool) :
    t.shift d m operand entering =
      (t.deposit m (Byte.shift d (t.fetch m operand) entering).value).setFlag .C
        (Byte.shift d (t.fetch m operand) entering).carry := by
  cases d with
  | left => rw [Byte.value_shift_left, Byte.carry_shift_left]; rfl
  | right => rw [Byte.value_shift_right, Byte.carry_shift_right]; rfl

theorem gives_source (t : Target) (m : Processor) (operand : Byte) :
    (t.source operand).Gives m (t.fetch m operand) := by
  cases t <;> rfl

theorem gives_sourceWithCarry {α : Type} (t : Target) (m : Processor) (operand : Byte)
    (g : Byte → Bool → α) :
    (t.sourceWithCarry operand g).Gives m (g (t.fetch m operand) m.c) := by
  cases t <;> rfl

end Target

/-- The outcome of a branch implies the flag that decided it. -/
theorem impliedFlag_eq_iff {operand : Byte} {b takenWhen : Bool} :
    impliedFlag takenWhen (operand != 0) = b ↔ (operand ≠ 0 ↔ b = takenWhen) := by
  unfold impliedFlag
  by_cases h : operand = 0 <;> cases b <;> cases takenWhen <;> simp [h]

/-! ### A step -/

/-- A step of the processor changes the cells as the table says. -/
theorem Operation.yields_of_steps {settings : Settings} {m m' : Processor} {operand : Byte}
    {op : Operation} (hop : op.Proper) (h : op.Steps settings m operand m') :
    Yields m (op.assignments settings operand) m' := by
  obtain ⟨hshows, hmoves⟩ := h
  rcases hmoves with rfl | ⟨hrule, hd, hop', a, n, v, z, c, rfl⟩
  · have start := Yields.nil m
    cases op with
    | load r => exact Yields.result m (.register r) rfl
    -- A register that is shown counts as written, although the processor leaves it alone.
    | store r => exact start.held _ hshows.symm
    | push r =>
      refine (start.stack (-1) rfl).held _ ?_
      cases r with
      | S => exact absurd rfl hop.1
      | _ => exact hshows.symm
    | pull r =>
      refine (Yields.result m (.register r) (s := .given operand) rfl).stack 1 ?_
      cases r with
      | S => exact absurd rfl hop.2
      | _ => rfl
    | pushStatus => exact (start.stack (-1) rfl).flagsHeld hshows
    | pullStatus =>
      have hflags := start.flags fun f => f.ofStatus operand
      rw [List.append_nil] at hflags
      exact hflags.stack 1 rfl
    | add =>
      show Yields m _ (m.addByte operand)
      rw [Cells.addByte_eq]
      exact Yields.sum m (Or.inl rfl)
    | subtract =>
      show Yields m _ (m.subtractByte operand)
      rw [Cells.subtractByte_eq]
      exact Yields.sum m (Or.inl rfl)
    | combine g => exact Yields.result m (.register .A) rfl
    | compare r =>
      exact (start.signs (s := .ofRegister r (· - operand)) rfl).flag .C rfl
    | bitTest =>
      have hN := start.flag .N (s := .given (Byte.ofBool (Flag.N.ofStatus operand))) rfl
      have hV := hN.flag .V (s := .given (Byte.ofBool (Flag.V.ofStatus operand))) rfl
      exact hV.flag .Z rfl
    | bitTestConstant => exact start.flag .Z rfl
    | changeBits => exact start.flag .Z rfl
    | shift d t =>
      show Yields m _ (t.shift d m operand false)
      rw [Target.shift_eq]
      exact Yields.shifted m t ((t.gives_source m operand).map (Byte.shift d · false))
    | rotate d t =>
      show Yields m _ (t.shift d m operand m.c)
      rw [Target.shift_eq]
      exact Yields.shifted m t (t.gives_sourceWithCarry m operand (Byte.shift d))
    | increment t => exact Yields.result m t ((t.gives_source m operand).map (· + 1))
    | decrement t => exact Yields.result m t ((t.gives_source m operand).map (· - 1))
    | setFlag f value => exact start.flag f rfl
    | transfer source destination =>
      by_cases hS : destination = .S
      · subst hS
        exact start.register .S rfl
      · simp only [assignments, perform, if_neg hS]
        exact Yields.result m (.register destination) rfl
    | branch f takenWhen =>
      have himplied := impliedFlag_eq_iff.mpr hshows
      exact start.held _ ⟨himplied.symm, congrArg Byte.ofBool himplied.symm⟩
    | jumpSubroutine => exact start.stack (-2) rfl
    | returnSubroutine => exact start.stack 2 rfl
    | returnInterrupt =>
      have hflags := start.flags fun f => f.ofStatus operand
      rw [List.append_nil] at hflags
      exact hflags.stack 3 rfl
    | breakInterrupt =>
      have hpushed := (start.stack (-3) rfl).flagsHeld hshows
      have hforced := hpushed.flag .I (s := .given (Byte.ofBool true)) (b := true) rfl
      obtain ⟨variant, decimal⟩ := settings
      cases variant with
      | cmos =>
        have hcleared := hforced.flag .D (s := .given (Byte.ofBool false)) (b := false) rfl
        simp only [perform, Variant.clearsDecimal, Bool.not_true, Bool.and_false]
        exact hcleared
      | nmos =>
        simp only [perform, Variant.clearsDecimal, Bool.not_false, Bool.and_true]
        exact hforced
    | unmodeled => exact start
  · rcases hop' with rfl | rfl
    · exact Yields.decimal ⟨hrule, hd⟩ _ a n v z c
    · exact Yields.decimal ⟨hrule, hd⟩ _ a n v z c

/-- The value of a cell after a step: one that its source gives if the operation writes it,
and the value before if not. -/
theorem Operation.value_of_steps {settings : Settings} {m m' : Processor} {operand : Byte}
    {op : Operation} (hop : op.Proper) (h : op.Steps settings m operand m') (c : Cell) :
    match op.source settings operand c with
    | some s => s.Gives m (m'.value c)
    | none => m'.value c = m.value c :=
  yields_of_steps hop h c

/-- A cell that a step does not write agrees afterwards just when it agreed before. -/
theorem Operation.agreesAt_effect_of_not_mem {settings : Settings} {p : Prediction}
    {m m' : Processor} {operand : Byte} {op : Operation} (hop : op.Proper)
    (h : op.Steps settings m operand m') {c : Cell} (hc : c ∉ op.writes settings operand) :
    (op.effect settings operand p).AgreesAt m' c ↔ p.AgreesAt m c := by
  have hsource := source_eq_none_iff.mpr hc
  have hlook := op.look_effect settings operand p hop c
  have hvalue := value_of_steps hop h c
  rw [hsource] at hlook hvalue
  unfold Cells.AgreesAt
  rw [hlook, hvalue]

/-- A cell that a step writes agrees afterwards when every cell that its value is read from
agreed before. -/
theorem Operation.agreesAt_effect_of_reads {settings : Settings} {p : Prediction}
    {m m' : Processor} {operand : Byte} {op : Operation} (hop : op.Proper)
    (h : op.Steps settings m operand m') {c : Cell} {s : Source Byte}
    (hs : op.source settings operand c = some s) (hreads : ∀ d, s.Reads d → p.AgreesAt m d) :
    (op.effect settings operand p).AgreesAt m' c := by
  have hlook := op.look_effect settings operand p hop c
  have hvalue := value_of_steps hop h c
  rw [hs] at hlook hvalue
  unfold Cells.AgreesAt
  rw [hlook]
  exact Source.allows_value hvalue hreads

/-- A step keeps full agreement. -/
theorem Operation.agrees_effect {settings : Settings} {p : Prediction} {m m' : Processor}
    {operand : Byte} {op : Operation} (hop : op.Proper) (h : op.Steps settings m operand m')
    (hp : p.Agrees m) : (op.effect settings operand p).Agrees m' := by
  intro c
  cases hs : op.source settings operand c with
  | none => exact (agreesAt_effect_of_not_mem hop h (source_eq_none_iff.mp hs)).mpr (hp c)
  | some s => exact agreesAt_effect_of_reads hop h hs fun d _ => hp d

end TraceCheck
