import TraceCheck.Proofs.Detection

/-!
# `TraceCheck.Proofs.Precision`: where no knowledge is lost

What a checker knows after a step is true of the processor. This module says when it is also
all that is true. A state is a successor when the processor can be in it after showing the
observed byte in some state that the prediction allows (`Operation.Successor`). The best that
can be said of a cell is its value in all successors if it is the same in all of them, and
nothing otherwise. Most operations reach this best prediction (`Checker.best_precision`).
`Operation.isExact` lists them. Missing are additions, subtractions and comparisons, bit tests,
rotates, conjunctions and disjunctions, and the right shift of a register: each has an outcome
that is the same for all values of an unknown input, or of which part can be told.

A cell that is known is the same in all successors, because a step keeps agreement. For a cell
that is unknown two successors have to be found that differ there. They come from two states
that differ in one unknown cell: in the cell itself if it is not written, and otherwise in the
register that it is computed from. Such a change goes unnoticed unless the observation tells of
the cell (`Operation.agrees_shows_of_alike`). So it matters that an operation writes whatever
cell it tells of (`mem_writes_of_mem_observed`) and computes nothing from it
(`isOpen_assignments`).
-/

set_option autoImplicit false

namespace TraceCheck

/-! ### Operations that lose nothing -/

/-- Whether the best prediction is made for an operation. -/
def Operation.isExact : Operation → Bool
  | load _ | store _ | push _ | pull _ | pushStatus | pullStatus => true
  | combine .xor | shift .left _ | shift .right .memory | increment _ | decrement _ => true
  | setFlag _ _ | transfer _ _ | branch _ _ => true
  | jumpSubroutine | returnSubroutine | returnInterrupt | breakInterrupt | unmodeled => true
  | _ => false

namespace Source

variable {α : Type} {observed : List Cell}

/-- A value is left open when it is given by the observation or can come out differently with
a register that the observation does not tell of. -/
def IsOpen (observed : List Cell) : Source α → Prop
  | given _ => True
  | ofRegister r g => Varies g ∧ .register r ∉ observed
  | shown _ _ _ => True
  | _ => False

/-- A byte is left open so far that its signs are open too, because it can come out as zero and
as a negative number other than that. -/
def IsSigned (observed : List Cell) : Source Byte → Prop
  | given _ => True
  | ofRegister r g => (∃ v, g v = 0x00) ∧ (∃ v, g v = 0x80) ∧ .register r ∉ observed
  | _ => False

theorem IsSigned.isOpen_map {s : Source Byte} (h : s.IsSigned observed)
    {f : Byte → α} (hf : f 0x00 ≠ f 0x80) : (s.map f).IsOpen observed := by
  cases s with
  | given v => trivial
  | ofRegister r g =>
    obtain ⟨⟨v, hv⟩, ⟨w, hw⟩, hr⟩ := h
    refine ⟨⟨v, w, ?_⟩, hr⟩
    show f (g v) ≠ f (g w)
    rw [hv, hw]
    exact hf
  | _ => exact h.elim

theorem IsSigned.isOpen {s : Source Byte} (h : s.IsSigned observed) : s.IsOpen observed := by
  cases s with
  | given v => trivial
  | ofRegister r g =>
    obtain ⟨⟨v, hv⟩, ⟨w, hw⟩, hr⟩ := h
    exact ⟨⟨v, w, by rw [hv, hw]; decide⟩, hr⟩
  | _ => exact h.elim

end Source

namespace Assignment

variable {observed : List Cell}

theorem isOpen_flags (g : Flag → Bool) : ∀ a ∈ flags g, a.source.IsOpen observed := by
  intro a ha
  obtain ⟨f, -, rfl⟩ := List.mem_map.mp ha
  trivial

theorem isOpen_stack (offset : Int) (h : Cell.register .S ∉ observed) :
    (stack offset).source.IsOpen observed := by
  refine ⟨⟨0, 1, fun heq => ?_⟩, h⟩
  exact absurd ((BitVec.add_left_inj _).mp heq) (by decide)

/-- A result that is open in its signs leaves nothing to be known of what depends on it. -/
theorem isOpen_result (t : Target) {s : Source Byte} (h : s.IsSigned observed) :
    ∀ a ∈ result t s, a.source.IsOpen observed := by
  have hsigns : ∀ a ∈ signs s, a.source.IsOpen observed := by
    rw [signs, List.forall_mem_cons, List.forall_mem_singleton]
    exact ⟨h.isOpen_map (by decide), h.isOpen_map (by decide)⟩
  have hput : ∀ a ∈ put t s, a.source.IsOpen observed := by
    cases t with
    | register r =>
      rw [put, List.forall_mem_singleton]
      exact h.isOpen
    | memory => exact fun a ha => absurd ha List.not_mem_nil
  exact List.forall_mem_append.mpr ⟨hsigns, hput⟩

end Assignment

namespace Operation

variable {settings : Settings} {operand : Byte} {op : Operation}

/-- A byte that is computed from the target of a shift or a count, and takes the values zero
and minus 128. -/
theorem isSigned_source (t : Target) (operand : Byte) {g : Byte → Byte} (hzero : ∃ v, g v = 0x00)
    (hminus : ∃ v, g v = 0x80) : ((t.source operand).map g).IsSigned [] := by
  cases t with
  | register r => exact ⟨hzero, hminus, List.not_mem_nil⟩
  | memory => trivial

/-- What an exact operation assigns is left open. -/
theorem isOpen_assignments (hproper : op.Proper) (hexact : op.isExact = true) :
    ∀ a ∈ op.assignments settings operand, a.source.IsOpen op.observed := by
  have hnone : ∀ c : Cell, c ∉ ([] : List Cell) := fun _ => List.not_mem_nil
  cases op with
  | load r => exact Assignment.isOpen_result (.register r) trivial
  | store r => exact List.forall_mem_singleton.mpr trivial
  | push r =>
    have hS : Cell.register .S ∉ (push r).observed := by
      intro h
      obtain rfl := Cell.register.inj (List.mem_singleton.mp h)
      exact hproper.1 rfl
    exact List.forall_mem_cons.mpr
      ⟨trivial, List.forall_mem_singleton.mpr (Assignment.isOpen_stack _ hS)⟩
  | pull r =>
    exact List.forall_mem_cons.mpr
      ⟨Assignment.isOpen_stack _ (hnone _), Assignment.isOpen_result (.register r) trivial⟩
  | pushStatus =>
    exact List.forall_mem_append.mpr ⟨Assignment.isOpen_flags _,
      List.forall_mem_singleton.mpr (Assignment.isOpen_stack _ (by decide))⟩
  | pullStatus =>
    exact List.forall_mem_cons.mpr
      ⟨Assignment.isOpen_stack _ (hnone _), Assignment.isOpen_flags _⟩
  | combine g =>
    cases g with
    | xor =>
      -- An exclusive or can be undone, so every byte can be a result.
      have hreach : ∀ b : Byte, ∃ v, v ^^^ operand = b := fun b =>
        ⟨b ^^^ operand, by rw [BitVec.xor_assoc, BitVec.xor_self, BitVec.xor_zero]⟩
      exact Assignment.isOpen_result (.register .A) ⟨hreach 0x00, hreach 0x80, hnone _⟩
    | and => cases hexact
    | or => cases hexact
  | shift d t =>
    cases d with
    | left =>
      have hresult := isSigned_source t operand (g := fun b => (Byte.shift .left b false).value)
        ⟨0x00, by decide⟩ ⟨0x40, by decide⟩
      cases t with
      | register r =>
        have hcarry : Varies fun b => Byte.ofBool (Byte.shift .left b false).carry :=
          ⟨0x00, 0x80, by decide⟩
        exact List.forall_mem_cons.mpr
          ⟨⟨hcarry, hnone _⟩, Assignment.isOpen_result (.register r) hresult⟩
      | memory =>
        exact List.forall_mem_cons.mpr ⟨trivial, Assignment.isOpen_result .memory hresult⟩
    | right =>
      cases t with
      | register r => cases hexact
      | memory =>
        exact List.forall_mem_cons.mpr ⟨trivial, Assignment.isOpen_result .memory trivial⟩
  | increment t =>
    exact Assignment.isOpen_result t
      (isSigned_source t operand ⟨0xFF, by decide⟩ ⟨0x7F, by decide⟩)
  | decrement t =>
    exact Assignment.isOpen_result t
      (isSigned_source t operand ⟨0x01, by decide⟩ ⟨0x81, by decide⟩)
  | setFlag f value => exact List.forall_mem_singleton.mpr trivial
  | transfer source destination =>
    -- A copy to the stack pointer has no signs.
    by_cases hS : destination = .S
    · rw [assignments, if_pos hS, List.forall_mem_singleton]
      exact ⟨⟨0, 1, by decide⟩, hnone _⟩
    · rw [assignments, if_neg hS]
      exact Assignment.isOpen_result _ ⟨⟨0x00, rfl⟩, ⟨0x80, rfl⟩, hnone _⟩
  | branch f takenWhen => exact List.forall_mem_singleton.mpr trivial
  | jumpSubroutine =>
    exact List.forall_mem_singleton.mpr (Assignment.isOpen_stack _ (hnone _))
  | returnSubroutine =>
    exact List.forall_mem_singleton.mpr (Assignment.isOpen_stack _ (hnone _))
  | returnInterrupt =>
    exact List.forall_mem_cons.mpr
      ⟨Assignment.isOpen_stack _ (hnone _), Assignment.isOpen_flags _⟩
  | breakInterrupt =>
    have hpushed : ∀ a ∈ Assignment.flags (·.ofStatus operand) ++ [Assignment.stack (-3)],
        a.source.IsOpen breakInterrupt.observed :=
      List.forall_mem_append.mpr ⟨Assignment.isOpen_flags _,
        List.forall_mem_singleton.mpr (Assignment.isOpen_stack _ (by decide))⟩
    have hforced : ∀ a ∈ (⟨.flag .I, .given (Byte.ofBool true)⟩ : Assignment) ::
        (Assignment.flags (·.ofStatus operand) ++ [Assignment.stack (-3)]),
        a.source.IsOpen breakInterrupt.observed :=
      List.forall_mem_cons.mpr ⟨trivial, hpushed⟩
    obtain ⟨variant, decimal⟩ := settings
    cases variant with
    | cmos => exact List.forall_mem_cons.mpr ⟨trivial, hforced⟩
    | nmos => exact hforced
  | unmodeled => exact fun a ha => absurd ha List.not_mem_nil
  | _ => cases hexact

/-- An operation writes the cells that it tells of. -/
theorem mem_writes_of_mem_observed {c : Cell} (h : c ∈ op.observed) :
    c ∈ op.writes settings operand := by
  cases op with
  | store r => exact h
  | push r => exact List.mem_append_left [Cell.register .S] h
  | pushStatus => exact List.mem_append_left [Cell.register .S] h
  | branch f takenWhen => exact h
  | breakInterrupt =>
    have hpushed : c ∈ Cell.flag .I :: (breakInterrupt.observed ++ [Cell.register .S]) :=
      List.mem_cons_of_mem _ (List.mem_append_left _ h)
    obtain ⟨variant, decimal⟩ := settings
    cases variant with
    | cmos => exact List.mem_cons_of_mem _ hpushed
    | nmos => exact hpushed
  | _ => exact absurd h List.not_mem_nil

/-! ### Two successors that differ -/

/-- The states that a processor may be in after it has shown a byte, as far as a prediction
tells. -/
def Successor (settings : Settings) (p : Prediction) (operand : Byte) (op : Operation)
    (m' : Processor) : Prop :=
  ∃ m : Processor, p.Agrees m ∧ op.Steps settings m operand m'

/-- A change to one cell goes unnoticed when the cell is unknown and the observation does not
tell of it. -/
theorem agrees_shows_of_alike {p : Prediction} {m n : Processor} {c : Cell}
    (halike : ∀ d, d ≠ c → n.value d = m.value d) (hunknown : p.look c = .unknown)
    (hsilent : c ∉ op.observed) (hp : p.Agrees m) (hshows : op.Shows m operand) :
    p.Agrees n ∧ op.Shows n operand := by
  constructor
  · intro d
    by_cases hd : d = c
    · subst hd
      exact Cells.agreesAt_of_unknown n hunknown
    · show (p.look d).Allows (n.value d)
      rw [halike d hd]
      exact hp d
  · rw [shows_iff]
    intro e he
    have hec : e.cell ≠ c := by
      rintro rfl
      rw [← op.map_cell_evidence operand] at hsilent
      exact hsilent (List.mem_map_of_mem he)
    rw [halike e.cell hec]
    exact (op.shows_iff operand m).mp hshows e he

/-- A state that may have shown the byte leads to a successor. -/
theorem exists_successor (settings : Settings) {p : Prediction} (hproper : op.Proper)
    {m : Processor} (hm : p.Agrees m ∧ op.Shows m operand) (c : Cell) :
    ∃ m', op.Successor settings p operand m' ∧
      match op.source settings operand c with
      | some s => s.Gives m (m'.value c)
      | none => m'.value c = m.value c := by
  have hstep := op.steps_perform settings hm.2
  exact ⟨_, ⟨m, hm.1, hstep⟩, value_of_steps hproper hstep c⟩

/-- An unknown cell that is not written may have had other values and kept them. -/
theorem exists_successors_ne_of_kept {p : Prediction} (hproper : op.Proper) {m : Processor}
    (hp : p.Agrees m) (hshows : op.Shows m operand) {c : Cell}
    (hs : op.source settings operand c = none) (hunknown : p.look c = .unknown) :
    ∃ n n', op.Successor settings p operand n ∧ op.Successor settings p operand n' ∧
      n.value c ≠ n'.value c := by
  have hsilent : c ∉ op.observed := fun h =>
    source_eq_none_iff.mp hs (mem_writes_of_mem_observed h)
  obtain ⟨k, hne, halike⟩ := Cells.exists_change m c
  have hk := agrees_shows_of_alike halike hunknown hsilent hp hshows
  obtain ⟨n, hn, hvalue⟩ := exists_successor settings hproper hk c
  obtain ⟨n', hn', hvalue'⟩ := exists_successor settings hproper ⟨hp, hshows⟩ c
  rw [hs] at hvalue hvalue'
  refine ⟨n, n', hn, hn', ?_⟩
  rw [hvalue, hvalue']
  exact hne

/-- A cell that is computed from an unknown register may have come out differently. -/
theorem exists_successors_ne_of_register {p : Prediction} (hproper : op.Proper) {m : Processor}
    (hp : p.Agrees m) (hshows : op.Shows m operand) {c : Cell} {r : Register} {g : Byte → Byte}
    (hs : op.source settings operand c = some (.ofRegister r g)) (hvaries : Varies g)
    (hsilent : .register r ∉ op.observed) (hunknown : p.register r = .unknown) :
    ∃ n n', op.Successor settings p operand n ∧ op.Successor settings p operand n' ∧
      n.value c ≠ n'.value c := by
  have hgives : ∀ b, ∃ n, op.Successor settings p operand n ∧ n.value c = g b := by
    intro b
    have halike : ∀ d, d ≠ .register r → (m.setRegister r b).value d = m.value d :=
      fun d hd => (Cells.value_setRegister m r b d).trans (if_neg hd)
    have hset := agrees_shows_of_alike halike hunknown hsilent hp hshows
    obtain ⟨n, hn, hvalue⟩ := exists_successor settings hproper hset c
    rw [hs] at hvalue
    refine ⟨n, hn, hvalue.trans (congrArg g ?_)⟩
    rw [Cells.register_setRegister, if_pos rfl]
  obtain ⟨v, w, hvw⟩ := hvaries
  obtain ⟨n, hn, hvalue⟩ := hgives v
  obtain ⟨n', hn', hvalue'⟩ := hgives w
  refine ⟨n, n', hn, hn', ?_⟩
  rw [hvalue, hvalue']
  exact hvw

/-- Where a cell is unknown after an exact operation, two successors differ. -/
theorem exists_successors_ne {p : Prediction} (hproper : op.Proper)
    (hexact : op.isExact = true) {m' : Processor} (hm' : op.Successor settings p operand m')
    {c : Cell} (hc : (op.effect settings operand p).look c = .unknown) :
    ∃ n n', op.Successor settings p operand n ∧ op.Successor settings p operand n' ∧
      n.value c ≠ n'.value c := by
  obtain ⟨m, hp, hstep⟩ := hm'
  rw [op.look_effect settings operand p hproper] at hc
  cases hs : op.source settings operand c with
  | none =>
    rw [hs] at hc
    exact exists_successors_ne_of_kept hproper hp hstep.shows hs hc
  | some s =>
    rw [hs] at hc
    obtain ⟨a, ha, rfl⟩ := Assignment.exists_mem_of_lookup hs
    have hopen := isOpen_assignments hproper hexact a ha
    generalize a.source = s at hs hc hopen
    cases s with
    -- What the observation gives or shows is known, so an unknown cell has another source.
    | given v => cases hc
    | shown f v g =>
      exact absurd (Knowledge.map_eq_unknown_iff.mp hc) (Knowledge.learn_ne_unknown (p.flag f) v)
    | ofRegister r g =>
      have hunknown : p.register r = .unknown := Knowledge.map_eq_unknown_iff.mp hc
      exact exists_successors_ne_of_register hproper hp hstep.shows hs hopen.1 hopen.2 hunknown
    | ofCarry g => exact hopen.elim
    | withCarry r g => exact hopen.elim
    | arithmetic rule g => exact hopen.elim

end Operation

/-! ### The best prediction -/

/-- A prediction says of every cell what can be said of it after a step: its value when all
successors have that value, and nothing when two of them differ. -/
structure IsBest (settings : Settings) (p : Prediction) (operand : Byte) (op : Operation)
    (q : Prediction) : Prop where
  known : ∀ c v, q.look c = .known v ↔
    ∀ m', op.Successor settings p operand m' → m'.value c = v
  unknown : ∀ c, q.look c = .unknown ↔
    ∃ m' n', op.Successor settings p operand m' ∧ op.Successor settings p operand n' ∧
      m'.value c ≠ n'.value c

/-- An exact operation leads to the best prediction, if there is any successor at all. -/
theorem Operation.isBest_effect {settings : Settings} {p : Prediction} {operand : Byte}
    {op : Operation} (hproper : op.Proper) (hexact : op.isExact = true)
    (hfeasible : ∃ m', op.Successor settings p operand m') :
    IsBest settings p operand op (op.effect settings operand p) := by
  obtain ⟨k, hk⟩ := hfeasible
  have hsound : ∀ {c v}, (op.effect settings operand p).look c = .known v →
      ∀ m', op.Successor settings p operand m' → m'.value c = v := by
    rintro c v hlook m' ⟨m, hp, hstep⟩
    exact (agrees_effect hproper hstep hp c v hlook).symm
  have hdiffer := fun c => exists_successors_ne (c := c) hproper hexact hk
  refine ⟨fun c v => ⟨hsound, fun hall => ?_⟩, fun c => ⟨hdiffer c, ?_⟩⟩
  · cases hlook : (op.effect settings operand p).look c with
    | known w => rw [← hsound hlook k hk, hall k hk]
    | unknown =>
      obtain ⟨m', n', hm', hn', hne⟩ := hdiffer c hlook
      exact absurd ((hall m' hm').trans (hall n' hn').symm) hne
  · rintro ⟨m', n', hm', hn', hne⟩
    cases hlook : (op.effect settings operand p).look c with
    | known w => exact absurd ((hsound hlook m' hm').trans (hsound hlook n' hn').symm) hne
    | unknown => rfl

namespace Checker

/-- After an exact operation, whether of an instruction or of an interrupt, a checker knows of
every cell what all states have in common that the processor may be in. Only the observation
has to be one that it can have shown. -/
theorem best_precision {c : Checker} {k : Call} {a : Activity} (hk : k.activity = some a)
    (hexact : a.operation.isExact = true)
    (hfeasible : ∃ m', a.operation.Successor c.settings c.state.cells a.operand m') :
    IsBest c.settings c.state.cells a.operand a.operation (c.call k).checker.state.cells := by
  rw [cells_call, hk]
  exact Operation.isBest_effect a.proper_operation hexact hfeasible

/-- A pushed status byte tells of all flags, also where only one was known before, and nobody
can tell where the stack pointer is. -/
theorem best_precision_pushed_status :
    let c := (fresh {}).after [.dispatch 0x78 0x00]
    let a : Activity := .instruction 0x08 0xB5
    let q := (c.call (.dispatch 0x08 0xB5)).checker.state.cells
    ((Call.dispatch 0x08 0xB5).activity = some a ∧ a.operation.isExact = true ∧
        ∃ m', a.operation.Successor c.settings c.state.cells a.operand m') ∧
      IsBest c.settings c.state.cells a.operand a.operation q ∧
      q.look (.flag .N) = .known 1 ∧ q.look (.register .S) = .unknown := by
  intro c a q
  have hactivity : (Call.dispatch 0x08 0xB5).activity = some a := rfl
  have hexact : a.operation.isExact = true := by decide
  have hfeasible : ∃ m', a.operation.Successor c.settings c.state.cells a.operand m' := by
    have hquiet : c.state.cells.mismatches (a.operation.evidence a.operand) = [] := by decide
    obtain ⟨m, m', hm, hstep⟩ := Operation.exists_agrees_steps c.settings hquiet
    exact ⟨m', m, hm, hstep⟩
  exact ⟨⟨hactivity, hexact, hfeasible⟩, best_precision hactivity hexact hfeasible,
    by decide, by decide⟩

end Checker

end TraceCheck
