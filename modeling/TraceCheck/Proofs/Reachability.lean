import TraceCheck.Proofs.Detection

/-!
# `TraceCheck.Proofs.Reachability`: every state is the state of some checker

A prediction knows some cells and not others, and a fault is pending or not. No combination is
out of reach: `every_state_reachable` builds, for each state, instructions that take a fresh
checker to it, and without a mismatch unless a fault is wanted. What holds in all runs
therefore holds of all states, and no relation between two cells is an invariant.

The instructions are chosen cell by cell. A register is learnt from a store and a flag from a
branch or from the instruction that sets it. None of these touches another cell, so the cells
can be taught one after the other, and the induction over the list of them has an easy
invariant: the cells taught so far are those of the goal, and the others are as they were
(`exists_leads`). The stack pointer is the exception. It is only learnt through X, which has to
be forgotten again by a copy of an unknown accumulator, and N and Z with it. So it comes first
(`Leads.setStack`). A fault comes before that, from two stores that contradict each other.
-/

set_option autoImplicit false

namespace TraceCheck

/-- The calls that dispatch instructions with their operands. -/
def dispatches (steps : List (Byte × Byte)) : List Call :=
  steps.map fun d => .dispatch d.1 d.2

/-- Some instructions take one prediction to another without a mismatch. Whether a fault is
pending makes no difference. -/
def Leads (settings : Settings) (p q : Prediction) : Prop :=
  ∃ steps : List (Byte × Byte), ∀ fault,
    Checker.after ⟨settings, ⟨p, fault⟩⟩ (dispatches steps) = ⟨settings, ⟨q, fault⟩⟩ ∧
      Checker.mismatches ⟨settings, ⟨p, fault⟩⟩ (dispatches steps) = []

namespace Leads

variable {settings : Settings} {p q q' : Prediction}

theorem refl (p : Prediction) : Leads settings p p := ⟨[], fun _ => ⟨rfl, rfl⟩⟩

theorem trans (h : Leads settings p q) (h' : Leads settings q q') : Leads settings p q' := by
  obtain ⟨steps, hsteps⟩ := h
  obtain ⟨steps', hsteps'⟩ := h'
  refine ⟨steps ++ steps', fun fault => ?_⟩
  obtain ⟨hafter, hquiet⟩ := hsteps fault
  obtain ⟨hafter', hquiet'⟩ := hsteps' fault
  have hcalls : dispatches (steps ++ steps') = dispatches steps ++ dispatches steps' :=
    List.map_append
  constructor
  · rw [hcalls, Checker.after_append, hafter, hafter']
  · rw [hcalls, Checker.mismatches_append, hafter, hquiet, hquiet', List.append_nil]

/-- One instruction whose observation contradicts nothing. -/
theorem dispatch {op : Operation} (hop : ∃ opcode, (Instruction.decode opcode).operation = op)
    (operand : Byte) (h : p.mismatches (op.evidence operand) = []) :
    Leads settings p (op.effect settings operand p) := by
  obtain ⟨opcode, rfl⟩ := hop
  refine ⟨[(opcode, operand)], fun fault => ?_⟩
  have hfault : (fault || !(p.mismatches
      ((Instruction.decode opcode).operation.evidence operand)).isEmpty) = fault := by
    rw [h]
    exact Bool.or_false fault
  constructor
  · show Checker.mk settings (State.mk _ (fault || !_)) = _
    rw [hfault]
  · show Checker.mismatches ⟨settings, ⟨p, fault⟩⟩ [.dispatch opcode operand] = []
    rw [Checker.mismatches_cons, Checker.mismatches_nil, List.append_nil,
      Checker.mismatches_call]
    exact h

end Leads

/-! ### The instructions that teach a cell -/

theorem exists_store {r : Register} (hr : r ≠ .S) :
    ∃ opcode, (Instruction.decode opcode).operation = .store r := by
  cases r with
  | A => exact ⟨0x85, rfl⟩
  | X => exact ⟨0x86, rfl⟩
  | Y => exact ⟨0x84, rfl⟩
  | S => exact absurd rfl hr

/-- A flag is tested by a branch, or can be set and cleared. -/
theorem exists_branch_or_setFlag (f : Flag) :
    (∃ takenWhen opcode, (Instruction.decode opcode).operation = .branch f takenWhen) ∨
      ∀ value, ∃ opcode, (Instruction.decode opcode).operation = .setFlag f value := by
  cases f with
  | N => exact Or.inl ⟨true, 0x30, rfl⟩
  | V => exact Or.inl ⟨true, 0x70, rfl⟩
  | Z => exact Or.inl ⟨true, 0xF0, rfl⟩
  | C => exact Or.inl ⟨true, 0xB0, rfl⟩
  | D =>
    refine Or.inr fun value => ?_
    cases value with
    | true => exact ⟨0xF8, rfl⟩
    | false => exact ⟨0xD8, rfl⟩
  | I =>
    refine Or.inr fun value => ?_
    cases value with
    | true => exact ⟨0x78, rfl⟩
    | false => exact ⟨0x58, rfl⟩

/-- A branch can come out as any value of its flag demands. -/
theorem exists_impliedFlag (takenWhen value : Bool) :
    ∃ operand : Byte, impliedFlag takenWhen (operand != 0) = value :=
  ⟨Byte.ofBool (value == takenWhen), by cases takenWhen <;> cases value <;> rfl⟩

namespace Cells

variable {β φ : Type}

theorem setRegister_register (k : Cells β φ) (r : Register) :
    k.setRegister r (k.register r) = k := by
  cases r <;> rfl

theorem setFlag_flag (k : Cells β φ) (f : Flag) : k.setFlag f (k.flag f) = k := by
  cases f <;> rfl

/-- One cell is made the same as in another prediction. -/
def copyCell (p q : Prediction) : Cell → Prediction
  | .register r => q.setRegister r (p.register r)
  | .flag f => q.setFlag f (p.flag f)

theorem look_copyCell (p q : Prediction) (c d : Cell) :
    (p.copyCell q c).look d = if d = c then p.look d else q.look d := by
  by_cases hd : d = c
  · subst hd
    rw [if_pos rfl]
    cases d with
    | register r => exact (look_setRegister q r (p.register r) _).trans (if_pos rfl)
    | flag f => exact (look_setFlag q f (p.flag f) _).trans (if_pos rfl)
  · rw [if_neg hd]
    cases c with
    | register r => exact (look_setRegister q r (p.register r) d).trans (if_neg hd)
    | flag f => exact (look_setFlag q f (p.flag f) d).trans (if_neg hd)

/-- An unknown cell is contradicted by nothing. -/
theorem mismatches_of_unknown {p : Prediction} {c : Cell} (h : p.look c = .unknown) (v : Byte) :
    p.mismatches [⟨c, v⟩] = [] := by
  rw [mismatches_eq_nil_iff, List.forall_mem_singleton, h]
  exact Knowledge.allows_unknown v

end Cells

namespace Leads

variable {settings : Settings} {p q : Prediction}

theorem setRegister {r : Register} (hr : r ≠ .S) (h : q.register r = .unknown)
    (k : Knowledge Byte) : Leads settings q (q.setRegister r k) := by
  cases k with
  | unknown =>
    rw [← h, Cells.setRegister_register]
    exact Leads.refl q
  | known b =>
    have hlook : q.look (.register r) = .unknown := h
    exact Leads.dispatch (exists_store hr) b (Cells.mismatches_of_unknown hlook b)

theorem setFlag {f : Flag} (h : q.flag f = .unknown) (k : Knowledge Bool) :
    Leads settings q (q.setFlag f k) := by
  cases k with
  | unknown =>
    rw [← h, Cells.setFlag_flag]
    exact Leads.refl q
  | known b =>
    have hlook : q.look (.flag f) = .unknown := Knowledge.map_eq_unknown_iff.mpr h
    rcases exists_branch_or_setFlag f with ⟨takenWhen, hbranch⟩ | hset
    · obtain ⟨operand, himplied⟩ := exists_impliedFlag takenWhen b
      have hlead : Leads settings q
          (q.setFlag f ((q.flag f).learn (impliedFlag takenWhen (operand != 0)))) :=
        Leads.dispatch hbranch operand (Cells.mismatches_of_unknown hlook _)
      rw [h, himplied] at hlead
      exact hlead
    · exact Leads.dispatch (hset b) 0 (Cells.mismatches_nil q)

/-- An unknown cell other than the stack pointer can be made the same as in any prediction. -/
theorem copyCell (p : Prediction) {c : Cell} (hc : c ≠ .register .S)
    (h : q.look c = .unknown) : Leads settings q (p.copyCell q c) := by
  cases c with
  | register r => exact setRegister (fun e => hc (by rw [e])) h (p.register r)
  | flag f =>
    have hflag : q.flag f = .unknown := Knowledge.map_eq_unknown_iff.mp h
    exact setFlag hflag (p.flag f)

/-- From nothing the stack pointer is learnt alone. X is learnt and copied to it, and then a
copy of the unknown accumulator forgets X again. -/
theorem setStack (k : Knowledge Byte) :
    Leads settings Cells.blank (Cells.blank.setRegister .S k) := by
  cases k with
  | unknown => exact Leads.refl _
  | known b =>
    have hlearn : Leads settings Cells.blank (Cells.blank.setRegister .X (.known b)) :=
      setRegister Register.noConfusion rfl (.known b)
    have hTXS : ∃ opcode, (Instruction.decode opcode).operation = .transfer .X .S := ⟨0x9A, rfl⟩
    have hTAX : ∃ opcode, (Instruction.decode opcode).operation = .transfer .A .X := ⟨0xAA, rfl⟩
    have hcopy : Leads settings (Cells.blank.setRegister .X (.known b))
        ((Cells.blank.setRegister .X (.known b)).setRegister .S (.known b)) :=
      Leads.dispatch hTXS 0 rfl
    have hforget : Leads settings
        ((Cells.blank.setRegister .X (.known b)).setRegister .S (.known b))
        (Cells.blank.setRegister .S (.known b)) :=
      Leads.dispatch hTAX 0 rfl
    exact (hlearn.trans hcopy).trans hforget

end Leads

/-! ### All cells -/

/-- Cells that are unknown can be made the same as in any prediction, while the others stay. -/
theorem exists_leads (settings : Settings) (p : Prediction) {cells : List Cell}
    (hnodup : cells.Nodup) (hS : Cell.register .S ∉ cells) {q : Prediction}
    (hq : ∀ c ∈ cells, q.look c = .unknown) :
    ∃ q', Leads settings q q' ∧
      ∀ c, q'.look c = if c ∈ cells then p.look c else q.look c := by
  induction cells generalizing q with
  | nil => exact ⟨q, Leads.refl q, fun c => (if_neg List.not_mem_nil).symm⟩
  | cons d cells ih =>
    obtain ⟨hd, hnodup⟩ := List.nodup_cons.mp hnodup
    have hdS : d ≠ .register .S := fun e => hS (e ▸ List.mem_cons_self)
    -- The first cell is taught while the rest stays unknown.
    have hfirst : Leads settings q (p.copyCell q d) :=
      Leads.copyCell p hdS (hq d List.mem_cons_self)
    have hrest : ∀ c ∈ cells, (p.copyCell q d).look c = .unknown := by
      intro c hc
      have hcd : c ≠ d := fun e => hd (e ▸ hc)
      rw [Cells.look_copyCell, if_neg hcd]
      exact hq c (List.mem_cons_of_mem d hc)
    obtain ⟨q', hlead, hlook⟩ := ih hnodup (fun h => hS (List.mem_cons_of_mem d h)) hrest
    refine ⟨q', hfirst.trans hlead, fun c => ?_⟩
    rw [hlook, Cells.look_copyCell]
    by_cases hc : c ∈ cells
    · rw [if_pos hc, if_pos (List.mem_cons_of_mem d hc)]
    · by_cases hcd : c = d
      · rw [if_neg hc, if_pos hcd, if_pos (List.mem_cons.mpr (Or.inl hcd))]
      · rw [if_neg hc, if_neg hcd, if_neg (List.not_mem_cons_of_ne_of_not_mem hcd hc)]

/-- Every prediction can be led to from nothing. -/
theorem leads_blank (settings : Settings) (p : Prediction) : Leads settings Cells.blank p := by
  have hunknown : ∀ c ∈ Cell.all.erase (.register .S),
      (Cells.blank.setRegister .S p.s).look c = .unknown := by
    intro c hc
    have hcS : c ≠ .register .S := fun e => absurd (e ▸ hc) (by decide)
    have hlook := Cells.look_copyCell p Cells.blank (.register .S) c
    rwa [if_neg hcS, Cells.look_blank] at hlook
  obtain ⟨q, hlead, hlook⟩ :=
    exists_leads settings p (by decide) (by decide) hunknown
  -- The stack pointer is right from the start, and the list has all other cells.
  have hq : q = p := by
    refine Cells.ext_look fun c => ?_
    rw [hlook]
    by_cases hcS : c = .register .S
    · rw [hcS, if_neg (by decide)]
      rfl
    · rw [if_pos ((List.mem_erase_of_ne hcS).mpr (Cell.mem_all c))]
  rw [← hq]
  exact (Leads.setStack p.s).trans hlead

namespace Checker

/-- Two stores that contradict each other raise a fault, and a copy of an unknown register
forgets what they told. -/
theorem after_contradiction (settings : Settings) :
    (fresh settings).after (dispatches [(0x85, 0), (0x85, 1), (0x8A, 0)]) =
      ⟨settings, ⟨Cells.blank, true⟩⟩ := rfl

/-- Whatever the settings, every state is reached from nothing by instructions alone, and
without a mismatch when no fault is pending in it. So what holds after all instructions holds
of all states. -/
theorem every_state_reachable (settings : Settings) :
    (∀ s : State, ∃ steps : List (Byte × Byte),
      (fresh settings).after (dispatches steps) = { settings := settings, state := s } ∧
        (s.fault = false → (fresh settings).mismatches (dispatches steps) = [])) ∧
      ∀ P : State → Prop,
        (∀ steps, P ((fresh settings).after (dispatches steps)).state) → ∀ s, P s := by
  have hreach : ∀ s : State, ∃ steps : List (Byte × Byte),
      (fresh settings).after (dispatches steps) = { settings := settings, state := s } ∧
        (s.fault = false → (fresh settings).mismatches (dispatches steps) = []) := by
    rintro ⟨p, fault⟩
    obtain ⟨steps, hsteps⟩ := leads_blank settings p
    cases fault with
    | false => exact ⟨steps, (hsteps false).1, fun _ => (hsteps false).2⟩
    | true =>
      refine ⟨[(0x85, 0), (0x85, 1), (0x8A, 0)] ++ steps, ?_, fun h => absurd h.symm
        Bool.false_ne_true⟩
      have hcalls : dispatches ([(0x85, 0), (0x85, 1), (0x8A, 0)] ++ steps) =
          dispatches [(0x85, 0), (0x85, 1), (0x8A, 0)] ++ dispatches steps := List.map_append
      rw [hcalls, after_append, after_contradiction]
      exact (hsteps true).1
  refine ⟨hreach, fun P hP s => ?_⟩
  obtain ⟨steps, hafter, -⟩ := hreach s
  have hs := hP steps
  rwa [hafter] at hs

end Checker

end TraceCheck
