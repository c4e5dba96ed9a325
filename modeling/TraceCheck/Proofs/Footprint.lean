import TraceCheck.Proofs.Dependence
import TraceCheck.Proofs.Detection

/-!
# `TraceCheck.Proofs.Footprint`: what an instruction touches, and which instructions commute

`Operation.footprint` is a table of two lists of cells for each operation: those that it reads
and those that it writes. Reading covers everything that the checker looks at, for the value
of a cell as well as for a comparison with the observed byte. The table is a promise in both
directions. A cell that is not in the second list stays as it is (`Operation.frame`), and what
becomes of the second list, and which mismatches are logged, follows from the first
(`Operation.determined`). The observed byte is a third input, which some operations do not use
and branches use as a truth value only (`Operation.TreatsAlike`).

Two activities are independent when neither writes a cell that the other reads or writes. A
checker that takes in two independent activities does not care which comes first
(`Checker.commute_of_independent`), and from this follows, one swap after the other, that a
run may be put in another order as long as dependent activities keep theirs
(`Call.Reordered`): it leads to the same checker and logs the same events.
-/

set_option autoImplicit false

namespace TraceCheck

/-- The cells that something reads and those that it writes. -/
structure Footprint where
  /-- The cells that are read. -/
  reads : List Cell
  /-- The cells that are written. -/
  writes : List Cell
deriving DecidableEq

/-- Neither of two footprints writes a cell that is in the other. -/
structure Footprint.Independent (f g : Footprint) : Prop where
  left : ∀ c ∈ f.writes, c ∉ g.reads ∧ c ∉ g.writes
  right : ∀ c ∈ g.writes, c ∉ f.reads ∧ c ∉ f.writes

theorem Footprint.Independent.symm {f g : Footprint} (h : f.Independent g) : g.Independent f :=
  ⟨h.right, h.left⟩

instance (f g : Footprint) : Decidable (f.Independent g) :=
  decidable_of_iff ((∀ c ∈ f.writes, c ∉ g.reads ∧ c ∉ g.writes) ∧
      ∀ c ∈ g.writes, c ∉ f.reads ∧ c ∉ f.writes)
    ⟨fun h => ⟨h.1, h.2⟩, fun h => ⟨h.left, h.right⟩⟩

namespace Operation

/-- The cells that an operation reads and writes. -/
def footprint (rule : DecimalRule) : Operation → Footprint
  | load r => ⟨[], [.register r, .flag .N, .flag .Z]⟩
  | store r => ⟨[.register r], [.register r]⟩
  | push r => ⟨[.register .S, .register r], [.register .S, .register r]⟩
  | pull r => ⟨[.register .S], [.register r, .flag .N, .flag .Z, .register .S]⟩
  | pushStatus | breakInterrupt =>
    ⟨.register .S :: Flag.all.map .flag, .register .S :: Flag.all.map .flag⟩
  | pullStatus | returnInterrupt => ⟨[.register .S], .register .S :: Flag.all.map .flag⟩
  | add | subtract => ⟨rule.reads, [.register .A, .flag .N, .flag .V, .flag .Z, .flag .C]⟩
  | combine _ => ⟨[.register .A], [.register .A, .flag .N, .flag .Z]⟩
  | compare r => ⟨[.register r], [.flag .N, .flag .Z, .flag .C]⟩
  | bitTest => ⟨[.register .A], [.flag .N, .flag .V, .flag .Z]⟩
  | bitTestConstant | changeBits => ⟨[.register .A], [.flag .Z]⟩
  | shift _ t => ⟨t.cells, t.cells ++ [.flag .N, .flag .Z, .flag .C]⟩
  | rotate _ t => ⟨t.cells ++ [.flag .C], t.cells ++ [.flag .N, .flag .Z, .flag .C]⟩
  | increment t | decrement t => ⟨t.cells, t.cells ++ [.flag .N, .flag .Z]⟩
  | setFlag f _ => ⟨[], [.flag f]⟩
  | transfer source destination =>
    ⟨[.register source],
      .register destination :: if destination = .S then [] else [.flag .N, .flag .Z]⟩
  | branch f _ => ⟨[.flag f], [.flag f]⟩
  | jumpSubroutine | returnSubroutine => ⟨[.register .S], [.register .S]⟩
  | unmodeled => ⟨[], []⟩

/-- The operation makes no difference between two observed bytes. Those that work on registers
and flags alone do not use the byte, for a branch it counts whether the byte is zero, and in a
status byte six of the bits count. -/
def TreatsAlike (b b' : Byte) : Operation → Prop
  | shift _ (.register _) | rotate _ (.register _) => True
  | increment (.register _) | decrement (.register _) => True
  | setFlag _ _ | transfer _ _ | jumpSubroutine | returnSubroutine | unmodeled => True
  | branch _ _ => b = 0 ↔ b' = 0
  | pushStatus | pullStatus | returnInterrupt | breakInterrupt =>
    ∀ f : Flag, f.ofStatus b = f.ofStatus b'
  | _ => b = b'

end Operation

/-! ### The table covers the assignments -/

namespace Assignment

@[simp] theorem cell_stack (offset : Int) : (stack offset).cell = .register .S := rfl

@[simp] theorem cell_probe (operand : Byte) : (probe operand).cell = .flag .Z := rfl

@[simp] theorem map_cell_flags (g : Flag → Bool) :
    (flags g).map (·.cell) = Flag.all.map .flag := rfl

@[simp] theorem map_cell_signs (s : Source Byte) :
    (signs s).map (·.cell) = [.flag .N, .flag .Z] := rfl

@[simp] theorem map_cell_put (t : Target) (s : Source Byte) :
    (put t s).map (·.cell) = t.cells := by
  cases t <;> rfl

@[simp] theorem map_cell_result (t : Target) (s : Source Byte) :
    (result t s).map (·.cell) = [.flag .N, .flag .Z] ++ t.cells := by
  simp [result]

end Assignment

namespace Operation

/-- The cells that are written are those that are assigned. -/
theorem mem_writes_footprint {settings : Settings} {operand : Byte} {op : Operation} {c : Cell} :
    c ∈ (op.footprint settings.decimal).writes ↔ c ∈ op.writes settings operand := by
  cases op with
  | transfer source destination =>
    by_cases hS : destination = .S
    · simp [footprint, writes, assignments, hS]
    · simp [footprint, writes, assignments, hS, or_comm, or_assoc]
  | breakInterrupt =>
    -- I and D are assigned twice.
    cases hD : settings.variant.clearsDecimal <;>
      simp [footprint, writes, assignments, hD, Flag.all] <;> grind
  | _ =>
    -- The two lists have the same cells, in another order.
    simp [footprint, writes, assignments, Assignment.sum, Assignment.shifted, or_comm,
      or_left_comm, or_assoc]

/-- Whatever is computed is computed from cells that are read. -/
theorem within_reads (settings : Settings) (operand : Byte) (op : Operation) :
    Assignment.Within (· ∈ (op.footprint settings.decimal).reads)
      (op.assignments settings operand) := by
  cases op with
  | transfer source destination =>
    by_cases hS : destination = .S <;> simp [assignments, footprint, hS]
  | breakInterrupt =>
    cases hD : settings.variant.clearsDecimal <;> simp [assignments, footprint, hD]
  | _ => simp [footprint, assignments]

/-- The cells that are compared with the observed byte are read. -/
theorem mem_reads_of_mem_observed (rule : DecimalRule) {op : Operation} {c : Cell}
    (h : c ∈ op.observed) : c ∈ (op.footprint rule).reads := by
  cases op with
  | store r => exact h
  | push r => exact List.mem_cons_of_mem _ h
  | pushStatus => exact List.mem_cons_of_mem _ h
  | breakInterrupt => exact List.mem_cons_of_mem _ h
  | branch f takenWhen => exact h
  | _ => cases h

/-! ### Bytes that are treated alike -/

theorem treatsAlike_refl (b : Byte) (op : Operation) : op.TreatsAlike b b := by
  unfold TreatsAlike
  split <;> simp

namespace TreatsAlike

variable {b b' : Byte} {op : Operation}

/-- A branch is taken with the one byte when it is with the other. -/
theorem taken_eq {f : Flag} {takenWhen : Bool} (h : (branch f takenWhen).TreatsAlike b b') :
    (b != 0) = (b' != 0) := by
  rw [Bool.eq_iff_iff, bne_iff_ne, bne_iff_ne]
  exact not_congr h

theorem assignments_eq (h : op.TreatsAlike b b') (settings : Settings) :
    op.assignments settings b = op.assignments settings b' := by
  cases op with
  | shift d t | rotate d t | increment t | decrement t =>
    cases t with
    | register r => rfl
    | memory => rw [show b = b' from h]
  | branch f takenWhen => simp only [assignments, h.taken_eq]
  | pushStatus | pullStatus | returnInterrupt | breakInterrupt =>
    have hflags : (fun f : Flag => f.ofStatus b) = fun f => f.ofStatus b' := funext h
    simp only [assignments, hflags]
  | setFlag | transfer | jumpSubroutine | returnSubroutine | unmodeled => rfl
  | _ => rw [show b = b' from h]

theorem evidence_eq (h : op.TreatsAlike b b') : op.evidence b = op.evidence b' := by
  cases op with
  | branch f takenWhen => simp only [evidence, h.taken_eq]
  | pushStatus | breakInterrupt =>
    have hflags : ∀ f : Flag, f.ofStatus b = f.ofStatus b' := h
    simp only [evidence, statusEvidence, hflags]
  | store | push => rw [show b = b' from h]
  | _ => rfl

end TreatsAlike

end Operation

/-! ### The footprint decides what happens -/

/-- The same is known of all cells of a list. -/
def Cells.SameOn (R : List Cell) (p q : Prediction) : Prop := ∀ c ∈ R, p.look c = q.look c

namespace Operation

section
variable {settings : Settings} {b b' : Byte} {op : Operation} {p q : Prediction}

/-- A cell that is not written stays as it is. -/
theorem frame (hop : op.Proper) {c : Cell} (hc : c ∉ (op.footprint settings.decimal).writes) :
    (op.effect settings b p).look c = p.look c := by
  have hsource : op.source settings b c = none :=
    source_eq_none_iff.mpr fun h => hc (mem_writes_footprint.mpr h)
  rw [look_effect settings b p hop, hsource]

/-- What becomes of the cells that are written follows from those that are read. -/
theorem determined (hop : op.Proper) (hb : op.TreatsAlike b b')
    (hpq : p.SameOn (op.footprint settings.decimal).reads q) :
    (op.effect settings b p).SameOn (op.footprint settings.decimal).writes
      (op.effect settings b' q) := by
  intro c hc
  have hsame : op.source settings b' c = op.source settings b c := by
    unfold source
    rw [hb.assignments_eq]
  rw [look_effect settings b p hop, look_effect settings b' q hop, hsame]
  cases hs : op.source settings b c with
  | none => exact absurd (mem_writes_footprint.mp hc) (source_eq_none_iff.mp hs)
  | some s =>
    refine Source.value_congr fun d hd => hpq d ?_
    exact within_reads settings b op _ (Assignment.mem_of_lookup hs) d hd

/-- What is logged follows from the cells that are read. -/
theorem mismatches_determined (hb : op.TreatsAlike b b')
    (hpq : p.SameOn (op.footprint settings.decimal).reads q) :
    p.mismatches (op.evidence b) = q.mismatches (op.evidence b') := by
  rw [← hb.evidence_eq]
  refine Cells.mismatches_congr fun e he => hpq e.cell ?_
  apply mem_reads_of_mem_observed
  rw [← map_cell_evidence b]
  exact List.mem_map_of_mem he

end

end Operation

/-! ### Independent activities -/

namespace Activity

/-- The cells that an activity reads and writes. -/
def footprint (rule : DecimalRule) (a : Activity) : Footprint := a.operation.footprint rule

/-- Two activities are the same operation with bytes that it treats alike. -/
structure Alike (a b : Activity) : Prop where
  operation : a.operation = b.operation
  operand : a.operation.TreatsAlike a.operand b.operand

/-- Neither of two activities writes what the other reads or writes. -/
def Independent (rule : DecimalRule) (a b : Activity) : Prop :=
  (a.footprint rule).Independent (b.footprint rule)

instance (rule : DecimalRule) (a b : Activity) : Decidable (a.Independent rule b) :=
  inferInstanceAs (Decidable ((a.footprint rule).Independent (b.footprint rule)))

theorem alike_refl (a : Activity) : a.Alike a := ⟨rfl, a.operation.treatsAlike_refl a.operand⟩

section
variable {settings : Settings} {a b : Activity} {p q : Prediction} {c : Cell}

theorem frame (hc : c ∉ (a.footprint settings.decimal).writes) :
    (a.effect settings p).look c = p.look c :=
  Operation.frame a.proper_operation hc

theorem determined (h : a.Alike b) (hpq : p.SameOn (a.footprint settings.decimal).reads q) :
    (a.effect settings p).SameOn (a.footprint settings.decimal).writes (b.effect settings q) := by
  unfold effect
  rw [← h.operation]
  exact Operation.determined a.proper_operation h.operand hpq

theorem mismatches_determined (h : a.Alike b)
    (hpq : p.SameOn (a.footprint settings.decimal).reads q) :
    p.mismatches a.evidence = q.mismatches b.evidence := by
  unfold evidence
  rw [← h.operation]
  exact Operation.mismatches_determined h.operand hpq

namespace Independent

/-- An independent activity leaves alone what another one reads. -/
theorem sameOn_reads (h : a.Independent settings.decimal b) (p : Prediction) :
    (b.effect settings p).SameOn (a.footprint settings.decimal).reads p :=
  fun _ hd => frame fun hwritten => (h.right _ hwritten).1 hd

theorem mismatches_eq (h : a.Independent settings.decimal b) (p : Prediction) :
    (b.effect settings p).mismatches a.evidence = p.mismatches a.evidence :=
  mismatches_determined a.alike_refl (h.sameOn_reads p)

/-- Two independent activities lead to the same cells in either order. -/
theorem effect_comm (h : a.Independent settings.decimal b) (p : Prediction) :
    b.effect settings (a.effect settings p) = a.effect settings (b.effect settings p) := by
  -- A cell is written by the first activity, by the second or by neither.
  refine Cells.ext_look fun c => ?_
  by_cases ha : c ∈ (a.footprint settings.decimal).writes
  · rw [frame (h.left c ha).2]
    exact (determined a.alike_refl (h.sameOn_reads p) c ha).symm
  · rw [frame ha]
    by_cases hb : c ∈ (b.footprint settings.decimal).writes
    · exact determined b.alike_refl (sameOn_reads h.symm p) c hb
    · rw [frame hb, frame hb, frame ha]

end Independent

end

end Activity

/-! ### Independent calls in a run -/

namespace Call

/-- Two lists of calls differ in the order of independent activities only. -/
inductive Reordered (rule : DecimalRule) : List Call → List Call → Prop where
  | refl (ks : List Call) : Reordered rule ks ks
  | swap (before : List Call) {k l : Call} {a b : Activity} (later : List Call)
      (hk : k.activity = some a) (hl : l.activity = some b) (h : a.Independent rule b) :
      Reordered rule (before ++ k :: l :: later) (before ++ l :: k :: later)
  | trans {ks ls ms : List Call} (first : Reordered rule ks ls) (second : Reordered rule ls ms) :
      Reordered rule ks ms

end Call

namespace Checker

/-- Two calls that can be made in either order. -/
structure Commute (c : Checker) (k l : Call) : Prop where
  /-- They lead to the same checker. -/
  checker : ((c.call k).checker.call l).checker = ((c.call l).checker.call k).checker
  /-- The one logs what it would log without the other before it. -/
  first : ((c.call l).checker.call k).events = (c.call k).events
  /-- So does the other. -/
  second : ((c.call k).checker.call l).events = (c.call l).events

/-- Independent activities can be reported in either order. -/
theorem commute_of_independent (c : Checker) {k l : Call} {a b : Activity}
    (hk : k.activity = some a) (hl : l.activity = some b)
    (h : a.Independent c.settings.decimal b) : c.Commute k l := by
  have hevents : ∀ {k l : Call} {a b : Activity}, k.activity = some a →
      l.activity = some b → a.Independent c.settings.decimal b →
      ((c.call l).checker.call k).events = (c.call k).events := by
    intro k l a b hk hl h
    rw [events_call, events_call, cells_call]
    simp only [hk, hl]
    rw [h.mismatches_eq]
  refine ⟨?_, hevents hk hl h, hevents hl hk h.symm⟩
  rw [checker_call_of_active hl, checker_call_of_active hk, checker_call_of_active hk,
    checker_call_of_active hl]
  -- The fault is pending in either order when it was before or one of the two raised it.
  simp only [advance]
  rw [h.effect_comm, h.mismatches_eq, Activity.Independent.mismatches_eq h.symm, Bool.or_assoc,
    Bool.or_assoc, Bool.or_comm (!_)]

/-- What a run leads to, and which events it logs, does not depend on the order of
independent activities. -/
theorem after_of_reordered {ks ls : List Call} (c : Checker)
    (h : Call.Reordered c.settings.decimal ks ls) :
    c.after ks = c.after ls ∧ (c.log ks).Perm (c.log ls) := by
  induction h with
  | refl ks => exact ⟨rfl, .refl _⟩
  | @swap before k l a b later hk hl h =>
    have hcommute : (c.after before).Commute k l := by
      apply commute_of_independent _ hk hl
      rwa [settings_after]
    constructor
    · rw [after_append, after_append]
      simp only [after_cons]
      rw [hcommute.checker]
    · rw [log_append, log_append]
      simp only [log_cons]
      rw [hcommute.checker, hcommute.first, hcommute.second]
      refine .append_left _ ?_
      rw [← List.append_assoc, ← List.append_assoc]
      exact List.perm_append_comm.append_right _
  | trans _ _ ih₁ ih₂ => exact ⟨ih₁.1.trans ih₂.1, ih₁.2.trans ih₂.2⟩

/-! ### The law -/

/-- What a checker does with the activities that are reported to it, seen from their
footprints. -/
structure KeepsFootprints (c : Checker) : Prop where
  /-- Cells that are not written stay as they are. -/
  frame : ∀ k a, k.activity = some a → ∀ d, d ∉ (a.footprint c.settings.decimal).writes →
    (c.call k).checker.state.cells.look d = c.state.cells.look d
  /-- A checker that knows the same of the cells that are read comes to know the same of the
  cells that are written and logs the same mismatches. So it does with another byte, if the
  operation treats the two alike. -/
  determined : ∀ (c' : Checker) k k' a a', c'.settings = c.settings → k.activity = some a →
    k'.activity = some a' → a.Alike a' →
    c.state.cells.SameOn (a.footprint c.settings.decimal).reads c'.state.cells →
    (c.call k).checker.state.cells.SameOn (a.footprint c.settings.decimal).writes
        (c'.call k').checker.state.cells ∧
      (c.call k).mismatches = (c'.call k').mismatches
  /-- Activities of which neither writes what the other reads or writes can be reported in
  either order. -/
  commute : ∀ k l a b, k.activity = some a → l.activity = some b →
    a.Independent c.settings.decimal b → c.Commute k l
  /-- In a run they can be reordered. -/
  reordered : ∀ ks ls, Call.Reordered c.settings.decimal ks ls →
    c.after ks = c.after ls ∧ (c.log ks).Perm (c.log ls)

/-- Under all settings and from every state, an instruction and an interrupt read and write
what their footprint says and nothing else. Those with footprints that do not meet commute. -/
theorem footprints_commute (c : Checker) : c.KeepsFootprints where
  frame k a hk d hd := by
    rw [cells_call, hk]
    exact Activity.frame hd
  determined c' k k' a a' hsettings hk hk' halike hsame := by
    rw [cells_call, cells_call, mismatches_call, mismatches_call, hk, hk', hsettings]
    exact ⟨Activity.determined halike hsame, Activity.mismatches_determined halike hsame⟩
  commute k l a b hk hl h := c.commute_of_independent hk hl h
  reordered ks ls h := c.after_of_reordered h

/-- LDX and STA commute, here with a byte stored that is wrong. INX counts in the same way
whatever byte is observed of it and whatever is in the accumulator. -/
theorem footprints_commute_load_store :
    let c := (fresh { decimal := .unknownWhenDecimal }).after
      [.dispatch 0xA9 0x80, .dispatch 0xA2 0x7F]
    let c' := (fresh { decimal := .unknownWhenDecimal }).after
      [.interrupt 0xC3, .dispatch 0xA2 0x7F]
    let load : Call := .dispatch 0xA6 0x00
    let store : Call := .observe 0x8D (.data 0x7F)
    c.Commute load store ∧ (c.call store).mismatches ≠ [] ∧
    c.after [.dispatch 0x18 0x00, load, store, .dispatch 0x8A 0x00] =
      c.after [.dispatch 0x18 0x00, store, load, .dispatch 0x8A 0x00] ∧
    (c.call (.dispatch 0xE8 0x00)).checker.state.cells.SameOn
      [.register .X, .flag .N, .flag .Z] (c'.call (.dispatch 0xE8 0xFF)).checker.state.cells ∧
    (c.call (.dispatch 0xE8 0x00)).checker.state.cells.look (.flag .C) =
      c.state.cells.look (.flag .C) := by
  intro c c' load store
  have hc := footprints_commute c
  have hload : load.activity = some (.instruction 0xA6 0x00) := rfl
  have hstore : store.activity = some (.instruction 0x8D 0x7F) := by decide
  have hapart : (Activity.instruction 0xA6 0x00).Independent .unknownWhenDecimal
      (.instruction 0x8D 0x7F) := by decide
  have halike : (Activity.instruction 0xE8 0x00).Alike (.instruction 0xE8 0xFF) :=
    ⟨rfl, trivial⟩
  refine ⟨hc.commute _ _ _ _ hload hstore hapart, by decide, ?_, ?_, ?_⟩
  · exact (hc.reordered _ _ (.swap [_] [_] hload hstore hapart)).1
  · refine (hc.determined c' (.dispatch 0xE8 0x00) (.dispatch 0xE8 0xFF) _ _ rfl rfl rfl halike
      ?_).1
    exact List.forall_mem_singleton.mpr (by decide)
  · exact hc.frame (.dispatch 0xE8 0x00) _ rfl (.flag .C) (by decide)

end Checker

end TraceCheck
