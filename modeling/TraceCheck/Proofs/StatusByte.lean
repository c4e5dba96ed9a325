import TraceCheck.Proofs.Detection

/-!
# `TraceCheck.Proofs.StatusByte`: the layout of the status byte

Four places know where the flags stand in a status byte: the packed status of a prediction
(`Cells.maskedStatus`), the byte read off it once it is complete (`MaskedStatus.status`), the
write of all flags (`Cells.setStatus`), and the evidence of a pushed byte (`statusEvidence`). This
module says that they agree. A status byte is a set of flags, as long as its bits 5 and 4 are
clear: it is determined by its flags (`Byte.eq_of_ofStatus`), and it has as many ones as flags
(`Byte.cpop_eq_countP`).

The bits in which a pushed byte contradicts a packed status are computed by an exclusive or under
the mask (`MaskedStatus.disagreement`). A mismatch is found for each of them and for no other bit
(`Cells.length_mismatches_statusEvidence`): an unknown flag has a clear bit in the mask and not
just a clear bit in the byte.
-/

set_option autoImplicit false

namespace TraceCheck

/-! ### Status bytes as sets of flags -/

namespace Flag

@[simp] theorem ofStatus_and (f : Flag) (s t : Byte) :
    f.ofStatus (s &&& t) = (f.ofStatus s && f.ofStatus t) := by
  simp [ofStatus]

@[simp] theorem ofStatus_xor (f : Flag) (s t : Byte) :
    f.ofStatus (s ^^^ t) = (f.ofStatus s ^^ f.ofStatus t) := by
  simp [ofStatus]

/-- The mask of the six flags has the bit of each of them. -/
@[simp] theorem ofStatus_flags (f : Flag) : f.ofStatus 0xCF#8 = true := by
  cases f <;> rfl

/-- Each bit of a status byte belongs to a flag, but for bits 4 and 5. -/
theorem exists_bit_eq {i : Nat} (hi : i < 8) (h4 : i ≠ 4) (h5 : i ≠ 5) :
    ∃ f : Flag, f.bit = i := by
  have hcases : i = 7 ∨ i = 6 ∨ i = 3 ∨ i = 2 ∨ i = 1 ∨ i = 0 := by omega
  rcases hcases with rfl | rfl | rfl | rfl | rfl | rfl
  · exact ⟨N, rfl⟩
  · exact ⟨V, rfl⟩
  · exact ⟨D, rfl⟩
  · exact ⟨I, rfl⟩
  · exact ⟨Z, rfl⟩
  · exact ⟨C, rfl⟩

end Flag

namespace Byte

/-- Bits 4 and 5 of a byte are clear. -/
def FlagsOnly (b : Byte) : Prop := b &&& 0xCF#8 = b

theorem FlagsOnly.getLsbD_eq_false {b : Byte} (h : b.FlagsOnly) {i : Nat}
    (hi : (0xCF#8 : Byte).getLsbD i = false) : b.getLsbD i = false := by
  rw [← show b &&& 0xCF#8 = b from h, BitVec.getLsbD_and, hi, Bool.and_false]

theorem flagsOnly_and (b : Byte) : FlagsOnly (b &&& 0xCF#8) := by
  rw [FlagsOnly, BitVec.and_assoc, BitVec.and_self]

/-- A byte without bits 4 and 5 is determined by its flags. -/
theorem eq_of_ofStatus {s t : Byte} (hs : s.FlagsOnly) (ht : t.FlagsOnly)
    (h : ∀ f : Flag, f.ofStatus s = f.ofStatus t) : s = t := by
  apply BitVec.eq_of_getLsbD_eq
  intro i hi
  by_cases hunused : i = 4 ∨ i = 5
  · -- Bits 4 and 5 are clear in both bytes.
    have hclear : (0xCF#8 : Byte).getLsbD i = false := by
      rcases hunused with rfl | rfl <;> rfl
    rw [hs.getLsbD_eq_false hclear, ht.getLsbD_eq_false hclear]
  · rw [not_or] at hunused
    obtain ⟨f, rfl⟩ := Flag.exists_bit_eq hi hunused.1 hunused.2
    exact h f

/-- A byte without bits 4 and 5 has as many ones as flags. -/
theorem cpop_eq_countP {s : Byte} (hs : s.FlagsOnly) :
    s.cpop.toNat = Flag.all.countP (·.ofStatus s) := by
  have h4 := hs.getLsbD_eq_false (i := 4) rfl
  have h5 := hs.getLsbD_eq_false (i := 5) rfl
  have hite : ∀ b : Bool, (if b = true then 1 else 0) = b.toNat := by
    intro b
    cases b <;> rfl
  -- The ones are counted bit by bit, and bits 4 and 5 add nothing to them.
  rw [BitVec.toNat_cpop]
  simp only [BitVec.cpopNatRec_succ, BitVec.cpopNatRec_zero_self, h4, h5, Flag.all,
    List.countP_cons, List.countP_nil, Flag.ofStatus, Flag.bit, hite, Bool.toNat_false]
  omega

end Byte

/-! ### Packed flags -/

theorem Byte.flagsOnly_markFlag (g : Flag → Bool) {s : Byte} (hs : s.FlagsOnly) (f : Flag) :
    (markFlag g s f).FlagsOnly := by
  have hmask : f.mask.FlagsOnly := by cases f <;> rfl
  unfold markFlag
  split
  · rw [FlagsOnly, BitVec.and_comm, BitVec.and_or_distrib_left, BitVec.and_comm,
      show s &&& _ = s from hs, BitVec.and_comm, show f.mask &&& _ = _ from hmask]
  · exact hs

/-- Flags are written into no other bits. -/
theorem Byte.flagsOnly_statusOf (g : Flag → Bool) : (statusOf g).FlagsOnly := by
  unfold statusOf
  have hfold : ∀ (fs : List Flag) (s : Byte), s.FlagsOnly →
      (fs.foldl (markFlag g) s).FlagsOnly := by
    intro fs
    induction fs with
    | nil => exact fun s hs => hs
    | cons f fs ih => exact fun s hs => ih _ (flagsOnly_markFlag g hs f)
  exact hfold _ _ rfl

namespace MaskedStatus

/-- The bits in which a status byte contradicts what is known. -/
def disagreement (m : MaskedStatus) (status : Byte) : Byte := (m.bits ^^^ status) &&& m.known

/-- The byte of a complete packed status tells its flags. -/
theorem flag_of_status {m : MaskedStatus} {b : Byte} (h : m.status = some b) (f : Flag) :
    m.flag f = .known (f.ofStatus b) := by
  unfold status at h
  split at h
  · next hall =>
    obtain rfl : m.bits = b := Option.some.inj h
    exact if_pos (List.all_eq_true.mp hall f (Flag.mem_all f))
  · cases h

/-- When all six flags are known, the packed bits are the status. -/
theorem status_flags (b : Byte) : (MaskedStatus.mk b 0xCF#8).status = some b :=
  if_pos (List.all_eq_true.mpr fun f _ => f.ofStatus_flags)

/-- A status byte does not contradict its own flags, whatever it has in bits 4 and 5. -/
theorem disagreement_flags {s t : Byte} (h : t &&& 0xCF#8 = s) :
    (MaskedStatus.mk s 0xCF#8).disagreement t = 0 := by
  have hclear : ((s ^^^ t) &&& 0xCF#8).FlagsOnly := Byte.flagsOnly_and _
  refine Byte.eq_of_ofStatus hclear rfl fun f => ?_
  change f.ofStatus ((s ^^^ t) &&& 0xCF#8) = _
  rw [← h, Flag.ofStatus_and, Flag.ofStatus_xor, Flag.ofStatus_and, Flag.ofStatus_flags,
    Bool.and_true, Bool.and_true, Bool.xor_self]
  exact (Flag.ofStatus_zero f).symm

end MaskedStatus

namespace Cells

variable {p : Prediction}

theorem flagsOnly_bits (p : Prediction) : p.maskedStatus.bits.FlagsOnly :=
  Byte.flagsOnly_statusOf _

theorem flagsOnly_known (p : Prediction) : p.maskedStatus.known.FlagsOnly :=
  Byte.flagsOnly_statusOf _

/-- Unknown flags have a clear bit. -/
theorem bits_and_known (p : Prediction) :
    p.maskedStatus.bits &&& p.maskedStatus.known = p.maskedStatus.bits := by
  refine Byte.eq_of_ofStatus ?_ p.flagsOnly_bits fun f => ?_
  · rw [Byte.FlagsOnly, BitVec.and_assoc, p.flagsOnly_known]
  · rw [Flag.ofStatus_and, maskedStatus, ofStatus_statusOf, ofStatus_statusOf]
    cases p.flag f with
    | known b => cases b <;> rfl
    | unknown => rfl

theorem isSome_status_iff (p : Prediction) :
    p.maskedStatus.status.isSome ↔ ∀ f, (p.flag f).isKnown = true := by
  have hall : Flag.all.all (·.ofStatus p.maskedStatus.known) = true ↔
      ∀ f, (p.flag f).isKnown = true := by
    rw [List.all_eq_true]
    simp only [maskedStatus, ofStatus_statusOf]
    exact ⟨fun h f => h f (Flag.mem_all f), fun h f _ => h f⟩
  rw [← hall, MaskedStatus.status]
  split
  · next h => exact iff_of_true rfl h
  · next h => exact iff_of_false Bool.false_ne_true h

/-- Where the flags are those of a status byte, they are packed into that byte. -/
theorem maskedStatus_eq {b : Byte} (h : ∀ f, p.flag f = .known (f.ofStatus b)) :
    p.maskedStatus = { bits := b &&& 0xCF#8, known := 0xCF#8 } := by
  apply MaskedStatus.ext
  · refine Byte.eq_of_ofStatus p.flagsOnly_bits (Byte.flagsOnly_and b) fun f => ?_
    rw [maskedStatus, ofStatus_statusOf, h f, Flag.ofStatus_and, Flag.ofStatus_flags]
    cases f.ofStatus b <;> rfl
  · have hflags : Byte.FlagsOnly 0xCF#8 := rfl
    refine Byte.eq_of_ofStatus p.flagsOnly_known hflags fun f => ?_
    rw [maskedStatus, ofStatus_statusOf, h f, Flag.ofStatus_flags]
    rfl

/-! ### Pushed bytes -/

theorem flagsOnly_disagreement (p : Prediction) (b : Byte) :
    (p.maskedStatus.disagreement b).FlagsOnly := by
  rw [Byte.FlagsOnly, MaskedStatus.disagreement, BitVec.and_assoc, p.flagsOnly_known]

/-- A flag contributes a bit to the disagreement just when it is in conflict with the byte. -/
theorem ofStatus_disagreement (p : Prediction) (b : Byte) (f : Flag) :
    f.ofStatus (p.maskedStatus.disagreement b) =
      (p.conflict ⟨.flag f, Byte.ofBool (f.ofStatus b)⟩).isSome := by
  rw [MaskedStatus.disagreement, Flag.ofStatus_and, Flag.ofStatus_xor, maskedStatus,
    ofStatus_statusOf, ofStatus_statusOf]
  unfold conflict
  rw [look_flag]
  -- What is unknown has a clear bit in the mask, whatever the byte says.
  cases p.flag f with
  | known v => cases v <;> cases f.ofStatus b <;> rfl
  | unknown => simp

/-- A pushed byte raises a mismatch for each bit of the disagreement. -/
theorem length_mismatches_statusEvidence (p : Prediction) (b : Byte) :
    (p.mismatches (statusEvidence b)).length = (p.maskedStatus.disagreement b).cpop.toNat := by
  rw [Byte.cpop_eq_countP (p.flagsOnly_disagreement b), mismatches, statusEvidence,
    List.filterMap_map, List.length_filterMap_eq_countP]
  refine List.countP_congr fun f _ => ?_
  rw [p.ofStatus_disagreement b f]
  rfl

/-- A pushed byte raises no mismatch just when nothing disagrees. -/
theorem mismatches_statusEvidence_eq_nil_iff (p : Prediction) (b : Byte) :
    p.mismatches (statusEvidence b) = [] ↔ p.maskedStatus.disagreement b = 0 := by
  rw [← List.length_eq_zero_iff, p.length_mismatches_statusEvidence,
    Byte.cpop_eq_countP (p.flagsOnly_disagreement b), List.countP_eq_zero]
  constructor
  · intro hclear
    refine Byte.eq_of_ofStatus (p.flagsOnly_disagreement b) rfl fun f => ?_
    rw [Bool.eq_false_iff.mpr (hclear f (Flag.mem_all f))]
    exact (Flag.ofStatus_zero f).symm
  · intro hzero f _
    rw [hzero]
    simp

end Cells

/-! ### Calls that set or show the flags -/

namespace Call

/-- The call reports an instruction that leaves the flags of a byte behind. -/
inductive SetsStatus : Call → Byte → Prop where
  | pull {k : Call} {b : Byte} (h : k.Reports .PLP b) : SetsStatus k b
  | returnInterrupt {k : Call} {b : Byte} (h : k.Reports .RTI b) : SetsStatus k b
  | push {k : Call} {b : Byte} (h : k.Reports .PHP b) : SetsStatus k b

/-- The call reports that the status byte was pushed, and shows it. -/
inductive ShowsStatus : Call → Byte → Prop where
  | push {k : Call} {b : Byte} (h : k.Reports .PHP b) : ShowsStatus k b
  | breakInterrupt {k : Call} {b : Byte} (h : k.Reports .BRK b) : ShowsStatus k b
  | interrupt (b : Byte) : ShowsStatus (.interrupt b) b

variable {k : Call} {b : Byte}

theorem SetsStatus.flag (h : SetsStatus k b) (c : Checker) (f : Flag) :
    (c.call k).checker.state.cells.flag f = .known (f.ofStatus b) := by
  cases h with
  | pull h =>
    obtain ⟨mode, hcells⟩ := h.cells c
    rw [hcells]
    exact (Cells.flag_moveStack _ 1 f).trans (Cells.flag_setStatus _ b f)
  | returnInterrupt h =>
    obtain ⟨mode, hcells⟩ := h.cells c
    rw [hcells]
    exact (Cells.flag_moveStack _ 3 f).trans (Cells.flag_setStatus _ b f)
  | push h =>
    obtain ⟨mode, hcells⟩ := h.cells c
    rw [hcells]
    exact Cells.flag_setStatus _ b f

theorem ShowsStatus.mismatches (h : ShowsStatus k b) (c : Checker) :
    (c.call k).mismatches = c.state.cells.mismatches (statusEvidence b) := by
  cases h with
  | push h =>
    obtain ⟨mode, hmismatches⟩ := h.mismatches c
    exact hmismatches
  | breakInterrupt h =>
    obtain ⟨mode, hmismatches⟩ := h.mismatches c
    exact hmismatches
  | interrupt => exact c.mismatches_call (.interrupt b)

end Call

namespace Checker

/-- How a checker packs, reads, writes and checks the status byte. -/
structure StatusCoheres (c : Checker) : Prop where
  /-- The packed status says about each flag what is known of it. -/
  packed : ∀ f, c.state.cells.maskedStatus.flag f = c.state.cells.flag f
  /-- The ones of the packed status are known flags. -/
  masked : c.state.cells.maskedStatus.bits &&& c.state.cells.maskedStatus.known =
      c.state.cells.maskedStatus.bits ∧
    c.state.cells.maskedStatus.known &&& 0xCF#8 = c.state.cells.maskedStatus.known
  /-- The packed status is a byte just when all six flags are known. -/
  complete : c.state.cells.maskedStatus.status.isSome ↔
    ∀ f, (c.state.cells.flag f).isKnown = true
  /-- The byte of any packed status tells its flags. -/
  decoded : ∀ (m : MaskedStatus) b, m.status = some b → ∀ f, m.flag f = .known (f.ofStatus b)
  /-- Flags that were set from a byte are packed into that byte, without bits 4 and 5. -/
  written : ∀ b k, Call.SetsStatus k b →
    (c.call k).checker.state.cells.maskedStatus = { bits := b &&& 0xCF#8, known := 0xCF#8 }
  /-- A pushed byte raises a mismatch just when it disagrees with the packed status, and as many
  as it has bits that do. -/
  checked : ∀ b k, Call.ShowsStatus k b →
    ((c.call k).mismatches ≠ [] ↔
        (c.state.cells.maskedStatus.bits ^^^ b) &&& c.state.cells.maskedStatus.known ≠ 0) ∧
      (c.call k).mismatches.length =
        ((c.state.cells.maskedStatus.bits ^^^ b) &&&
          c.state.cells.maskedStatus.known).cpop.toNat
  /-- A pushed byte that disagrees in no bit leaves all that is known of the flags alone. The
  flags are complete then, and pushed again with any bits 4 and 5 they raise no mismatch. -/
  confirmed : ∀ (b : Byte) (k : Call), k.Reports .PHP b →
    (c.state.cells.maskedStatus.bits ^^^ b) &&& c.state.cells.maskedStatus.known = 0 →
      (∀ f v, c.state.cells.flag f = .known v →
        (c.call k).checker.state.cells.flag f = .known v) ∧
      ∃ s, (c.call k).checker.state.cells.maskedStatus.status = some s ∧
        ∀ (b' : Byte) (l : Call), b' &&& 0xCF#8 = s → l.Reports .PHP b' →
          ((c.call k).checker.call l).mismatches = []

/-- Flags are packed, read off a byte, set from a byte and compared with a byte in the same
layout, whatever is known of them. -/
theorem status_coheres (c : Checker) : c.StatusCoheres where
  packed f := Cells.flag_maskedStatus _ f
  masked := ⟨c.state.cells.bits_and_known, c.state.cells.flagsOnly_known⟩
  complete := c.state.cells.isSome_status_iff
  decoded m b h f := MaskedStatus.flag_of_status h f
  written b k hk := Cells.maskedStatus_eq (hk.flag c)
  checked b k hk := by
    rw [hk.mismatches]
    exact ⟨not_congr (c.state.cells.mismatches_statusEvidence_eq_nil_iff b),
      c.state.cells.length_mismatches_statusEvidence b⟩
  confirmed b k hk hagrees := by
    have hflags := (Call.SetsStatus.push hk).flag c
    constructor
    · intro f v hv
      rw [hflags f, Cells.eq_ofStatus_of_no_mismatch
        ((c.state.cells.mismatches_statusEvidence_eq_nil_iff b).mpr hagrees) hv]
    · have hpacked := Cells.maskedStatus_eq hflags
      refine ⟨b &&& 0xCF#8, ?_, fun b' l hb' hl => ?_⟩
      · rw [hpacked]
        exact MaskedStatus.status_flags _
      · rw [(Call.ShowsStatus.push hl).mismatches, Cells.mismatches_statusEvidence_eq_nil_iff,
          hpacked]
        exact MaskedStatus.disagreement_flags hb'

/-- `N`, `D`, `Z` and `C` are known. A pushed `0xD8` contradicts all four, and has the unknown `V`
and bit 4 besides. A pushed `0x73` confirms them, and completes the status to `0x43`. -/
theorem status_coheres_four_known :
    let c := (fresh {}).after [.dispatch 0xA9 0x00, .dispatch 0x38 0x00, .dispatch 0xD8 0x00]
    let pushed := (c.call (.dispatch 0x08 0x73)).checker
    c.state.cells.maskedStatus = { bits := 0x03, known := 0x8B } ∧
      c.state.cells.maskedStatus.flag .V = .unknown ∧
      (c.call (.interrupt 0xD8)).mismatches.length = 4 ∧
      (c.call (.dispatch 0x00 0x01)).mismatches ≠ [] ∧
      (c.call (.dispatch 0x28 0xFF)).checker.state.cells.maskedStatus =
        { bits := 0xCF, known := 0xCF } ∧
      pushed.state.cells.flag .Z = .known true ∧
      (pushed.call (.observe 0x08 (.data 0x43))).mismatches = [] := by
  intro c pushed
  have hc := status_coheres c
  have hpush : Call.Reports (.dispatch 0x08 0x73) .PHP 0x73 := ⟨0x08, rfl, by decide⟩
  have hpull : Call.Reports (.dispatch 0x28 0xFF) .PLP 0xFF := ⟨0x28, rfl, by decide⟩
  have hbreak : Call.Reports (.dispatch 0x00 0x01) .BRK 0x01 := ⟨0x00, rfl, by decide⟩
  have hagain : Call.Reports (.observe 0x08 (.data 0x43)) .PHP 0x43 :=
    ⟨0x08, rfl, by decide⟩
  obtain ⟨hkept, s, hs, hquiet⟩ := hc.confirmed _ _ hpush (by decide)
  obtain rfl : 0x43 = s := by
    have hpushed : pushed.state.cells.maskedStatus.status = some 0x43 := by decide
    exact Option.some.inj (hpushed.symm.trans hs)
  refine ⟨by decide, (hc.packed .V).trans (by decide), ?_, ?_, ?_, ?_, ?_⟩
  · exact (hc.checked _ _ (.interrupt 0xD8)).2.trans (by decide)
  · exact (hc.checked _ _ (.breakInterrupt hbreak)).1.mpr (by decide)
  · exact (hc.written _ _ (.pull hpull)).trans (by decide)
  · exact hkept .Z true (by decide)
  · exact hquiet 0x43 _ (by decide) hagain

end Checker

end TraceCheck
