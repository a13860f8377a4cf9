import Mathlib.Data.List.Basic

/-! The native proof that a stack slot still holds what its definition wrote: a linear
walk over the instructions between the definition and the current PC. -/
namespace DynvarSync.Ida

/-- What IDA answers about native instructions: decoding one at an address, its size, and
whether its stack writes are known together with the written frame intervals. -/
structure NativeDecoder (ι : Type) where
  decodeInstruction : Int → Option ι
  size : ι → Int
  nativeStackWrites : ι → Bool × List (Int × Int)

/-- The frame interval of a variable. -/
structure FrameSlot where
  start : Int
  width : Int

namespace FrameSlot

def targetEnd (slot : FrameSlot) : Int := slot.start + slot.width

def overlappedBy (slot : FrameSlot) (write : Int × Int) : Bool :=
  write.1 < slot.targetEnd && slot.start < write.1 + write.2

def coveredBy (slot : FrameSlot) (write : Int × Int) : Bool :=
  write.1 ≤ slot.start && slot.targetEnd ≤ write.1 + write.2

end FrameSlot

namespace NativeDecoder
variable {ι : Type} (decoder : NativeDecoder ι) (currentEa : Int) (slot : FrameSlot)

/-- At most `budget` more turns of the walk. -/
def walk : Nat → Int → Bool → Bool
  | 0, _, _ => false
  | budget + 1, ea, first =>
    if currentEa ≤ ea then !first
    else match decoder.decodeInstruction ea with
      | none => false
      | some insn =>
        if decoder.size insn ≤ 0 then false
        else
          let (known, writes) := decoder.nativeStackWrites insn
          let overlaps := writes.filter slot.overlappedBy
          if !known then false
          else if first then
            if !overlaps.any slot.coveredBy then false else walk budget (ea + decoder.size insn) false
          else if !overlaps.isEmpty then false
          else walk budget (ea + decoder.size insn) false

/-- Require one exact native stack write and no later possible overwrite. -/
def stackDefinitionRemainsValid (definitionEa currentEa idaStackOffset width : Int) : Bool :=
  decoder.walk currentEa { start := idaStackOffset, width := width } 4096 definitionEa true

/-- Instructions decoded one after the other, from one address up to another. -/
def Chain : Int → List ι → Int → Prop
  | ea, [], last => ea = last
  | ea, insn :: rest, last =>
    decoder.decodeInstruction ea = some insn ∧ 0 < decoder.size insn ∧ Chain (ea + decoder.size insn) rest last

/-- The addresses at which the instructions of a chain start. -/
def starts : Int → List ι → List Int
  | _, [] => []
  | ea, insn :: rest => ea :: starts (ea + decoder.size insn) rest

/-- The writes of the instruction are known and leave the slot alone. -/
def Spares (insn : ι) : Prop :=
  (decoder.nativeStackWrites insn).1 = true ∧
    ∀ write ∈ (decoder.nativeStackWrites insn).2, slot.overlappedBy write = false

/-- The writes of the instruction are known and one of them fills the whole slot. -/
def Defines (insn : ι) : Prop :=
  (decoder.nativeStackWrites insn).1 = true ∧
    ∃ write ∈ (decoder.nativeStackWrites insn).2, slot.coveredBy write = true

/-- What one turn of the walk asks of an instruction. -/
def Passes (first : Bool) (insn : ι) : Prop :=
  if first then decoder.Defines slot insn else decoder.Spares slot insn

variable {slot} in
theorem coveredBy_overlaps (hwidth : 1 ≤ slot.width) {write : Int × Int} (h : slot.coveredBy write = true) :
    slot.overlappedBy write = true := by
  rw [FrameSlot.coveredBy, Bool.and_eq_true, decide_eq_true_eq, decide_eq_true_eq] at h
  rw [FrameSlot.overlappedBy, Bool.and_eq_true, decide_eq_true_eq, decide_eq_true_eq]
  obtain ⟨hstart, hend⟩ := h
  rw [FrameSlot.targetEnd] at hend ⊢
  omega

theorem walk_succ (hwidth : 1 ≤ slot.width) (budget : Nat) (ea : Int) (first : Bool) :
    decoder.walk currentEa slot (budget + 1) ea first = true ↔
      currentEa ≤ ea ∧ first = false ∨
        ea < currentEa ∧ ∃ insn, decoder.decodeInstruction ea = some insn ∧ 0 < decoder.size insn ∧
          decoder.Passes slot first insn ∧
          decoder.walk currentEa slot budget (ea + decoder.size insn) false = true := by
  rw [walk]
  by_cases hend : currentEa ≤ ea
  · rw [if_pos hend]
    simp [hend, Int.not_lt.mpr hend]
  · rw [if_neg hend]
    cases hinsn : decoder.decodeInstruction ea with
    | none => simp [hend]
    | some insn =>
      dsimp only
      by_cases hsize : decoder.size insn ≤ 0
      · simp [hend, hsize, Int.not_lt.mpr hsize]
      · have hpasses : decoder.Passes slot first insn ↔ (decoder.nativeStackWrites insn).1 = true ∧
            if first then ((decoder.nativeStackWrites insn).2.filter slot.overlappedBy).any slot.coveredBy = true
            else ((decoder.nativeStackWrites insn).2.filter slot.overlappedBy).isEmpty = true := by
          unfold Passes Defines Spares
          cases first with
          | false => simp [List.filter_eq_nil_iff]
          | true =>
            simp only [if_true, List.any_eq_true, List.mem_filter]
            refine and_congr_right fun _ => exists_congr fun write => ?_
            constructor
            · exact fun h => ⟨⟨h.1, coveredBy_overlaps hwidth h.2⟩, h.2⟩
            · exact fun h => ⟨h.1.1, h.2⟩
        rw [if_neg hsize]
        simp only [hend, false_and, false_or, Int.not_le.mp hend, true_and, Option.some.injEq, exists_eq_left',
          Int.not_le.mp hsize, hpasses]
        cases (decoder.nativeStackWrites insn).1 with
        | false => simp
        | true =>
          cases first with
          | false =>
            cases ((decoder.nativeStackWrites insn).2.filter slot.overlappedBy).isEmpty <;> simp
          | true =>
            cases ((decoder.nativeStackWrites insn).2.filter slot.overlappedBy).any slot.coveredBy <;> simp

/-- The turns after the first follow a chain of instructions that spare the slot. -/
theorem walk_later (hwidth : 1 ≤ slot.width) (budget : Nat) (ea : Int) :
    decoder.walk currentEa slot budget ea false = true ↔
      ∃ insns last, decoder.Chain ea insns last ∧ (∀ start ∈ decoder.starts ea insns, start < currentEa) ∧
        currentEa ≤ last ∧ insns.length < budget ∧ ∀ insn ∈ insns, decoder.Spares slot insn := by
  induction budget generalizing ea with
  | zero => exact iff_of_false Bool.false_ne_true fun ⟨_, _, _, _, _, h, _⟩ => absurd h (Nat.not_lt_zero _)
  | succ budget ih =>
    rw [walk_succ decoder currentEa slot hwidth]
    constructor
    · rintro (⟨hend, _⟩ | ⟨hbelow, insn, hinsn, hsize, hspares, hwalk⟩)
      · exact ⟨[], ea, rfl, nofun, hend, Nat.succ_pos _, nofun⟩
      · obtain ⟨insns, last, hchain, hstarts, hend, hlength, hrest⟩ := (ih _).mp hwalk
        refine ⟨insn :: insns, last, ⟨hinsn, hsize, hchain⟩, ?_, hend, Nat.succ_lt_succ hlength, ?_⟩
        · exact List.forall_mem_cons.mpr ⟨hbelow, hstarts⟩
        · exact List.forall_mem_cons.mpr ⟨hspares, hrest⟩
    · rintro ⟨insns, last, hchain, hstarts, hend, hlength, hspares⟩
      cases insns with
      | nil => exact .inl ⟨hchain ▸ hend, rfl⟩
      | cons insn insns =>
        obtain ⟨hinsn, hsize, hchain⟩ := hchain
        obtain ⟨hbelow, hstarts⟩ := List.forall_mem_cons.mp hstarts
        obtain ⟨hfirst, hrest⟩ := List.forall_mem_cons.mp hspares
        exact .inr ⟨hbelow, insn, hinsn, hsize, hfirst,
          (ih _).mpr ⟨insns, last, hchain, hstarts, hend, Nat.lt_of_succ_lt_succ hlength, hrest⟩⟩

/-- A stack definition stays valid exactly when the instructions decoded from it, followed while they start below the
current PC, reach or pass it after at most 4095 of them; the first fills the slot and the later ones spare it. -/
theorem stackDefinition_valid_iff (definitionEa currentEa idaStackOffset width : Int) (hwidth : 1 ≤ width) :
    let slot : FrameSlot := { start := idaStackOffset, width := width }
    decoder.stackDefinitionRemainsValid definitionEa currentEa idaStackOffset width = true ↔
      ∃ first rest last, decoder.Chain definitionEa (first :: rest) last ∧
        (∀ start ∈ decoder.starts definitionEa (first :: rest), start < currentEa) ∧ currentEa ≤ last ∧
        (first :: rest).length ≤ 4095 ∧ decoder.Defines slot first ∧ ∀ insn ∈ rest, decoder.Spares slot insn := by
  intro slot
  rw [stackDefinitionRemainsValid, walk_succ decoder currentEa slot hwidth]
  constructor
  · rintro (⟨_, hfirst⟩ | ⟨hbelow, first, hinsn, hsize, hdefines, hwalk⟩)
    · cases hfirst
    · obtain ⟨rest, last, hchain, hstarts, hend, hlength, hspares⟩ :=
        (decoder.walk_later currentEa slot hwidth _ _).mp hwalk
      refine ⟨first, rest, last, ⟨hinsn, hsize, hchain⟩, ?_, hend, Nat.succ_le_of_lt hlength, hdefines, hspares⟩
      exact List.forall_mem_cons.mpr ⟨hbelow, hstarts⟩
  · rintro ⟨first, rest, last, ⟨hinsn, hsize, hchain⟩, hstarts, hend, hlength, hdefines, hspares⟩
    obtain ⟨hbelow, hstarts⟩ := List.forall_mem_cons.mp hstarts
    refine .inr ⟨hbelow, first, hinsn, hsize, hdefines, (decoder.walk_later currentEa slot hwidth _ _).mpr ?_⟩
    exact ⟨rest, last, hchain, hstarts, hend, Nat.lt_of_succ_le hlength, hspares⟩

end NativeDecoder

/-- One instruction of four bytes, writing eight bytes of the frame. -/
def sampleDecoder : NativeDecoder Unit :=
  { decodeInstruction := fun ea => if ea = 0x1000 then some () else none
    size := fun _ => 4
    nativeStackWrites := fun _ => (true, [(0x20, 8)]) }

theorem stackDefinition_valid_iff_sample :
    ∃ first rest last, sampleDecoder.Chain 0x1000 (first :: rest) last ∧
      (∀ start ∈ sampleDecoder.starts 0x1000 (first :: rest), start < 0x1004) ∧ 0x1004 ≤ last ∧
      (first :: rest).length ≤ 4095 ∧ sampleDecoder.Defines { start := 0x20, width := 4 } first ∧
      ∀ insn ∈ rest, sampleDecoder.Spares { start := 0x20, width := 4 } insn :=
  (sampleDecoder.stackDefinition_valid_iff 0x1000 0x1004 0x20 4 (by decide)).mp (by decide)

/-- The walk accepts a current PC in the middle of the defining instruction, which no chain reaches. -/
theorem stackDefinition_passes_current :
    ¬ ∀ (decoder : NativeDecoder Unit) (definitionEa currentEa idaStackOffset width : Int), 1 ≤ width →
      (decoder.stackDefinitionRemainsValid definitionEa currentEa idaStackOffset width = true ↔
        ∃ first rest, decoder.Chain definitionEa (first :: rest) currentEa ∧ (first :: rest).length ≤ 4095 ∧
          decoder.Defines { start := idaStackOffset, width := width } first ∧
          ∀ insn ∈ rest, decoder.Spares { start := idaStackOffset, width := width } insn) := by
  intro h
  obtain ⟨first, rest, ⟨hfirst, _, hchain⟩, _⟩ :=
    (h sampleDecoder 0x1000 0x1002 0x20 4 (by decide)).mp (by decide)
  cases rest with
  | nil =>
    cases first
    exact absurd (show (0x1004 : Int) = 0x1002 from hchain) (by decide)
  | cons insn rest => cases hchain.1

end DynvarSync.Ida
