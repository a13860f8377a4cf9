import DynvarSync.Ida.NativeFlow
import DynvarSync.Lib.Fallible
import Mathlib.Data.List.Dedup

/-! What a snapshot of the native flow chart holds: the linear sweep of every block and
the edges IDA told, and when there is a snapshot at all. -/
namespace DynvarSync.Ida
open Lib

section reciprocity
variable {β : Type} {predecessors successors : β → List Int} {blocks : Dict Int β}

/-- Both ends of every edge tell it. -/
def EdgesMatch (predecessors successors : β → List Int) (blocks : Dict Int β) : Prop :=
  ∀ id next, (∃ block, blocks.get? id = some block ∧ next ∈ successors block) ↔
    ∃ block, blocks.get? next = some block ∧ id ∈ predecessors block

theorem told_iff (edges : β → List Int) (id other : Int) :
    ((blocks.get? other).map fun block => decide (id ∈ edges block)).getD false = true ↔
      ∃ block, blocks.get? other = some block ∧ id ∈ edges block := by
  cases blocks.get? other with
  | none => simp
  | some block => simp

theorem unmatchedEdge_eq_none_iff :
    unmatchedEdge predecessors successors blocks = none ↔ EdgesMatch predecessors successors blocks := by
  rw [unmatchedEdge, List.findSome?_eq_none_iff]
  simp only [Option.or_eq_none_iff, Option.map_eq_none_iff, List.find?_eq_none, Bool.not_eq_true',
    Bool.not_eq_false, told_iff, Prod.forall, Dict.mem_entries_iff]
  constructor
  · intro h id next
    constructor
    · rintro ⟨block, hblock, hnext⟩
      exact (h id block hblock).1 next hnext
    · rintro ⟨block, hblock, hid⟩
      exact (h next block hblock).2 id hid
  · intro h id block hblock
    exact ⟨fun next hnext => (h id next).mp ⟨block, hblock, hnext⟩,
      fun previous hprevious => (h previous id).mpr ⟨block, hblock, hprevious⟩⟩

theorem validateCfgReciprocity_ok_iff (label : String) :
    validateCfgReciprocity predecessors successors blocks label = .ok () ↔
      EdgesMatch predecessors successors blocks := by
  rw [← unmatchedEdge_eq_none_iff, validateCfgReciprocity]
  cases unmatchedEdge predecessors successors blocks with
  | none => simp
  | some edge => simp

end reciprocity

@[simp] theorem mem_sortedIds (ids : List Int) (id : Int) : id ∈ sortedIds ids ↔ id ∈ ids := by
  rw [sortedIds, List.mem_mergeSort, List.mem_dedup]

theorem nodup_sortedIds (ids : List Int) : (sortedIds ids).Nodup :=
  (List.mergeSort_perm ids.dedup _).nodup_iff.mpr (List.nodup_dedup ids)

theorem nativeEdgeIds_ok_iff (known edges ids : List Int) :
    nativeEdgeIds known edges = .ok ids ↔ (∀ id ∈ edges, id ∈ known) ∧ ids = sortedIds edges := by
  rw [nativeEdgeIds]
  cases hfind : edges.find? (· ∉ known) with
  | none =>
    have hall : ∀ id ∈ edges, id ∈ known := by simpa [List.find?_eq_none] using hfind
    simp only [Except.ok.injEq]
    exact ⟨fun h => ⟨hall, h.symm⟩, fun h => h.2.symm⟩
  | some id =>
    have hid : id ∉ known := by simpa using List.find?_some hfind
    have hmem := List.mem_of_find?_eq_some hfind
    simp only [reduceCtorEq, false_iff, not_and]
    exact fun h => absurd (h id hmem) hid

theorem duplicateId_eq_none_iff (seen ids : List Int) :
    duplicateId seen ids = none ↔ ids.Nodup ∧ ∀ id ∈ ids, id ∉ seen := by
  induction ids generalizing seen with
  | nil => simp [duplicateId]
  | cons id rest ih =>
    rw [duplicateId]
    split
    · rename_i hseen
      simp only [reduceCtorEq, false_iff, not_and]
      exact fun _ h => h id (List.mem_cons_self ..) hseen
    · rename_i hnew
      rw [ih, List.nodup_cons]
      simp only [List.mem_cons, not_or, forall_eq_or_imp]
      constructor
      · rintro ⟨hnodup, hrest⟩
        exact ⟨⟨fun hid => (hrest id hid).1 rfl, hnodup⟩, hnew, fun x hx => (hrest x hx).2⟩
      · rintro ⟨⟨hid, hnodup⟩, _, hrest⟩
        refine ⟨hnodup, fun x hx => ⟨?_, hrest x hx⟩⟩
        rintro rfl
        exact hid hx

namespace Processor
variable (processor : Processor)

/-- No instruction that ends inside the block decodes here. -/
def Undecoded (endEa ea : Int) : Prop :=
  ∀ insn, processor.decodeInstruction ea = some insn → insn.size ≤ 0 ∨ endEa < ea + insn.size

/-- The instructions decoded one after the other up to the end of a block, or up to
the first address where that fails, which is kept as unknown. -/
inductive Sweeps (endEa : Int) : Int → List NativeInstructionFact → Prop
  | done {ea : Int} : endEa ≤ ea → Sweeps endEa ea []
  | decoded {ea : Int} {insn : DecodedInstruction} {rest : List NativeInstructionFact} : ea < endEa →
      processor.decodeInstruction ea = some insn → 0 < insn.size → ea + insn.size ≤ endEa →
      Sweeps endEa (ea + insn.size) rest → Sweeps endEa ea (processor.instructionFact ea insn :: rest)
  | unknown {ea : Int} : ea < endEa → processor.Undecoded endEa ea →
      Sweeps endEa ea [{ ea := ea, registerAccessKnown := false }]

variable {processor} {endEa : Int}

theorem sweep_ok_iff (blockId : Int) (budget : Nat) (ea : Int) (instructions : List NativeInstructionFact) :
    processor.sweep blockId endEa budget ea = .ok instructions ↔
      processor.Sweeps endEa ea instructions ∧ instructions.length ≤ budget := by
  induction budget generalizing ea instructions with
  | zero =>
    rw [sweep]
    split
    · rename_i hend
      rw [Except.ok.injEq]
      constructor
      · rintro rfl
        exact ⟨.done hend, le_refl _⟩
      · rintro ⟨hsweeps, hlength⟩
        exact (List.eq_nil_of_length_eq_zero (Nat.le_zero.mp hlength)).symm
    · rename_i hend
      simp only [reduceCtorEq, false_iff, not_and, Nat.le_zero, List.length_eq_zero_iff]
      rintro hsweeps rfl
      cases hsweeps with
      | done h => exact hend h
  | succ budget ih =>
    rw [sweep]
    split
    · rename_i hend
      rw [Except.ok.injEq]
      constructor
      · rintro rfl
        exact ⟨.done hend, Nat.zero_le _⟩
      · rintro ⟨hsweeps, _⟩
        cases hsweeps with
        | done _ => rfl
        | decoded h _ _ _ _ => omega
        | unknown h _ => omega
    · rename_i hend
      have hlt := Int.not_le.mp hend
      cases hinsn : processor.decodeInstruction ea with
      | none =>
        rw [Except.ok.injEq]
        constructor
        · rintro rfl
          refine ⟨.unknown hlt ?_, by simp⟩
          intro insn h
          rw [hinsn] at h
          cases h
        · rintro ⟨hsweeps, _⟩
          cases hsweeps with
          | done h => exact absurd h hend
          | decoded _ h _ _ _ =>
            rw [hinsn] at h
            cases h
          | unknown _ _ => rfl
      | some insn =>
        dsimp only
        by_cases hbad : insn.size ≤ 0 ∨ endEa < ea + insn.size
        · rw [if_pos hbad, Except.ok.injEq]
          constructor
          · rintro rfl
            refine ⟨.unknown hlt ?_, by simp⟩
            intro insn' h
            obtain rfl := Option.some.inj (hinsn.symm.trans h)
            exact hbad
          · rintro ⟨hsweeps, _⟩
            cases hsweeps with
            | done h => exact absurd h hend
            | decoded _ h hsize hfits _ =>
              obtain rfl := Option.some.inj (hinsn.symm.trans h)
              omega
            | unknown _ _ => rfl
        · rw [if_neg hbad]
          obtain ⟨hsize, hfits⟩ : 0 < insn.size ∧ ea + insn.size ≤ endEa := by omega
          constructor
          · intro h
            cases hrest : sweep processor blockId endEa budget (ea + insn.size) with
            | error text =>
              rw [hrest] at h
              cases h
            | ok rest =>
              rw [hrest] at h
              cases h
              obtain ⟨hsweeps, hlength⟩ := (ih _ _).mp hrest
              exact ⟨.decoded hlt hinsn hsize hfits hsweeps, Nat.succ_le_succ hlength⟩
          · rintro ⟨hsweeps, hlength⟩
            cases hsweeps with
            | done h => exact absurd h hend
            | decoded _ h _ _ hrest =>
              obtain rfl := Option.some.inj (hinsn.symm.trans h)
              rw [(ih _ _).mpr ⟨hrest, Nat.le_of_succ_le_succ hlength⟩]
              rfl
            | unknown _ h => exact absurd (h insn hinsn) hbad

/-- A sweep's instructions lie in the block, in the order of their addresses. -/
theorem Sweeps.sorted {ea : Int} {instructions : List NativeInstructionFact}
    (h : processor.Sweeps endEa ea instructions) :
    (instructions.map NativeInstructionFact.ea).Pairwise (· < ·) ∧
      ∀ instruction ∈ instructions, ea ≤ instruction.ea ∧ instruction.ea < endEa := by
  induction h with
  | done _ => exact ⟨.nil, by simp⟩
  | @decoded ea insn rest hlt _ hsize hfits _ ih =>
    obtain ⟨hsorted, hinside⟩ := ih
    refine ⟨List.pairwise_cons.mpr ⟨fun address haddress => ?_, hsorted⟩, ?_⟩
    · obtain ⟨instruction, hmem, rfl⟩ := List.mem_map.mp haddress
      have hle := (hinside instruction hmem).1
      change ea < instruction.ea
      omega
    · intro instruction hmem
      rcases List.mem_cons.mp hmem with rfl | hmem
      · exact ⟨le_refl _, hlt⟩
      · have := hinside instruction hmem
        omega
  | @unknown ea hlt _ =>
    refine ⟨List.pairwise_singleton .., fun instruction hmem => ?_⟩
    obtain rfl := List.mem_singleton.mp hmem
    exact ⟨le_refl _, hlt⟩

end Processor

/-- Bounds the snapshot accepts. -/
structure RawBlock.Bounded (raw : RawBlock) : Prop where
  startKnown : raw.startEa ≠ badaddr
  endKnown : raw.endEa ≠ badaddr
  nonneg : 0 ≤ raw.startEa
  ordered : raw.startEa ≤ raw.endEa

/-- What the snapshot keeps of one block. -/
structure BlockOf (processor : Processor) (known : List Int) (raw : RawBlock) (block : NativeBlockFacts) : Prop where
  bounded : raw.Bounded
  predsKnown : ∀ id ∈ raw.preds, id ∈ known
  succsKnown : ∀ id ∈ raw.succs, id ∈ known
  blockId : block.blockId = raw.id
  predecessors : block.predecessors = sortedIds raw.preds
  successors : block.successors = sortedIds raw.succs
  sweeps : processor.Sweeps raw.endEa raw.startEa block.instructions
  capped : block.instructions.length ≤ 100000

theorem nativeBlock_ok_iff (processor : Processor) (known : List Int) (raw : RawBlock) (block : NativeBlockFacts) :
    nativeBlock processor known raw = .ok block ↔ BlockOf processor known raw block := by
  rw [nativeBlock]
  split
  · rename_i hbad
    constructor
    · intro h
      cases h
    · rintro ⟨⟨hstart, hend, hnonneg, hordered⟩, _⟩
      rcases hbad with h | h | h | h
      · exact absurd h hstart
      · exact absurd h hend
      · omega
      · omega
  · rename_i hgood
    simp only [not_or, Int.not_lt] at hgood
    obtain ⟨hstart, hend, hnonneg, hordered⟩ := hgood
    simp only [bind_ok_iff, nativeEdgeIds_ok_iff, Processor.sweep_ok_iff]
    constructor
    · rintro ⟨_, ⟨hpreds, rfl⟩, _, ⟨hsuccs, rfl⟩, instructions, ⟨hsweeps, hcap⟩, h⟩
      cases h
      exact ⟨⟨hstart, hend, hnonneg, hordered⟩, hpreds, hsuccs, rfl, rfl, rfl, hsweeps, hcap⟩
    · rintro ⟨_, hpreds, hsuccs, hid, hpred, hsucc, hsweeps, hcap⟩
      refine ⟨_, ⟨hpreds, rfl⟩, _, ⟨hsuccs, rfl⟩, _, ⟨hsweeps, hcap⟩, ?_⟩
      rw [← hid, ← hpred, ← hsucc]
      rfl

/-- A snapshot of the flow chart: one block for each of IDA's, in its order, and matching edges. -/
structure SnapshotOf (processor : Processor) (rawBlocks : List RawBlock) (cfg : NativeCfg) : Prop where
  nonempty : rawBlocks ≠ []
  distinct : (rawBlocks.map RawBlock.id).Nodup
  blocks : List.Forall₂ (BlockOf processor (rawBlocks.map RawBlock.id)) rawBlocks cfg.blocks.values
  reciprocal : cfg.Reciprocal

/-- There is a snapshot exactly when IDA answers blocks with distinct ids, bounds in order, edges between these
blocks told at both ends, and at most the allowed number of instructions; it holds the linear sweep of each. -/
theorem buildNativeCfgFacts_ok_iff (processor : Processor) (flowchart : Except String (List RawBlock))
    (cfg : NativeCfg) :
    buildNativeCfgFacts processor flowchart = .ok cfg ↔
      ∃ rawBlocks, flowchart = .ok rawBlocks ∧ SnapshotOf processor rawBlocks cfg := by
  rw [buildNativeCfgFacts, bind_ok_iff]
  refine exists_congr fun rawBlocks => and_congr_right fun _ => ?_
  by_cases hempty : rawBlocks = []
  · rw [if_pos hempty]
    constructor
    · intro h
      cases h
    · exact fun h => absurd hempty h.nonempty
  rw [if_neg hempty]
  cases hduplicate : duplicateId [] (rawBlocks.map RawBlock.id) with
  | some id =>
    constructor
    · intro h
      cases h
    · intro h
      have hnone := (duplicateId_eq_none_iff [] _).mpr ⟨h.distinct, fun _ _ => List.not_mem_nil⟩
      rw [hduplicate] at hnone
      cases hnone
  | none =>
    have hdistinct := ((duplicateId_eq_none_iff [] _).mp hduplicate).1
    simp only [bind_ok_iff, mapM_ok_iff, nativeBlock_ok_iff]
    constructor
    · rintro ⟨blocks, hblocks, _, hmatch, h⟩
      cases h
      have hids : blocks.map NativeBlockFacts.blockId = rawBlocks.map RawBlock.id :=
        map_eq_of_forall₂ hblocks fun _ _ hof => hof.blockId
      refine ⟨hempty, hdistinct, ?_, (validateCfgReciprocity_ok_iff _).mp hmatch⟩
      dsimp only
      rw [Dict.values_byKey (hids ▸ hdistinct)]
      exact hblocks
    · intro h
      refine ⟨cfg.blocks.values, h.blocks, (), ?_, ?_⟩
      · rw [← Dict.eq_byKey cfg.keyed]
        exact (validateCfgReciprocity_ok_iff _).mpr h.reciprocal
      · obtain ⟨blocks, hkeyed⟩ := cfg
        exact congrArg Except.ok (NativeCfg.mk.congr_simp _ _ (Dict.eq_byKey hkeyed).symm _)

end DynvarSync.Ida
