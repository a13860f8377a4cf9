import DynvarSync.Ida.NativeRuns
import Mathlib.Data.List.Nodup
import Mathlib.Data.List.Pairwise

/-! Where the addresses of a snapshot stand: at the places that decoding reaches from the
start of a block, and at one of these if the blocks do not overlap. -/
namespace DynvarSync.Ida
open Lib

/-- No address lies in both blocks. -/
def RawBlock.Apart (a b : RawBlock) : Prop := a.endEa ≤ b.startEa ∨ b.endEa ≤ a.startEa

instance : Std.Symm RawBlock.Apart := ⟨fun _ _ h => h.symm⟩

theorem RawBlock.eq_of_apart {rawBlocks : List RawBlock} (hapart : rawBlocks.Pairwise RawBlock.Apart)
    {a b : RawBlock} (ha : a ∈ rawBlocks) (hb : b ∈ rawBlocks) {ea : Int} (hina : a.startEa ≤ ea ∧ ea < a.endEa)
    (hinb : b.startEa ≤ ea ∧ ea < b.endEa) : a = b := by
  by_contra hne
  rcases hapart.forall ha hb hne with h | h <;> omega

section chains
variable {ι : Type} {decoder : NativeDecoder ι}

theorem NativeDecoder.Chain.le {insns : List ι} {ea last : Int} (h : decoder.Chain ea insns last) : ea ≤ last := by
  induction insns generalizing ea with
  | nil => exact le_of_eq h
  | cons insn rest ih =>
    obtain ⟨_, hsize, hrest⟩ := h
    have := ih hrest
    omega

/-- The chains from one address to another are one. -/
theorem NativeDecoder.Chain.unique {insns other : List ι} {ea last : Int} (h : decoder.Chain ea insns last)
    (hother : decoder.Chain ea other last) : insns = other := by
  induction insns generalizing ea other with
  | nil =>
    cases other with
    | nil => rfl
    | cons insn other =>
      obtain ⟨_, hsize, hrest⟩ := hother
      have := hrest.le
      have : ea = last := h
      omega
  | cons insn rest ih =>
    obtain ⟨hdecode, hsize, hrest⟩ := h
    cases other with
    | nil =>
      have := hrest.le
      have : ea = last := hother
      omega
    | cons insn' other =>
      obtain ⟨hdecode', _, hrest'⟩ := hother
      obtain rfl := Option.some.inj (hdecode.symm.trans hdecode')
      rw [ih hrest hrest']

end chains

section places
variable {processor : Processor} {rawBlocks : List RawBlock} {cfg : NativeCfg}

/-- An address that decoding reaches from the start of the block. -/
def Processor.Reaches (processor : Processor) (raw : RawBlock) (count : Nat) (ea : Int) : Prop :=
  ea < raw.endEa ∧ ∃ insns, processor.nativeDecoder.Chain raw.startEa insns ea ∧ insns.length = count

/-- The instruction after some others of a sweep has the address that decoding as many reaches. -/
theorem Processor.Sweeps.at_iff {endEa start ea : Int} {instructions : List NativeInstructionFact}
    (h : processor.Sweeps endEa start instructions) (position : Nat) :
    (∃ instruction, instructions[position]? = some instruction ∧ instruction.ea = ea) ↔
      ea < endEa ∧ ∃ insns, processor.nativeDecoder.Chain start insns ea ∧ insns.length = position := by
  induction h generalizing position with
  | @done start hend =>
    refine iff_of_false (by simp) ?_
    rintro ⟨hlt, insns, hchain, _⟩
    have := hchain.le
    omega
  | @decoded start insn rest hlt hdecode hsize hfits _ ih =>
    cases position with
    | zero =>
      constructor
      · rintro ⟨instruction, hat, rfl⟩
        obtain rfl := Option.some.inj hat
        exact ⟨hlt, [], rfl, rfl⟩
      · rintro ⟨_, insns, hchain, hlength⟩
        obtain rfl := List.length_eq_zero_iff.mp hlength
        exact ⟨_, rfl, hchain⟩
    | succ position =>
      rw [List.getElem?_cons_succ, ih position]
      refine and_congr_right fun _ => ?_
      constructor
      · rintro ⟨insns, hchain, rfl⟩
        exact ⟨insn :: insns, ⟨hdecode, hsize, hchain⟩, rfl⟩
      · rintro ⟨insns, hchain, hlength⟩
        cases insns with
        | nil => cases hlength
        | cons insn' insns =>
          obtain ⟨hdecode', _, hrest⟩ := hchain
          obtain rfl := Option.some.inj (hdecode.symm.trans hdecode')
          exact ⟨insns, hrest, Nat.succ.inj hlength⟩
  | @unknown start hlt hbad =>
    cases position with
    | zero =>
      constructor
      · rintro ⟨instruction, hat, rfl⟩
        obtain rfl := Option.some.inj hat
        exact ⟨hlt, [], rfl, rfl⟩
      · rintro ⟨_, insns, hchain, hlength⟩
        obtain rfl := List.length_eq_zero_iff.mp hlength
        exact ⟨_, rfl, hchain⟩
    | succ position =>
      refine iff_of_false (by simp) ?_
      rintro ⟨hlt', insns, hchain, hlength⟩
      cases insns with
      | nil => cases hlength
      | cons insn insns =>
        obtain ⟨hdecode, hsize, hrest⟩ := hchain
        have hend := hrest.le
        change 0 < insn.size at hsize
        change start + insn.size ≤ ea at hend
        have := hbad insn hdecode
        omega

theorem SnapshotOf.mem_matchesAt_iff (h : SnapshotOf processor rawBlocks cfg) (ea : Int) (place : Int × Nat) :
    place ∈ cfg.matchesAt ea ↔ ∃ raw ∈ rawBlocks, raw.id = place.1 ∧ processor.Reaches raw place.2 ea := by
  constructor
  · intro hplace
    obtain ⟨block, instruction, hb, hat, hea⟩ := NativeCfg.exists_of_mem_matchesAt hplace
    obtain ⟨raw, hraw, hof⟩ := exists_of_forall₂_mem h.blocks ((cfg.blocks.mem_values_iff block).mpr ⟨_, hb⟩)
    have hid : raw.id = place.1 := by rw [← hof.blockId, cfg.keyed _ _ hb]
    exact ⟨raw, hraw, hid, (hof.sweeps.at_iff place.2).mp ⟨instruction, hat, hea⟩⟩
  · rintro ⟨raw, hraw, hid, hreaches⟩
    obtain ⟨block, hb, hof⟩ := h.block hraw
    obtain ⟨instruction, hat, rfl⟩ := (hof.sweeps.at_iff place.2).mpr hreaches
    have hmem := NativeCfg.mem_matchesAt hb hat
    rw [hid] at hmem
    exact hmem

theorem SnapshotOf.nodup_matchesAt (h : SnapshotOf processor rawBlocks cfg) (ea : Int) : (cfg.matchesAt ea).Nodup := by
  have hids : cfg.blocks.values.map NativeBlockFacts.blockId = rawBlocks.map RawBlock.id :=
    map_eq_of_forall₂ h.blocks fun _ _ hof => hof.blockId
  rw [NativeCfg.matchesAt, List.nodup_flatMap]
  constructor
  · intro block _
    have hpositions : ((block.instructions.zipIdx.filter fun entry => entry.1.ea = ea).map Prod.snd).Nodup := by
      refine List.Nodup.sublist (List.filter_sublist.map Prod.snd) ?_
      rw [List.zipIdx_map_snd]
      exact List.nodup_range'
    have hplaces := hpositions.map (f := Prod.mk block.blockId) fun _ _ h => (Prod.mk.inj h).2
    rw [List.map_map] at hplaces
    exact hplaces
  · have hdistinct : cfg.blocks.values.Pairwise fun a b => a.blockId ≠ b.blockId :=
      List.pairwise_map.mp (hids ▸ h.distinct)
    refine hdistinct.imp fun {a b} hne place ha hb => ?_
    obtain ⟨_, _, rfl⟩ := List.mem_map.mp ha
    obtain ⟨_, _, heq⟩ := List.mem_map.mp hb
    exact hne (Prod.mk.inj heq).1.symm

/-- In a snapshot of blocks that do not overlap, an address stands at one place, the one that decoding from the start
of its block reaches, and nowhere if no decoding reaches it. -/
theorem native_places_exact (processor : Processor) (rawBlocks : List RawBlock) (cfg : NativeCfg)
    (h : buildNativeCfgFacts processor (.ok rawBlocks) = .ok cfg) (hapart : rawBlocks.Pairwise RawBlock.Apart) (ea : Int) :
    (∀ id count, cfg.matchesAt ea = [(id, count)] ↔
      ∃ raw ∈ rawBlocks, raw.id = id ∧ processor.Reaches raw count ea) ∧
    (cfg.matchesAt ea = [] ↔ ∀ raw ∈ rawBlocks, ∀ count, ¬ processor.Reaches raw count ea) := by
  obtain ⟨_, hflow, hsnap⟩ := (buildNativeCfgFacts_ok_iff processor _ cfg).mp h
  cases hflow
  have hmem := hsnap.mem_matchesAt_iff ea
  have honly : ∀ place ∈ cfg.matchesAt ea, ∀ other ∈ cfg.matchesAt ea, other = place := by
    intro place hplace other hother
    obtain ⟨raw, hraw, hid, hlt, insns, hchain, hlength⟩ := (hmem place).mp hplace
    obtain ⟨raw', hraw', hid', hlt', insns', hchain', hlength'⟩ := (hmem other).mp hother
    obtain rfl := RawBlock.eq_of_apart hapart hraw hraw' ⟨hchain.le, hlt⟩ ⟨hchain'.le, hlt'⟩
    obtain rfl := hchain.unique hchain'
    exact Prod.ext (hid'.symm.trans hid) (hlength'.symm.trans hlength)
  refine ⟨fun id count => ?_, ?_⟩
  · rw [← hmem (id, count)]
    constructor
    · intro heq
      rw [heq]
      exact List.mem_singleton_self _
    · intro hplace
      refine List.perm_singleton.mp ((List.perm_ext_iff_of_nodup (hsnap.nodup_matchesAt ea) (List.nodup_singleton _)).mpr ?_)
      intro other
      rw [List.mem_singleton]
      exact ⟨honly _ hplace other, fun heq => heq ▸ hplace⟩
  · rw [List.eq_nil_iff_forall_not_mem]
    constructor
    · intro hnone raw hraw count hreaches
      exact hnone (raw.id, count) ((hmem _).mpr ⟨raw, hraw, rfl, hreaches⟩)
    · intro hnone place hplace
      obtain ⟨raw, hraw, _, hreaches⟩ := (hmem place).mp hplace
      exact hnone raw hraw place.2 hreaches

/-- `mov ebx, 5`, `mov esi, ecx` and a store to the frame. -/
def sampleProcessor : Processor :=
  { decodeInstruction := fun ea =>
      if ea = 0x1000 then some
        { size := 5, operands := some [{ type := .other, changed := some true }, { type := .imm, used := some true }]
          registerAccesses := some [{ accessType := .write, range := some (0, 32), regnum := 3 }] }
      else if ea = 0x1005 then some
        { size := 3, operands := some [{ type := .other, changed := some true }]
          registerAccesses := some [{ accessType := .write, range := some (0, 32), regnum := 6 }] }
      else if ea = 0x1008 then some
        { size := 4
          operands := some [{ type := .displ, changed := some true, frameOffset := some 0x10, dtypeSize := some 4 }]
          registerAccesses := some [] }
      else if ea = 0x100c then some { size := 4, registerAccesses := some [] }
      else none
    getRegName := fun register _ =>
      if register = 3 then some "ebx" else if register = 6 then some "esi" else none }

def sampleBlock : RawBlock := { id := 0, startEa := 0x1000, endEa := 0x1010 }

theorem native_places_exact_sample : ∃ cfg, buildNativeCfgFacts sampleProcessor (.ok [sampleBlock]) = .ok cfg ∧
    (∀ id count, cfg.matchesAt 0x1008 = [(id, count)] ↔
      ∃ raw ∈ [sampleBlock], raw.id = id ∧ sampleProcessor.Reaches raw count 0x1008) ∧
    (cfg.matchesAt 0x1008 = [] ↔ ∀ raw ∈ [sampleBlock], ∀ count, ¬ sampleProcessor.Reaches raw count 0x1008) := by
  cases h : buildNativeCfgFacts sampleProcessor (.ok [sampleBlock]) with
  | ok cfg =>
    exact ⟨cfg, rfl, native_places_exact sampleProcessor [sampleBlock] cfg h (List.pairwise_singleton _ _) 0x1008⟩
  | error text =>
    have hok : (buildNativeCfgFacts sampleProcessor (.ok [sampleBlock])).isOk = true := by decide +kernel
    rw [h] at hok
    cases hok

end places
end DynvarSync.Ida
