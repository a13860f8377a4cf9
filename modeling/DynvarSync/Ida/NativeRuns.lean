import DynvarSync.Ida.NativeSnapshot

/-! Runs of the machine over IDA's flow chart. If the processor module declares every
register bit an instruction changes, the snapshot's graph follows each run. -/
namespace DynvarSync.Ida
open Lib Windbg

namespace Processor
variable (processor : Processor)

/-- The access writes a range of a register the recovery knows. -/
structure WritesRange (access : RegisterAccess) (entry : RegisterAlias) (bitOffset bitSize : Int) : Prop where
  writes : access.accessType ≠ .read
  range : access.range = some (bitOffset, bitSize)
  named : ∃ name, processor.getRegName access.regnum (max 1 ((bitSize + 7) / 8)) = some name ∧
    normalizeRegisterAlias name = some entry

/-- The bits of a full register that a declared access changes: its range, the range counted from the second
byte where such a byte is named, and the upper half after a write of the lower one. -/
inductive Declared (access : RegisterAccess) (register : String) (k : Nat) : Prop
  | inRange {entry : RegisterAlias} {bitOffset bitSize : Int} : processor.WritesRange access entry bitOffset bitSize →
      entry.fullRegister = register → entry.bitOffset = 0 ∨ bitOffset ≠ 0 → bitOffset ≤ k → k < bitOffset + bitSize →
      Declared access register k
  | secondByte {entry : RegisterAlias} {bitSize : Int} : processor.WritesRange access entry 0 bitSize →
      entry.fullRegister = register → entry.bitOffset ≤ k → k < entry.bitOffset + bitSize → Declared access register k
  | upperHalf {entry : RegisterAlias} : processor.WritesRange access entry 0 32 → entry.fullRegister = register →
      entry.bitOffset = 0 → 32 ≤ k → k < 64 → Declared access register k

/-- Every register bit an instruction changes is declared, calls apart. -/
def DeclaresWrites (step : DecodedInstruction → Machine → Machine → Prop) : Prop :=
  ∀ insn m m' accesses, step insn m m' → insn.registerAccesses = some accesses → insn.isCall = some false →
    ∀ register k, (m'.registers register).getLsbD k ≠ (m.registers register).getLsbD k →
      ∃ access ∈ accesses, processor.Declared access register k

variable {processor}

theorem WritesRange.accessWrites {access : RegisterAccess} {entry : RegisterAlias} {bitOffset bitSize : Int}
    (h : processor.WritesRange access entry bitOffset bitSize) {writes : List RegisterWrite}
    (hwrites : processor.accessWrites access = some writes) : writes = [physicalWrite entry bitOffset bitSize] := by
  obtain ⟨name, hname, hentry⟩ := h.named
  rw [Processor.accessWrites, if_neg h.writes, h.range] at hwrites
  dsimp only at hwrites
  split at hwrites
  · cases hwrites
  · rw [hname, Option.map_some, hentry] at hwrites
    exact (Option.some.inj hwrites).symm

/-- A declared bit lies in the write the recovery computes for the access. -/
theorem Declared.includes {access : RegisterAccess} {register : String} {k : Nat}
    (h : processor.Declared access register k) {writes : List RegisterWrite}
    (hwrites : processor.accessWrites access = some writes) :
    ∃ write ∈ writes, write.fullRegister = register ∧ write.includes k := by
  cases h with
  | @inRange entry bitOffset bitSize hrange hfull hoffset hlow hhigh =>
    obtain rfl := hrange.accessWrites hwrites
    refine ⟨_, List.mem_singleton_self _, hfull, ?_⟩
    have hkeep : ¬ (bitOffset = 0 ∧ entry.bitOffset ≠ 0) := by
      rintro ⟨hzero, hne⟩
      rcases hoffset with h | h
      · exact hne h
      · exact h hzero
    simp only [RegisterWrite.includes, physicalWrite, if_neg hkeep]
    refine ⟨hlow, ?_⟩
    split
    · rename_i hwide
      omega
    · exact hhigh
  | @secondByte entry bitSize hrange hfull hlow hhigh =>
    obtain rfl := hrange.accessWrites hwrites
    refine ⟨_, List.mem_singleton_self _, hfull, ?_⟩
    simp only [RegisterWrite.includes, physicalWrite, true_and]
    by_cases hzero : entry.bitOffset = 0
    · rw [if_neg (not_not.mpr hzero)]
      rw [hzero] at hlow hhigh
      refine ⟨hlow, ?_⟩
      split
      · rename_i hwide
        omega
      · exact hhigh
    · rw [if_pos hzero, if_neg (fun h => hzero h.1)]
      exact ⟨hlow, hhigh⟩
  | @upperHalf entry hrange hfull hzero hlow hhigh =>
    obtain rfl := hrange.accessWrites hwrites
    refine ⟨_, List.mem_singleton_self _, hfull, ?_⟩
    have hplaced : entry.toRegisterSpec.Placed := by
      obtain ⟨name, _, hentry⟩ := hrange.named
      exact normalizeRegisterAlias_placed hentry
    simp only [RegisterWrite.includes, physicalWrite, hzero, ne_eq, not_true_eq_false, and_false, if_false,
      hplaced.known, and_true, if_true]
    omega

/-- The fact kept of an instruction tells all it may change, if the processor module does. -/
theorem executes_instructionFact {step : DecodedInstruction → Machine → Machine → Prop}
    (hstep : processor.DeclaresWrites step) {insn : DecodedInstruction} {m m' : Machine} (h : step insn m m')
    (ea : Int) : NativeCfg.Executes (processor.instructionFact ea insn) m m' := by
  intro hknown hcall register k hout
  have hsplit : (processor.registerWrites insn).1 = true ∧ insn.isCall.isSome = true := by
    simpa [instructionFact] using hknown
  have hnocall : insn.isCall = some false := by
    cases hc : insn.isCall with
    | none =>
      rw [hc] at hsplit
      cases hsplit.2
    | some isCall =>
      change insn.isCall.getD false = false at hcall
      rw [hc] at hcall
      exact congrArg some hcall
  change ∀ write ∈ (processor.registerWrites insn).2, _ at hout
  rw [registerWrites] at hout
  have hregisters := hsplit.1
  rw [registerWrites] at hregisters
  cases hmap : insn.registerAccesses.bind fun accesses => accesses.mapM processor.accessWrites with
  | none =>
    rw [hmap] at hregisters
    cases hregisters
  | some writes =>
    rw [hmap] at hout
    obtain ⟨accesses, haccesses, hwrites⟩ := Option.bind_eq_some_iff.mp hmap
    by_contra hchanged
    obtain ⟨access, haccess, hdeclared⟩ := hstep insn m m' accesses h haccesses hnocall register k hchanged
    obtain ⟨some', hsome, hof⟩ := exists_of_forall₂_mem (mapM_some_iff.mp hwrites).flip haccess
    obtain ⟨write, hwrite, hfull, hincludes⟩ := hdeclared.includes hof
    exact hout write (List.mem_flatten.mpr ⟨some', hsome, hwrite⟩) hfull hincludes

end Processor

/-- Executed addresses with the machines they left, newest first, from the start of a block up to an address of
one: IDA's instructions one after the other, or anything at all where none decodes. -/
inductive NativeRun (processor : Processor) (step : DecodedInstruction → Machine → Machine → Prop)
    (rawBlocks : List RawBlock) : List (Int × Machine) → Int × Int → Machine → Prop
  | start {raw : RawBlock} (m : Machine) : raw ∈ rawBlocks →
      NativeRun processor step rawBlocks [] (raw.id, raw.startEa) m
  | execute {executed : List (Int × Machine)} {raw : RawBlock} {ea : Int} {insn : DecodedInstruction}
      {m m' : Machine} : NativeRun processor step rawBlocks executed (raw.id, ea) m → raw ∈ rawBlocks →
      ea < raw.endEa → processor.decodeInstruction ea = some insn → 0 < insn.size → ea + insn.size ≤ raw.endEa →
      step insn m m' → NativeRun processor step rawBlocks ((ea, m') :: executed) (raw.id, ea + insn.size) m'
  | undecoded {executed : List (Int × Machine)} {raw : RawBlock} {ea : Int} {m : Machine} (m' : Machine) :
      NativeRun processor step rawBlocks executed (raw.id, ea) m → raw ∈ rawBlocks → ea < raw.endEa →
      processor.Undecoded raw.endEa ea →
      NativeRun processor step rawBlocks ((ea, m') :: executed) (raw.id, raw.endEa) m'
  | enter {executed : List (Int × Machine)} {raw next : RawBlock} {m : Machine} :
      NativeRun processor step rawBlocks executed (raw.id, raw.endEa) m → raw ∈ rawBlocks → next ∈ rawBlocks →
      next.id ∈ raw.succs → NativeRun processor step rawBlocks executed (next.id, next.startEa) m

section follow
variable {processor : Processor} {step : DecodedInstruction → Machine → Machine → Prop}
  {rawBlocks : List RawBlock} {cfg : NativeCfg}

theorem SnapshotOf.block (h : SnapshotOf processor rawBlocks cfg) {raw : RawBlock} (hraw : raw ∈ rawBlocks) :
    ∃ block, cfg.blocks.get? raw.id = some block ∧ BlockOf processor (rawBlocks.map RawBlock.id) raw block := by
  obtain ⟨block, hmem, hof⟩ := exists_of_forall₂_mem h.blocks.flip hraw
  obtain ⟨id, hid⟩ := (cfg.blocks.mem_values_iff block).mp hmem
  have hkey := cfg.keyed id block hid
  rw [hof.blockId] at hkey
  exact ⟨block, hkey ▸ hid, hof⟩

/-- A point of the graph that stands at an address of a block: what is left to execute there is what the sweep
finds from the address on. -/
def StandsAt (processor : Processor) (rawBlocks : List RawBlock) (cfg : NativeCfg) (id ea : Int)
    (position : Nat) : Prop :=
  ∃ raw ∈ rawBlocks, raw.id = id ∧ ∃ block, cfg.blocks.get? id = some block ∧
    position ≤ block.instructions.length ∧ processor.Sweeps raw.endEa ea (block.instructions.drop position)

theorem StandsAt.block {raw : RawBlock} {ea : Int} {position : Nat} (hsnap : SnapshotOf processor rawBlocks cfg)
    (hraw : raw ∈ rawBlocks) (h : StandsAt processor rawBlocks cfg raw.id ea position) :
    ∃ block, cfg.blocks.get? raw.id = some block ∧ BlockOf processor (rawBlocks.map RawBlock.id) raw block ∧
      position ≤ block.instructions.length ∧ processor.Sweeps raw.endEa ea (block.instructions.drop position) := by
  obtain ⟨raw', hraw', hid, block, hblock, hle, hsweeps⟩ := h
  obtain rfl := List.inj_on_of_nodup_map hsnap.distinct hraw' hraw hid
  obtain ⟨block', hblock', hof⟩ := hsnap.block hraw
  rw [hblock] at hblock'
  cases hblock'
  exact ⟨block, hblock, hof, hle, hsweeps⟩

theorem StandsAt.of_drop {raw : RawBlock} {ea : Int} {position : Nat} {block : NativeBlockFacts}
    {instruction : NativeInstructionFact} {rest : List NativeInstructionFact} (hraw : raw ∈ rawBlocks)
    (hb : cfg.blocks.get? raw.id = some block) (hdrop : block.instructions.drop position = instruction :: rest)
    (hsweeps : processor.Sweeps raw.endEa ea rest) :
    block.instructions[position]? = some instruction ∧
      StandsAt processor rawBlocks cfg raw.id ea (position + 1) := by
  have hat : block.instructions[position]? = some instruction := by
    rw [← List.head?_drop, hdrop]
    rfl
  have hlt : position < block.instructions.length := (List.getElem?_eq_some_iff.mp hat).1
  have hnext : block.instructions.drop (position + 1) = rest := by
    rw [← List.tail_drop, hdrop]
    rfl
  exact ⟨hat, raw, hraw, rfl, block, hb, hlt, hnext ▸ hsweeps⟩

/-- The graph of a snapshot follows every run, instruction by instruction. -/
theorem NativeRun.trace (hsnap : SnapshotOf processor rawBlocks cfg) (hstep : processor.DeclaresWrites step)
    {executed : List (Int × Machine)} {place : Int × Int} {m : Machine}
    (h : NativeRun processor step rawBlocks executed place m) :
    ∃ executions position, NativeCfg.Trace cfg executions (place.1, position) m ∧
      executions.map (fun e => (e.instruction.ea, e.after)) = executed ∧
      StandsAt processor rawBlocks cfg place.1 place.2 position := by
  induction h with
  | @start raw m hraw =>
    obtain ⟨block, hblock, hof⟩ := hsnap.block hraw
    exact ⟨[], 0, .start _ m, rfl, raw, hraw, rfl, block, hblock, Nat.zero_le _, hof.sweeps⟩
  | @execute executed raw ea insn m m' _ hraw hlt hdecode hsize hfits hexec ih =>
    obtain ⟨executions, position, htrace, hmap, hstands⟩ := ih
    obtain ⟨block, hblock, _, _, hsweeps⟩ := hstands.block hsnap hraw
    generalize hdrop : block.instructions.drop position = left at hsweeps
    cases hsweeps with
    | done hend => omega
    | unknown _ hbad =>
      have := hbad insn hdecode
      omega
    | decoded _ hdecode' _ _ hrest =>
      obtain rfl := Option.some.inj (hdecode.symm.trans hdecode')
      obtain ⟨hat, hnext⟩ := StandsAt.of_drop hraw hblock hdrop hrest
      refine ⟨_, position + 1, .execute htrace hblock hat (processor.executes_instructionFact hstep hexec ea), ?_, hnext⟩
      rw [List.map_cons, hmap]
      rfl
  | @undecoded executed raw ea m m' _ hraw hlt hbad ih =>
    obtain ⟨executions, position, htrace, hmap, hstands⟩ := ih
    obtain ⟨block, hblock, _, _, hsweeps⟩ := hstands.block hsnap hraw
    generalize hdrop : block.instructions.drop position = left at hsweeps
    cases hsweeps with
    | done hend => omega
    | decoded _ hdecode hsize hfits _ =>
      have := hbad _ hdecode
      omega
    | unknown _ _ =>
      obtain ⟨hat, hnext⟩ := StandsAt.of_drop hraw hblock hdrop (.done (le_refl raw.endEa))
      refine ⟨_, position + 1, .execute htrace hblock hat ?_, ?_, hnext⟩
      · intro hknown
        cases hknown
      · rw [List.map_cons, hmap]
  | @enter executed raw next m _ hraw hnext hedge ih =>
    obtain ⟨executions, position, htrace, hmap, hstands⟩ := ih
    obtain ⟨block, hblock, hof, hle, hsweeps⟩ := hstands.block hsnap hraw
    obtain ⟨successor, hsuccessor, hnextOf⟩ := hsnap.block hnext
    have hend : position = block.instructions.length := by
      generalize hdrop : block.instructions.drop position = left at hsweeps
      cases hsweeps with
      | done _ => exact le_antisymm hle (List.drop_eq_nil_iff.mp hdrop)
      | decoded hlt _ _ _ _ => exact absurd hlt (lt_irrefl _)
      | unknown hlt _ => exact absurd hlt (lt_irrefl _)
    have hsucc : next.id ∈ block.successors := by
      rw [hof.successors, mem_sortedIds]
      exact hedge
    obtain ⟨successor', hsuccessor', hpred⟩ := (hsnap.reciprocal raw.id next.id).mp ⟨block, hblock, hsucc⟩
    rw [hsuccessor] at hsuccessor'
    cases hsuccessor'
    refine ⟨executions, 0, .enter (hend ▸ htrace) hblock hsuccessor hsucc hpred, hmap, ?_⟩
    exact ⟨next, hnext, rfl, successor, hsuccessor, Nat.zero_le _, hnextOf.sweeps⟩

end follow
end DynvarSync.Ida
