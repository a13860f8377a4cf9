import DynvarSync.Ida.MicroRuns
import DynvarSync.Ida.ProvenEvidence
import DynvarSync.Ida.StackRuns
import DynvarSync.Ida.RequestShapes
import DynvarSync.Ida.VRecoveryMachine

/-! What the rows of a mapped PC show when the analysis of the microcode proposed the
evidence and the debugged machine answered the reads. -/
namespace DynvarSync.Ida
open Lib Windbg VVariableRecovery

/-- The rows of a context after the machine has answered its register read and, in any order, its memory reads. -/
def AnsweredRows (m : Machine) (opened : VVariableRecovery × Option Request)
    (records : Dict Int VVariableRecoveryRecord) : Prop :=
  ∃ order, order.Perm (answerRegisters m opened).2 ∧
    records = (answerMemory m (answerRegisters m opened).1 order).records

section rows
variable {ι : Type} {host : AnalysisHost ι} {functionEa currentEa : Int} {cfunc : Option (MicroCfunc ι)}
  {lvars : List VariableRecord} {selection : Option (List Int)}

/-- The evidence for the locals that are to be analysed. -/
def evidenceFor (host : AnalysisHost ι) (functionEa currentEa : Int) (cfunc : Option (MicroCfunc ι))
    (lvars : List VariableRecord) (selection : Option (List Int)) : Dict Int RecoveryEvidence :=
  (host.analyzeVVariableCandidates functionEa currentEa ((localVariables lvars).filter fun lvar =>
    lvar.lvarIndex ∈ selectedIndexes lvars selection) cfunc).evidenceByIndex

/-- A variable with evidence behind it, at the point its analysis opened. -/
structure Backed (host : AnalysisHost ι) (functionEa currentEa : Int) (cfunc : Option (MicroCfunc ι))
    (lvar : VariableRecord) (evidence : RecoveryEvidence) (point : AnalysisPoint ι) (target : MicroLvar) : Prop where
  opened : host.openPoint functionEa currentEa cfunc = .ok (some point)
  recovered : Recovered host point lvar evidence target

/-- Every row with evidence behind it shows what the answers of the machine make of the evidence. -/
theorem shown_row (m : Machine) (s : VVariableRecovery) (runtimePc : String) (pcSeq : Int)
    (hnodup : (lvars.map VariableRecord.lvarIndex).Nodup) {records : Dict Int VVariableRecoveryRecord}
    (hrows : AnsweredRows m
      (s.beginPc (host.provider cfunc) lvars functionEa currentEa runtimePc pcSeq selection) records)
    {lvar : VariableRecord} (hlvar : lvar ∈ localVariables lvars) {evidence : RecoveryEvidence}
    (h : (evidenceFor host functionEa currentEa cfunc lvars selection).get? lvar.lvarIndex = some evidence)
    (hconfident : evidence.confidence ≠ .unknown) :
    ∃ point target r, Backed host functionEa currentEa cfunc lvar evidence point target ∧
      records.get? lvar.lvarIndex = some r ∧ ShowsMachine m lvar evidence r := by
  obtain ⟨order, horder, rfl⟩ := hrows
  rcases analysis_evidence h with hbare | hcertified
  · exact absurd hbare.confidence hconfident
  obtain ⟨point, hopen, other, hother, hindex, target, hrecovered⟩ := hcertified.recovered
  obtain ⟨hlocal, hselected⟩ := List.mem_filter.mp hother
  obtain rfl : other = lvar :=
    List.inj_on_of_nodup_map hnodup (List.mem_filter.mp hlocal).1 (List.mem_filter.mp hlvar).1 hindex
  obtain ⟨pending, memReads, hrequests, hmemNodup, hready, hstands⟩ :=
    opening_stage m s runtimePc pcSeq hnodup (rfl : host.provider cfunc _ _ _ = _) hcertified.ok
      fun i e spec he _ hregister => (analysis_register_placed he hregister).nonneg
  obtain ⟨hdone, hkept⟩ := memory_stage hmemNodup hready (hrequests ▸ horder)
  obtain ⟨r, hr, hshows⟩ :=
    showsMachine_of_stands (hstands other hlvar (of_decide_eq_true hselected) evidence h) hdone hkept
  exact ⟨point, target, r, ⟨hopen, hrecovered⟩, hr, hshows⟩

end rows

def sampleStop : Machine := { registers := fun name => if name = "rsp" then 0x7000 else 7, memory := fun _ => 0 }

/-- The recovery opened at the sample's current address. -/
def sampleOpened : VVariableRecovery × Option Request :=
  init.beginPc (sampleHost.provider none) sampleLocals 0x1000 0x100c "0x7ff70000100c" 1 none

def sampleRows : Dict Int VVariableRecoveryRecord :=
  (answerMemory sampleStop (answerRegisters sampleStop sampleOpened).1
    (answerRegisters sampleStop sampleOpened).2).records

theorem sampleRows_answered : AnsweredRows sampleStop sampleOpened sampleRows := ⟨_, .refl _, rfl⟩

theorem sample_evidence {i : Int} {confidence : Confidence}
    (h : ((evidenceFor sampleHost 0x1000 0x100c none sampleLocals none).get? i).map RecoveryEvidence.confidence =
      some confidence) :
    ∃ evidence, (evidenceFor sampleHost 0x1000 0x100c none sampleLocals none).get? i = some evidence ∧
      evidence.confidence = confidence := Option.map_eq_some_iff.mp h

section constants
variable {ι : Type} {host : AnalysisHost ι} {functionEa currentEa : Int} {cfunc : Option (MicroCfunc ι)}
  {lvars : List VariableRecord} {selection : Option (List Int)}

end constants

section registers
variable {processor : Processor} {step : DecodedInstruction → Machine → Machine → Prop} {rawBlocks : List RawBlock}
  {register : RegisterSpec} {width : Nat}

/-- The displayed field depends on the storage's bits alone. -/
theorem registerValue_congr {m m' : Machine} (hoffset : 0 ≤ register.bitOffset)
    (h : NativeCfg.SameStorage register width m m') : registerValue m' register width = registerValue m register width := by
  have hbits : (m'.registers register.fullRegister).extractLsb' register.bitOffset.toNat (width * 8) =
      (m.registers register.fullRegister).extractLsb' register.bitOffset.toNat (width * 8) := by
    refine BitVec.eq_of_getLsbD_eq fun k hk => ?_
    rw [BitVec.getLsbD_extractLsb', BitVec.getLsbD_extractLsb', h (register.bitOffset.toNat + k) (by omega) (by omega)]
  rw [registerValue, registerValue, hbits]

/-- After an accepted storage proof, a run of the machine up to the current address shows in the register what the
last execution of the definition left there. -/
theorem storage_along_run (hstep : processor.DeclaresWrites step) {cfg : NativeCfg}
    (hsnap : SnapshotOf processor rawBlocks cfg) {definitionEa currentEa : Int}
    (hvalid : (cfg.validateRegisterStorageCfg definitionEa currentEa register width).valid = true)
    (hoffset : 0 ≤ register.bitOffset) {raw : RawBlock} (hraw : raw ∈ rawBlocks) (hinside : currentEa < raw.endEa)
    {executed later earlier : List (Int × Machine)} {last : Int × Machine} {m : Machine}
    (hrun : NativeRun processor step rawBlocks executed (raw.id, currentEa) m)
    (hsplit : executed = later ++ last :: earlier) (hlast : last.1 = definitionEa)
    (hlater : ∀ e ∈ later, e.1 ≠ definitionEa) :
    registerValue m register width = registerValue last.2 register width := by
  obtain ⟨executions, position, htrace, hmap, hstands⟩ := hrun.trace hsnap hstep
  obtain ⟨block, hblock, _, _, hsweeps⟩ := hstands.block hsnap hraw
  obtain ⟨instruction, hat, haddress⟩ : ∃ instruction, block.instructions[position]? = some instruction ∧
      instruction.ea = currentEa := by
    generalize hdrop : block.instructions.drop position = left at hsweeps
    cases hsweeps with
    | done hend => exact absurd hinside (Int.not_lt.mpr hend)
    | decoded _ _ _ _ hrest => exact ⟨_, (StandsAt.of_drop hraw hblock hdrop hrest).1, rfl⟩
    | unknown _ _ =>
      have hend : processor.Sweeps raw.endEa raw.endEa [] := .done (le_refl _)
      exact ⟨_, (StandsAt.of_drop hraw hblock hdrop hend).1, rfl⟩
  obtain ⟨current, hmatches, hclobber, hresolved, hdone⟩ := NativeCfg.validateRegisterStorageCfg_valid hvalid
  have hplace := NativeCfg.mem_matchesAt hblock hat
  rw [haddress, hmatches, List.mem_singleton] at hplace
  obtain ⟨hstart, hproven⟩ := NativeCfg.searchStorage_proven hclobber hresolved hdone
  rw [hsplit, List.map_eq_append_iff] at hmap
  obtain ⟨laterTrace, restTrace, rfl, hlaterMap, hrest⟩ := hmap
  obtain ⟨lastTrace, earlierTrace, rfl, hlastMap, _⟩ := List.map_eq_cons_iff.mp hrest
  obtain ⟨_, hsame⟩ := hproven.sound htrace hblock (hplace ▸ hstart) rfl rfl (by rw [← hlast, ← hlastMap])
    (fun e he => hlater (e.instruction.ea, e.after) (hlaterMap ▸ List.mem_map_of_mem he))
  rw [registerValue_congr hoffset hsame, ← hlastMap]

variable {ι : Type}

end registers

section slots
variable {ι : Type} {lvar : MicroLvar} {mba : Mba ι} {cfunc : MicroCfunc ι} {func : NativeFunction}
  {currentEa rspOffset idaOffset : Int}

/-- The variable's place in IDA's frame, by the decompiler or by the raw offset of its location. -/
def FramePlace (lvar : MicroLvar) (mba : Mba ι) (cfunc : MicroCfunc ι) (idaOffset : Int) : Prop :=
  (∃ vdOffset, lvar.stkoff = some vdOffset ∧ 0 ≤ vdOffset ∧ mba.stkoffVd2ida vdOffset = some idaOffset) ∨
    ∃ offset delta, lvar.locationStkoff = some offset ∧ cfunc.stkoffDelta = some delta ∧ idaOffset = offset - delta

/-- The function's frame starts at an address of the machine's memory, if IDA's stack pointer delta is right. -/
def FrameAt (func : NativeFunction) (currentEa : Int) (m : Machine) (base : Int) : Prop :=
  ∃ spDelta returnOffset, func.spd currentEa = some spDelta ∧ func.frameOffRetaddr = some returnOffset ∧
    ((m.registers "rsp").toNat : Int) = base + returnOffset + spDelta

theorem located_ok {offset : Option Int}
    (h : (do
      let idaOffset ← offset
      let spDelta ← func.spd currentEa
      let returnOffset ← func.frameOffRetaddr
      return (-spDelta + idaOffset - returnOffset, idaOffset) : Option (Int × Int)) = some (rspOffset, idaOffset)) :
    offset = some idaOffset ∧ ∃ spDelta returnOffset, func.spd currentEa = some spDelta ∧
      func.frameOffRetaddr = some returnOffset ∧ rspOffset = -spDelta + idaOffset - returnOffset := by
  obtain ⟨found, hoffset, h⟩ := Option.bind_eq_some_iff.mp h
  obtain ⟨spDelta, hspd, h⟩ := Option.bind_eq_some_iff.mp h
  obtain ⟨returnOffset, hreturn, h⟩ := Option.bind_eq_some_iff.mp h
  obtain ⟨rfl, rfl⟩ := Prod.mk.inj (Option.some.inj h)
  exact ⟨hoffset, spDelta, returnOffset, hspd, hreturn, rfl⟩

theorem currentRspLocation_ok
    (h : currentRspLocationForLvar lvar mba cfunc func currentEa = .ok (rspOffset, idaOffset)) :
    FramePlace lvar mba cfunc idaOffset ∧
      ∃ spDelta returnOffset, func.spd currentEa = some spDelta ∧ func.frameOffRetaddr = some returnOffset ∧
        rspOffset = -spDelta + idaOffset - returnOffset := by
  rw [currentRspLocationForLvar] at h
  dsimp only at h
  split at h
  · cases h
  · cases h
  · cases h
  split at h
  · cases h
  split at h
  · cases h
  · rename_i hlocated
    split at h
    · cases h
    obtain ⟨rfl, rfl⟩ := Prod.mk.inj (Except.ok.inj h)
    rcases Option.or_eq_some_iff.mp hlocated with hdecompiler | ⟨_, hraw⟩
    · obtain ⟨hoffset, hplace⟩ := located_ok hdecompiler
      obtain ⟨vdOffset, hvd, hoffset⟩ := Option.bind_eq_some_iff.mp hoffset
      split at hoffset
      · cases hoffset
      · rename_i hnonneg
        exact ⟨.inl ⟨vdOffset, hvd, Int.not_lt.mp hnonneg, hoffset⟩, hplace⟩
    · obtain ⟨hoffset, hplace⟩ := located_ok hraw
      obtain ⟨offset, hlocation, hoffset⟩ := Option.bind_eq_some_iff.mp hoffset
      obtain ⟨delta, hdelta, hoffset⟩ := Option.map_eq_some_iff.mp hoffset
      exact ⟨.inr ⟨offset, delta, hlocation, hdelta, hoffset.symm⟩, hplace⟩

/-- The displayed bytes of a slot depend on the slot alone. -/
theorem memoryText_congr {base start : Int} {size : Nat} {m m' : Machine}
    (hsame : SameSlot base { start := start, width := size } m m') (hbase : 0 ≤ base + start) :
    m'.memoryText (base + start).toNat size = m.memoryText (base + start).toNat size := by
  have hbytes : m'.readMemory (base + start).toNat size = m.readMemory (base + start).toNat size := by
    refine List.map_congr_left fun k hk => ?_
    have hplace : (base + start).toNat + k = (base + (start + k)).toNat := by omega
    have hk := List.mem_range.mp hk
    rw [hplace]
    exact hsame (start + k) (by dsimp only; omega) (by rw [FrameSlot.targetEnd]; dsimp only; omega)
  rw [Machine.memoryText, Machine.memoryText, hbytes]

/-- After an accepted stack proof, a run of the machine up to the current address keeps in the slot what the last
execution of the definition left there. -/
theorem slot_along_run {processor : Processor} {step : DecodedInstruction → Machine → Machine → Prop}
    {rawBlocks : List RawBlock} {base definitionEa : Int} {slot : FrameSlot} (hwidth : 1 ≤ slot.width)
    (hstep : DeclaresSlotWrites step base slot) (hnodup : (rawBlocks.map RawBlock.id).Nodup)
    (hapart : rawBlocks.Pairwise RawBlock.Apart) {raw : RawBlock} (hraw : raw ∈ rawBlocks)
    (hinside : currentEa < raw.endEa) (hstart : raw.startEa ≤ definitionEa)
    (hvalid : processor.nativeDecoder.stackDefinitionRemainsValid definitionEa currentEa slot.start slot.width = true)
    {later earlier : List (Int × Machine)} {last : Int × Machine} {m : Machine}
    (hrun : NativeRun processor step rawBlocks (later ++ last :: earlier) (raw.id, currentEa) m)
    (hlast : last.1 = definitionEa) (hlater : ∀ e ∈ later, e.1 ≠ definitionEa) : SameSlot base slot last.2 m := by
  subst hlast
  rw [NativeDecoder.stackDefinitionRemainsValid, NativeDecoder.walk_succ _ _ _ hwidth] at hvalid
  rcases hvalid with ⟨_, hfirst⟩ | ⟨hbefore, insn, hdecode, _, _, hwalk⟩
  · cases hfirst
  obtain ⟨insn', hdecode', hbelow, hstraight⟩ :=
    hrun.straightSince hnodup hapart hraw hinside hstart hbefore hlater
  obtain rfl := Option.some.inj (hdecode.symm.trans hdecode')
  exact (hstraight.keeps hstep hwidth hwalk hbelow).2

theorem mem_nativeBlockBounds {rawBlocks : List RawBlock} {bounds : Int × Int}
    (h : nativeBlockBounds (.ok rawBlocks) currentEa = some bounds) {raw : RawBlock} (hraw : raw ∈ rawBlocks)
    (hstart : raw.startEa ≤ currentEa) (hend : currentEa < raw.endEa) : bounds = (raw.startEa, raw.endEa) := by
  rw [nativeBlockBounds] at h
  split at h
  · rename_i only hfound
    cases h
    have hmem : (raw.startEa, raw.endEa) ∈ (rawBlocks.filter fun raw => raw.startEa ≤ currentEa ∧ currentEa < raw.endEa).map
        fun raw => (raw.startEa, raw.endEa) := by
      refine List.mem_map.mpr ⟨raw, List.mem_filter.mpr ⟨hraw, ?_⟩, rfl⟩
      exact decide_eq_true ⟨hstart, hend⟩
    rw [hfound] at hmem
    exact (List.mem_singleton.mp hmem).symm
  · cases h

end slots
end DynvarSync.Ida
