import DynvarSync.Ida.CandidateProofs
import DynvarSync.Ida.FutureWalks
import DynvarSync.Ida.NativePlaces

/-! When the analysis opens a point, and what the evidence of a point rests on. -/
namespace DynvarSync.Ida
open Lib Relation

section sample

def samplePlace (index : Int) : MicroOperand := { t := .lvar, l := some { idx := index }, size := 4 }

/-- A number moved to the first variable, writes of the two others, and an instruction that uses all three. -/
def sampleInstruction : Nat → MicroInstruction
  | 0 =>
    { ea := some 0x1000, opcode := .mov, modifiesD := some true, d := some (samplePlace 0)
      l := some { t := .number, size := 4, unsignedValue := some 5 }, operands := [(samplePlace 0, true)] }
  | 1 => { ea := some 0x1005, modifiesD := some true, d := some (samplePlace 1), operands := [(samplePlace 1, true)] }
  | 2 => { ea := some 0x1008, modifiesD := some true, d := some (samplePlace 2), operands := [(samplePlace 2, true)] }
  | _ => { ea := some 0x100c, operands := [(samplePlace 0, false), (samplePlace 1, false), (samplePlace 2, false)] }

def sampleMba : Mba Nat :=
  { qty := 2
    getMblock := fun
      | 0 => some { serial := 0, head := none, tail := none, nsucc := 1, succ := fun _ => 1 }
      | 1 => some { serial := 1, head := some 0, tail := some 3, npred := 1 }
      | _ => none
    next := fun n => some (n + 1)
    identity := fun n => n
    same := fun a b => a == b
    instruction := sampleInstruction
    vars := [{ name := "total", width := 4, isRegVar := some true, isReg1 := some true, reg1 := some 3 },
      { name := "count", width := 4, isRegVar := some true, isReg1 := some true, reg1 := some 6 },
      { name := "limit", width := 4, isStkVar := some true, stkoff := some 0x10 }]
    stkoffVd2ida := some
    maturity := 8 }

def sampleHost : AnalysisHost Nat :=
  { processor := sampleProcessor
    getFunc := fun _ => some
      { startEa := 0x1000, bits := 64, analyzedSp := some (some true), spd := fun _ => some (-0x20)
        frameOffRetaddr := some 0x28
        flowchart := .ok [sampleBlock] }
    decompile := fun _ => .ok (some { mba := some sampleMba })
    getMregName := fun register _ => sampleProcessor.getRegName register 4
    mreg2reg := fun _ _ => none }

def sampleLocals : List VariableRecord :=
  [{ lvarIndex := 0, name := "total", size := 4, isArg := false, argIndex := none },
   { lvarIndex := 1, name := "count", size := 4, isArg := false, argIndex := none },
   { lvarIndex := 2, name := "limit", size := 4, isArg := false, argIndex := none }]

end sample

section evidence
variable {ι : Type} {host : AnalysisHost ι} {functionEa currentEa : Int} {cfunc : Option (MicroCfunc ι)}

/-- The analysis looks at the variables of a point exactly when the address is mapped, x64, decompiled far enough,
decodable, and has one contiguous run of instructions in blocks that list completely and agree on their edges. -/
theorem openPoint_ok_iff (host : AnalysisHost ι) (functionEa currentEa : Int) (cfunc : Option (MicroCfunc ι))
    (point : AnalysisPoint ι) :
    host.openPoint functionEa currentEa cfunc = .ok (some point) ↔ Opened host functionEa currentEa cfunc point := by
  refine ⟨openPoint_ok, fun h => ?_⟩
  obtain ⟨func, x64, decompiled, ⟨hmba, hmature⟩, decodes, collected, exact, address, bounds, native, ctree⟩ := h
  refine bind_ok_iff.mpr ⟨point.func, ?_, bind_ok_iff.mpr ⟨(), ?_, bind_ok_iff.mpr ⟨point.cfunc, decompiled,
    bind_ok_iff.mpr ⟨point.mba, ?_, bind_ok_iff.mpr ⟨(), ensure_ok_iff.mpr decodes,
      bind_ok_iff.mpr ⟨point.microBlocks, (Mba.collectMicroBlocks_ok_iff point.microBlocks).mpr collected, ?_⟩⟩⟩⟩⟩⟩
  · rw [AnalysisHost.mappedFunction, func.1]
    exact if_neg (not_not.mpr func.2)
  · rw [ensure_ok_iff, Bool.and_eq_true, decide_eq_true_eq]
    exact x64
  · rw [AnalysisHost.lvarMicrocode, hmba]
    exact if_neg (Int.not_lt.mpr hmature)
  · rw [(findExactMicrocodePoint_iff currentEa collected.keyed point.currentBlock point.boundary).mpr exact,
      Option.map_some, ← bounds, ← native, ← ctree, ← address]
    rfl

theorem live_use {blocks : Dict Int CfgBlockFacts} {start : Int × Int}
    (h : futureUseRejectionReason (findFutureUses blocks start.1 start.2) = none) :
    ∃ point, ReflTransGen (ForwardStep blocks) start point ∧ UseAt blocks true point := by
  rw [← stopsAtUse_iff]
  by_contra hnone
  have hunused := (hasUse_eq_false_iff blocks start).mpr fun state hstate huse => hnone ⟨state, hstate, huse⟩
  rw [futureUseRejectionReason, hunused] at h
  split at h
  · contradiction
  · split at h <;> cases h

/-- Evidence that says where to find a value is about a variable it was asked about. The variable has one storage that
no other shares, one definition on every backward walk and a use on some forward walk, and a register it names is one
of the sixteen with the bits inside. -/
theorem evidence_proven (host : AnalysisHost ι) (functionEa currentEa : Int) (cfunc : Option (MicroCfunc ι))
    (lvars : List VariableRecord) (i : Int) (evidence : RecoveryEvidence)
    (h : (host.analyzeVVariableCandidates functionEa currentEa lvars cfunc).evidenceByIndex.get? i = some evidence)
    (hconfident : evidence.confidence ≠ .unknown) :
    ∃ point target, Opened host functionEa currentEa cfunc point ∧ point.mba.vectorAt i = some target ∧
      (∃ lvar ∈ lvars, lvar.lvarIndex = i ∧ target.width = lvar.size ∧
        ∃ site, ProvenDefinition (point.candidateCfg i lvar.size target)
            (point.currentBlock.blockId, (point.boundary : Int)) site ∧
          site.ea = evidence.sourceEa ∧ site.ea.isSome ∧
          ∃ use, ReflTransGen (ForwardStep (point.candidateCfg i lvar.size target))
              (point.currentBlock.blockId, (point.boundary : Int)) use ∧
            UseAt (point.candidateCfg i lvar.size target) true use) ∧
      target.scattered = false ∧ target.entangled = false ∧
      (∀ spec, evidence.register = some spec → spec.Placed) ∧
      ∀ j other, i ≠ j →
        (host.analyzeVVariableCandidates functionEa currentEa lvars cfunc).evidenceByIndex.get? j = some other →
          ¬ ClaimsOverlap evidence other := by
  rcases analysis_evidence h with hbare | hcertified
  · exact absurd hbare.confidence hconfident
  obtain ⟨point, hopen, lvar, hlvar, rfl, target, hrecovered⟩ := hcertified.recovered
  obtain ⟨site, definition, definitionEa, _, hexamined, hlocation⟩ := analyzeOneLvar_ok hrecovered.analyzed
  have hsource : evidence.sourceEa = some definitionEa := by
    cases locationEvidence_ok hlocation with
    | constant _ hproof => rw [hproof.evidence]
    | register _ hproof => rw [hproof.evidence]
    | stack _ _ hproof => rw [hproof.evidence]
  refine ⟨point, target, openPoint_ok hopen, hrecovered.indexed, ⟨lvar, hlvar, rfl, hrecovered.width, site,
    hexamined.selected.proven, ?_, ?_, live_use hexamined.live⟩, hexamined.compact, hexamined.separate,
    fun spec hspec => analysis_register_placed h hspec, hcertified.alone⟩
  · rw [hexamined.selected.ea, hsource]
  · rw [hexamined.selected.ea]
    rfl

theorem evidence_proven_sample : ∃ evidence,
    (sampleHost.analyzeVVariableCandidates 0x1000 0x100c sampleLocals none).evidenceByIndex.get? 1 = some evidence ∧
    ∃ point target, Opened sampleHost 0x1000 0x100c none point ∧ point.mba.vectorAt 1 = some target ∧
      (∃ lvar ∈ sampleLocals, lvar.lvarIndex = 1 ∧ target.width = lvar.size ∧
        ∃ site, ProvenDefinition (point.candidateCfg 1 lvar.size target)
            (point.currentBlock.blockId, (point.boundary : Int)) site ∧
          site.ea = evidence.sourceEa ∧ site.ea.isSome ∧
          ∃ use, ReflTransGen (ForwardStep (point.candidateCfg 1 lvar.size target))
              (point.currentBlock.blockId, (point.boundary : Int)) use ∧
            UseAt (point.candidateCfg 1 lvar.size target) true use) ∧
      target.scattered = false ∧ target.entangled = false ∧
      (∀ spec, evidence.register = some spec → spec.Placed) ∧
      ∀ j other, 1 ≠ j →
        (sampleHost.analyzeVVariableCandidates 0x1000 0x100c sampleLocals none).evidenceByIndex.get? j = some other →
          ¬ ClaimsOverlap evidence other := by
  obtain ⟨evidence, hget, hconfidence⟩ := Option.map_eq_some_iff.mp
    (show ((sampleHost.analyzeVVariableCandidates 0x1000 0x100c sampleLocals none).evidenceByIndex.get? 1).map
      RecoveryEvidence.confidence = some .exactRegisterLocation by decide +kernel)
  exact ⟨evidence, hget, evidence_proven sampleHost 0x1000 0x100c none sampleLocals 1 evidence hget
    (by rw [hconfidence]; nofun)⟩

end evidence

end DynvarSync.Ida
