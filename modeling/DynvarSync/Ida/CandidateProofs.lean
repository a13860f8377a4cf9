import DynvarSync.Ida.CandidateAnalysis
import DynvarSync.Ida.MicroSnapshot
import DynvarSync.Ida.ReachingWalks

/-! What stands behind the evidence of an analysis: the proofs that were asked for, read
back from the evidence alone. -/
namespace DynvarSync.Ida
open Lib PyText

theorem rejectFor_ok_iff {reason : Option String} : rejectFor reason = .ok () ↔ reason = none := by
  cases reason with
  | none => simp [rejectFor]
  | some text => simp [rejectFor]

theorem require_ok_iff {holds : Bool} {reason : String} : require holds reason = .ok () ↔ holds = true := by
  cases holds with
  | false => simp [require]
  | true => simp [require]

theorem requireSome_ok_iff {α : Type} {answer : Option α} {reason : String} {value : α} :
    requireSome answer reason = .ok value ↔ answer = some value := by
  cases answer with
  | none => simp [requireSome]
  | some other => simp [requireSome]

section candidate
variable {ι : Type} {host : AnalysisHost ι} {point : AnalysisPoint ι} {index : Int} {width : Nat} {lvar : MicroLvar}

/-- What the microcode does to the variable. -/
def AnalysisPoint.candidateCfg (point : AnalysisPoint ι) (index : Int) (width : Nat) (lvar : MicroLvar) :
    Dict Int CfgBlockFacts := point.mba.candidateCfgFacts lvar index width point.microBlocks

/-- The definition is the only one to reach the point, and it is where the site says. -/
structure Selected (point : AnalysisPoint ι) (index : Int) (width : Nat) (lvar : MicroLvar) (site : DefinitionSite)
    (definition : CollectedInstruction) (definitionEa : Int) : Prop where
  proven : ProvenDefinition (point.candidateCfg index width lvar) (point.currentBlock.blockId, point.boundary) site
  found : ∃ block, point.microBlocks.get? site.blockId = some block ∧
    block.instructions[site.instructionIndex]? = some definition
  ea : site.ea = some definitionEa

theorem selectDefinition_ok {site : DefinitionSite} {definition : CollectedInstruction} {definitionEa : Int}
    (h : selectDefinition point index width lvar = .ok (site, definition, definitionEa)) :
    Selected point index width lvar site definition definitionEa := by
  obtain ⟨_, hreject, h⟩ := bind_ok_iff.mp h
  obtain ⟨selected, hselected, h⟩ := bind_ok_iff.mp h
  obtain ⟨found, hfound, h⟩ := bind_ok_iff.mp h
  obtain ⟨address, haddress, h⟩ := bind_ok_iff.mp h
  cases h
  have hnone := (reachingDefinitionRejectionReason_none_iff _).mp (rejectFor_ok_iff.mp hreject)
  obtain ⟨hoverlap, ⟨site', hsite⟩, hresolved⟩ := hnone
  have hhead := requireSome_ok_iff.mp hselected
  rw [hsite] at hhead
  cases hhead
  refine ⟨((accepted_iff _ (_, _) _).mp ⟨hoverlap, hsite, hresolved⟩).proven, ?_, requireSome_ok_iff.mp haddress⟩
  exact Option.bind_eq_some_iff.mp (requireSome_ok_iff.mp hfound)

/-- The proofs every kind of location needs. -/
structure Examined (host : AnalysisHost ι) (point : AnalysisPoint ι) (index : Int) (width : Nat) (lvar : MicroLvar)
    (site : DefinitionSite) (definition : CollectedInstruction) (definitionEa : Int)
    (nativeDefinition : DecodedInstruction) : Prop where
  supported : width ∈ supportedWidths
  compact : lvar.scattered = false
  separate : lvar.entangled = false
  selected : Selected point index width lvar site definition definitionEa
  decodes : host.processor.decodeInstruction definitionEa = some nativeDefinition
  live : futureUseRejectionReason
    (findFutureUses (point.candidateCfg index width lvar) point.currentBlock.blockId point.boundary) = none

theorem analyzeOneLvar_ok {evidence : RecoveryEvidence}
    (h : analyzeOneLvar host point index width lvar = .ok evidence) :
    ∃ site definition definitionEa nativeDefinition,
      Examined host point index width lvar site definition definitionEa nativeDefinition ∧
      locationEvidence host point index width lvar site definition definitionEa nativeDefinition = .ok evidence := by
  obtain ⟨_, hwidth, h⟩ := bind_ok_iff.mp h
  obtain ⟨_, hscattered, h⟩ := bind_ok_iff.mp h
  obtain ⟨_, hentangled, h⟩ := bind_ok_iff.mp h
  obtain ⟨⟨site, definition, definitionEa⟩, hselected, h⟩ := bind_ok_iff.mp h
  obtain ⟨nativeDefinition, hdecodes, h⟩ := bind_ok_iff.mp h
  obtain ⟨_, hlive, h⟩ := bind_ok_iff.mp h
  refine ⟨site, definition, definitionEa, nativeDefinition, ⟨?_, ?_, ?_, selectDefinition_ok hselected,
    requireSome_ok_iff.mp hdecodes, rejectFor_ok_iff.mp hlive⟩, h⟩
  · exact of_decide_eq_true (require_ok_iff.mp hwidth)
  · simpa using require_ok_iff.mp hscattered
  · simpa using require_ok_iff.mp hentangled

/-- A constant: the definition moves this number, and no assignment of the decompiled tree says another one. -/
structure ConstantProof (point : AnalysisPoint ι) (index : Int) (width : Nat) (definition : CollectedInstruction)
    (definitionEa : Int) (evidence : RecoveryEvidence) (constant : Int) : Prop where
  direct : directConstantDefinition definition.instruction index width = some constant
  uncontested : point.ctreeFacts.any (contradicts index width definitionEa constant) = false
  evidence : evidence =
    { lvarIndex := index, storageKind := .constant, storage := "constant:" ++ formatHex (maskWidth constant width)
      sourceEa := some definitionEa, confidence := .exactConstant
      reason := "unique CFG reaching definition proves an exact live constant"
      constantValue := some constant, width := width }

/-- A register: the variable has this one, and the native graph proves it unchanged. -/
structure RegisterProof (host : AnalysisHost ι) (point : AnalysisPoint ι) (index : Int) (width : Nat)
    (lvar : MicroLvar) (definitionEa : Int) (evidence : RecoveryEvidence) (register : RegisterAlias) : Prop where
  assigned : host.registerSpecFromLvar lvar width = some register
  validated : ∃ nativeCfg, point.nativeCfg = .ok nativeCfg ∧
    (nativeCfg.validateRegisterStorageCfg definitionEa point.currentEa register.toRegisterSpec width).valid = true
  evidence : evidence =
    { lvarIndex := index, storageKind := .register, storage := register.spelling
      sourceEa := some definitionEa, confidence := .exactRegisterLocation
      reason := "unique CFG reaching definition and storage proof establish register liveness"
      register := some register.toRegisterSpec, width := width }

/-- A stack slot: defined in the current block, not aliased, at a known place, and not written since. -/
structure StackProof (host : AnalysisHost ι) (point : AnalysisPoint ι) (index : Int) (width : Nat)
    (lvar : MicroLvar) (site : DefinitionSite) (definitionEa : Int) (evidence : RecoveryEvidence)
    (rspOffset idaStackOffset : Int) : Prop where
  sameBlock : site.blockId = point.currentBlock.blockId
  inBounds : ∃ bounds, point.nativeBounds = some bounds ∧ bounds.1 ≤ definitionEa ∧ definitionEa < bounds.2
  unaliased : lvar.isAliasable = some false
  located : currentRspLocationForLvar lvar point.mba point.cfunc point.func point.currentEa =
    .ok (rspOffset, idaStackOffset)
  remains : host.processor.nativeDecoder.stackDefinitionRemainsValid definitionEa point.currentEa idaStackOffset
    width = true
  evidence : evidence =
    { lvarIndex := index, storageKind := .stack, storage := "stack:rsp" ++ formatSignedHex rspOffset
      sourceEa := some definitionEa, confidence := .exactStackLocation
      reason := "unique reaching definition and future use prove exact stack slot"
      stackPointerOffset := some rspOffset, width := width }

theorem constantEvidence_ok {definitionEa constant : Int} {definition : CollectedInstruction}
    {evidence : RecoveryEvidence} (hdirect : directConstantDefinition definition.instruction index width = some constant)
    (h : constantEvidence point index width definitionEa constant = .ok evidence) :
    ConstantProof point index width definition definitionEa evidence constant := by
  obtain ⟨_, hfree, h⟩ := bind_ok_iff.mp h
  cases htext : formatConstant constant width with
  | error text =>
    rw [htext] at h
    cases h
  | ok text =>
    rw [htext] at h
    cases h
    have hformat : text = formatHex (maskWidth constant width) := by
      rw [formatConstant] at htext
      split at htext
      · cases htext
      · exact (Except.ok.inj htext).symm
    exact ⟨hdirect, by simpa using require_ok_iff.mp hfree, by rw [hformat]⟩

theorem registerEvidence_ok {register : RegisterAlias} {definitionEa : Int} {evidence : RecoveryEvidence}
    (hregister : host.registerSpecFromLvar lvar width = some register)
    (h : registerEvidence point index width register definitionEa = .ok evidence) :
    RegisterProof host point index width lvar definitionEa evidence register := by
  rw [registerEvidence] at h
  cases hcfg : point.nativeCfg with
  | error text =>
    rw [hcfg] at h
    cases h
  | ok nativeCfg =>
    rw [hcfg] at h
    dsimp only at h
    split at h
    · cases h
    · rename_i hvalid
      cases h
      exact ⟨hregister, ⟨nativeCfg, hcfg, by simpa using hvalid⟩, rfl⟩

theorem stackEvidence_ok {site : DefinitionSite} {definitionEa : Int} {evidence : RecoveryEvidence}
    (h : stackEvidence host point index width lvar site definitionEa = .ok evidence) :
    ∃ rspOffset idaStackOffset,
      StackProof host point index width lvar site definitionEa evidence rspOffset idaStackOffset := by
  obtain ⟨_, hblock, h⟩ := bind_ok_iff.mp h
  obtain ⟨bounds, hbounds, h⟩ := bind_ok_iff.mp h
  obtain ⟨_, hin, h⟩ := bind_ok_iff.mp h
  obtain ⟨_, haliased, h⟩ := bind_ok_iff.mp h
  obtain ⟨⟨rspOffset, idaStackOffset⟩, hlocated, h⟩ := bind_ok_iff.mp h
  obtain ⟨_, hremains, h⟩ := bind_ok_iff.mp h
  cases h
  refine ⟨rspOffset, idaStackOffset, of_decide_eq_true (require_ok_iff.mp hblock),
    ⟨bounds, requireSome_ok_iff.mp hbounds, of_decide_eq_true (require_ok_iff.mp hin)⟩, ?_, hlocated,
    require_ok_iff.mp hremains, rfl⟩
  have hno : lvar.isAliasable.getD true = false := by simpa using require_ok_iff.mp haliased
  cases halias : lvar.isAliasable with
  | none =>
    rw [halias] at hno
    cases hno
  | some aliased =>
    rw [halias] at hno
    exact congrArg some hno

/-- What one of the three kinds of location rests on. -/
inductive Located (host : AnalysisHost ι) (point : AnalysisPoint ι) (index : Int) (width : Nat) (lvar : MicroLvar)
    (site : DefinitionSite) (definition : CollectedInstruction) (definitionEa : Int)
    (evidence : RecoveryEvidence) : Prop
  | constant (value : Int) : ConstantProof point index width definition definitionEa evidence value →
      Located host point index width lvar site definition definitionEa evidence
  | register (register : RegisterAlias) :
      RegisterProof host point index width lvar definitionEa evidence register →
      Located host point index width lvar site definition definitionEa evidence
  | stack (rspOffset idaStackOffset : Int) :
      StackProof host point index width lvar site definitionEa evidence rspOffset idaStackOffset →
      Located host point index width lvar site definition definitionEa evidence

theorem locationEvidence_ok {site : DefinitionSite} {definition : CollectedInstruction} {definitionEa : Int}
    {nativeDefinition : DecodedInstruction} {evidence : RecoveryEvidence}
    (h : locationEvidence host point index width lvar site definition definitionEa nativeDefinition = .ok evidence) :
    Located host point index width lvar site definition definitionEa evidence := by
  rw [locationEvidence] at h
  split at h
  · rename_i value hconstant
    have hdirect := (Option.filter_eq_some_iff.mp hconstant).1
    exact .constant value (constantEvidence_ok hdirect h)
  · rename_i register _ hregister
    exact .register register (registerEvidence_ok hregister h)
  · split at h
    · cases h
    · split at h
      · obtain ⟨rspOffset, idaStackOffset, hproof⟩ := stackEvidence_ok h
        exact .stack rspOffset idaStackOffset hproof
      · cases h

theorem Located.claims {site : DefinitionSite} {definition : CollectedInstruction} {definitionEa : Int}
    {evidence : RecoveryEvidence} (h : Located host point index width lvar site definition definitionEa evidence) :
    evidence.lvarIndex = index ∧ evidence.width = width ∧ evidence.sourceEa = some definitionEa := by
  cases h with
  | constant _ h =>
    rw [h.evidence]
    exact ⟨rfl, rfl, rfl⟩
  | register _ h =>
    rw [h.evidence]
    exact ⟨rfl, rfl, rfl⟩
  | stack _ _ h =>
    rw [h.evidence]
    exact ⟨rfl, rfl, rfl⟩

end candidate

section analysis
variable {ι : Type} {host : AnalysisHost ι} {functionEa currentEa : Int} {cfunc : Option (MicroCfunc ι)}

/-- What an opened point was taken from. -/
structure Opened (host : AnalysisHost ι) (functionEa currentEa : Int) (cfunc : Option (MicroCfunc ι))
    (point : AnalysisPoint ι) : Prop where
  func : host.getFunc currentEa = some point.func ∧ point.func.startEa = functionEa
  x64 : host.isX86 = true ∧ point.func.bits = 64
  decompiled : host.decompiled functionEa cfunc = .ok point.cfunc
  microcode : point.cfunc.mba = some point.mba ∧ host.mmatLvars ≤ point.mba.maturity
  decodes : (host.processor.decodeInstruction currentEa).isSome
  collected : Mba.Collected point.mba point.microBlocks
  exact : ExactPoint point.microBlocks currentEa point.currentBlock point.boundary
  address : point.currentEa = currentEa
  nativeBounds : point.nativeBounds = nativeBlockBounds point.func.flowchart currentEa
  nativeCfg : point.nativeCfg = buildNativeCfgFacts host.processor point.func.flowchart
  ctreeFacts : point.ctreeFacts = collectCtreeFacts point.cfunc point.mba

theorem ensure_ok_iff {holds : Bool} {text : String} : ensure holds text = .ok () ↔ holds = true := by
  cases holds with
  | false => simp [ensure]
  | true => simp [ensure]

theorem mappedFunction_ok {func : NativeFunction} (h : host.mappedFunction functionEa currentEa = .ok func) :
    host.getFunc currentEa = some func ∧ func.startEa = functionEa := by
  rw [AnalysisHost.mappedFunction] at h
  split at h
  · cases h
  · rename_i hfunc
    split at h
    · cases h
    · rename_i hstart
      cases h
      exact ⟨hfunc, not_not.mp hstart⟩

theorem lvarMicrocode_ok {cfunc : MicroCfunc ι} {mba : Mba ι} (h : host.lvarMicrocode cfunc = .ok mba) :
    cfunc.mba = some mba ∧ host.mmatLvars ≤ mba.maturity := by
  rw [AnalysisHost.lvarMicrocode] at h
  split at h
  · cases h
  · rename_i hmba
    split at h
    · cases h
    · rename_i hmature
      cases h
      exact ⟨hmba, Int.not_lt.mp hmature⟩

theorem openPoint_ok {point : AnalysisPoint ι} (h : host.openPoint functionEa currentEa cfunc = .ok (some point)) :
    Opened host functionEa currentEa cfunc point := by
  obtain ⟨func, hfunc, h⟩ := bind_ok_iff.mp h
  obtain ⟨_, hx64, h⟩ := bind_ok_iff.mp h
  obtain ⟨cfunc', hdecompiled, h⟩ := bind_ok_iff.mp h
  obtain ⟨mba, hmba, h⟩ := bind_ok_iff.mp h
  obtain ⟨_, hdecodes, h⟩ := bind_ok_iff.mp h
  obtain ⟨microBlocks, hblocks, h⟩ := bind_ok_iff.mp h
  obtain ⟨⟨currentBlock, boundary⟩, hpoint, rfl⟩ := Option.map_eq_some_iff.mp (Except.ok.inj h)
  have hcollected := (Mba.collectMicroBlocks_ok_iff microBlocks).mp hblocks
  have hx64 := ensure_ok_iff.mp hx64
  rw [Bool.and_eq_true, decide_eq_true_eq] at hx64
  exact ⟨mappedFunction_ok hfunc, hx64, hdecompiled, lvarMicrocode_ok hmba, ensure_ok_iff.mp hdecodes, hcollected,
    (findExactMicrocodePoint_iff currentEa hcollected.keyed currentBlock boundary).mp hpoint, rfl, rfl, rfl, rfl⟩

/-- The variable is one of Hex-Rays' own, under its index, name and width, and its evidence was proven. -/
structure Recovered (host : AnalysisHost ι) (point : AnalysisPoint ι) (lvar : VariableRecord)
    (evidence : RecoveryEvidence) (target : MicroLvar) : Prop where
  indexed : point.mba.vectorAt lvar.lvarIndex = some target
  name : target.name = if lvar.name = "<unnamed>" then "" else lvar.name
  width : target.width = lvar.size
  analyzed : analyzeOneLvar host point lvar.lvarIndex lvar.size target = .ok evidence

/-- Evidence that proves nothing: there is no value and no place to read one from. -/
structure RecoveryEvidence.Bare (evidence : RecoveryEvidence) : Prop where
  confidence : evidence.confidence = .unknown
  register : evidence.register = none
  stackPointerOffset : evidence.stackPointerOffset = none
  constantValue : evidence.constantValue = none

theorem unavailableLocationEvidence_bare (host : AnalysisHost ι) (lvar : Option MicroLvar) (index : Int)
    (width : Nat) (reason : String) : (host.unavailableLocationEvidence lvar index width reason).Bare := by
  unfold AnalysisHost.unavailableLocationEvidence
  cases lvar with
  | none => exact ⟨rfl, rfl, rfl, rfl⟩
  | some lvar =>
    dsimp only
    repeat' split
    all_goals exact ⟨rfl, rfl, rfl, rfl⟩

theorem candidateEvidence_cases (host : AnalysisHost ι) (point : AnalysisPoint ι) (lvar : VariableRecord) :
    (host.candidateEvidence point lvar).Bare ∨
      ∃ target, Recovered host point lvar (host.candidateEvidence point lvar) target := by
  rw [AnalysisHost.candidateEvidence]
  cases htarget : point.mba.vectorAt lvar.lvarIndex with
  | none => exact .inl (unavailableLocationEvidence_bare ..)
  | some target =>
    dsimp only
    by_cases hname : target.name ≠ if lvar.name = "<unnamed>" then "" else lvar.name
    · rw [if_pos hname]
      exact .inl (unavailableLocationEvidence_bare ..)
    rw [if_neg hname]
    by_cases hwidth : target.width ≠ lvar.size
    · rw [if_pos hwidth]
      exact .inl (unavailableLocationEvidence_bare ..)
    rw [if_neg hwidth]
    cases hanalyzed : analyzeOneLvar host point lvar.lvarIndex lvar.size target with
    | ok evidence => exact .inr ⟨target, htarget, not_not.mp hname, not_not.mp hwidth, hanalyzed⟩
    | error failure =>
      cases failure with
      | rejected reason => exact .inl (unavailableLocationEvidence_bare ..)
      | failed => exact .inl ⟨rfl, rfl, rfl, rfl⟩

theorem of_get?_evidences {evidenceOf : VariableRecord → RecoveryEvidence} {lvars : List VariableRecord} {i : Int}
    {evidence : RecoveryEvidence} {d : Dict Int RecoveryEvidence}
    (h : (lvars.foldl (fun evidence lvar => evidence.set lvar.lvarIndex (evidenceOf lvar)) d).get? i =
      some evidence) :
    d.get? i = some evidence ∨ ∃ lvar ∈ lvars, lvar.lvarIndex = i ∧ evidenceOf lvar = evidence := by
  have hfold : lvars.foldl (fun evidence lvar => evidence.set lvar.lvarIndex (evidenceOf lvar)) d =
      (lvars.map fun lvar => (lvar.lvarIndex, evidenceOf lvar)).foldl
        (fun evidence field => evidence.set field.1 field.2) d := by rw [List.foldl_map]
  rw [hfold] at h
  rcases Dict.mem_entries_foldl_set ((Dict.mem_entries_iff _ _ _).mpr h) with hmem | hmem
  · exact .inl ((Dict.mem_entries_iff _ _ _).mp hmem)
  · obtain ⟨lvar, hlvar, heq⟩ := List.mem_map.mp hmem
    obtain ⟨rfl, rfl⟩ := Prod.mk.inj heq
    exact .inr ⟨lvar, hlvar, rfl, rfl⟩

/-- Evidence that is not bare belongs to a variable the analysis was asked about, and was proven at the point it
opened; no other variable's evidence claims an overlapping storage. -/
structure Certified (host : AnalysisHost ι) (functionEa currentEa : Int) (cfunc : Option (MicroCfunc ι))
    (lvars : List VariableRecord) (i : Int) (evidence : RecoveryEvidence) : Prop where
  ok : (host.analyzeVVariableCandidates functionEa currentEa lvars cfunc).ok = true
  recovered : ∃ point, host.openPoint functionEa currentEa cfunc = .ok (some point) ∧
    ∃ lvar ∈ lvars, lvar.lvarIndex = i ∧ ∃ target, Recovered host point lvar evidence target
  alone : ∀ j other, i ≠ j →
    (host.analyzeVVariableCandidates functionEa currentEa lvars cfunc).evidenceByIndex.get? j = some other →
      ¬ ClaimsOverlap evidence other

theorem analysis_evidence {lvars : List VariableRecord} {i : Int} {evidence : RecoveryEvidence}
    (h : (host.analyzeVVariableCandidates functionEa currentEa lvars cfunc).evidenceByIndex.get? i =
      some evidence) :
    evidence.Bare ∨ Certified host functionEa currentEa cfunc lvars i evidence := by
  have hbare : ∀ reason, (lvars.foldl (fun evidence lvar => evidence.set lvar.lvarIndex
      { lvarIndex := lvar.lvarIndex, reason := reason }) Dict.empty).get? i = some evidence → evidence.Bare := by
    intro reason h
    rcases of_get?_evidences h with hnone | ⟨lvar, _, _, rfl⟩
    · cases hnone
    · exact ⟨rfl, rfl, rfl, rfl⟩
  have hget := h
  rw [AnalysisHost.analyzeVVariableCandidates] at h
  dsimp only at h
  split at h
  · exact .inl (hbare _ h)
  rename_i hmodules
  split at h
  · exact .inl (hbare _ h)
  rename_i hnames
  cases hopen : host.openPoint functionEa currentEa cfunc with
  | error text =>
    rw [hopen] at h
    exact .inl (hbare _ h)
  | ok opened =>
    rw [hopen] at h
    cases opened with
    | none => exact .inl (hbare _ h)
    | some point =>
      rcases rejected_or_kept _ h with ⟨reason, rfl⟩ | ⟨hkept, _⟩
      · exact .inl ⟨rfl, rfl, rfl, rfl⟩
      rcases of_get?_evidences hkept with hnone | ⟨lvar, hlvar, hindex, rfl⟩
      · cases hnone
      rcases candidateEvidence_cases host point lvar with hbare | hproven
      · exact .inl hbare
      refine .inr ⟨?_, ⟨point, hopen, lvar, hlvar, hindex, hproven⟩, fun j other hne hother => ?_⟩
      · rw [AnalysisHost.analyzeVVariableCandidates]
        dsimp only
        rw [if_neg hmodules, if_neg hnames, hopen]
      rw [AnalysisHost.analyzeVVariableCandidates] at hother
      dsimp only at hother
      rw [if_neg hmodules, if_neg hnames, hopen] at hother
      exact survivors_do_not_overlap _ hne h hother

theorem registerSpecFromLvar_placed {lvar : MicroLvar} {width : Nat} {entry : RegisterAlias}
    (h : host.registerSpecFromLvar lvar width = some entry) :
    entry.toRegisterSpec.Placed ∧ width ≤ entry.width := by
  rw [AnalysisHost.registerSpecFromLvar] at h
  split at h
  · cases h
  · obtain ⟨name, _, hname⟩ := List.exists_of_findSome?_eq_some h
    obtain ⟨hentry, hwidth⟩ := Option.filter_eq_some_iff.mp hname
    exact ⟨normalizeRegisterAlias_placed hentry, of_decide_eq_true hwidth⟩

/-- A register the analysis names is one of the sixteen, with the named bits inside. -/
theorem analysis_register_placed {lvars : List VariableRecord} {i : Int} {evidence : RecoveryEvidence}
    {spec : RegisterSpec}
    (h : (host.analyzeVVariableCandidates functionEa currentEa lvars cfunc).evidenceByIndex.get? i = some evidence)
    (hspec : evidence.register = some spec) : spec.Placed := by
  rcases analysis_evidence h with hbare | hcertified
  · rw [hbare.register] at hspec
    cases hspec
  · obtain ⟨point, _, lvar, _, _, target, hrecovered⟩ := hcertified.recovered
    obtain ⟨_, _, _, _, _, hlocation⟩ := analyzeOneLvar_ok hrecovered.analyzed
    cases locationEvidence_ok hlocation with
    | constant _ h =>
      rw [h.evidence] at hspec
      cases hspec
    | register _ h =>
      rw [h.evidence] at hspec
      cases hspec
      exact (registerSpecFromLvar_placed h.assigned).1
    | stack _ _ h =>
      rw [h.evidence] at hspec
      cases hspec

end analysis
end DynvarSync.Ida
