import DynvarSync.Ida.DuplicateClaims
import DynvarSync.Ida.FutureUses
import DynvarSync.Ida.MicroBlocks

/-! The analysis of a function's variables at one program point: the proofs every kind
of location needs, in the order in which they are asked for. -/
namespace DynvarSync.Ida
open Lib PyText

def reasonScattered : String := "unsupported_scattered_location"

/-- The expression a visited variable stands in. -/
structure CtreeParent where
  isAssignment : Bool
  isPlain : Bool
  leftIsVariable : Bool
  ea : Option Int
  rightNumber : Option (Option Int) := none
  deriving DecidableEq

/-- A variable met in the decompiled tree. -/
structure CtreeVariable where
  idx : Int
  ea : Option Int
  parent : Option CtreeParent := none
  deriving DecidableEq

inductive CtreeKind where
  | constantDef | definition | use
  deriving DecidableEq

structure CtreeFact where
  lvarIndex : Int
  kind : CtreeKind
  ea : Option Int
  constantValue : Option Int := none
  deriving DecidableEq

/-- `bits` and the frame questions of `ida_funcs` and `ida_frame`; `analyzedSp` may be missing or fail. -/
structure NativeFunction where
  startEa : Int
  bits : Int
  analyzedSp : Option (Option Bool)
  fuzzySp : Bool := false
  spd : Int → Option Int
  frameOffRetaddr : Option Int
  flowchart : Except String (List RawBlock)

structure MicroCfunc (ι : Type) where
  mba : Option (Mba ι)
  stkoffDelta : Option Int := none
  ctree : Option (List CtreeVariable) := some []

/-- The IDA modules the analysis asks, and what it looks up in them first. -/
structure AnalysisHost (ι : Type) where
  hasModules : Bool := true
  hasMicrocodeNames : Bool := true
  isX86 : Bool := true
  mmatLvars : Int := 8
  processor : Processor
  getFunc : Int → Option NativeFunction
  decompile : Int → Except String (Option (MicroCfunc ι))
  getMregName : Int → Nat → Option String
  mreg2reg : Int → Nat → Option Int

/-- Why one candidate has no evidence: a proof it lacks, or an exception. -/
inductive CandidateFailure where
  | rejected (reason : String)
  | failed
  deriving DecidableEq

def Mba.ctreeFact {ι : Type} (mba : Mba ι) (visited : CtreeVariable) : CtreeFact :=
  let ea := mba.realMicroEa visited.ea
  match visited.parent with
  | none => { lvarIndex := visited.idx, kind := .use, ea := ea }
  | some parent =>
    if parent.isAssignment && parent.leftIsVariable then
      let parentEa := match mba.realMicroEa parent.ea with
        | none => ea
        | some address => if address = 0 then ea else some address
      match parent.isPlain, parent.rightNumber with
      | true, some value => { lvarIndex := visited.idx, kind := .constantDef, ea := parentEa, constantValue := value }
      | _, _ => { lvarIndex := visited.idx, kind := .definition, ea := parentEa }
    else { lvarIndex := visited.idx, kind := .use, ea := ea }

/-- A tree walk that fails contributes nothing. -/
def collectCtreeFacts {ι : Type} (cfunc : MicroCfunc ι) (mba : Mba ι) : List CtreeFact :=
  (cfunc.ctree.getD []).map mba.ctreeFact

namespace AnalysisHost
variable {ι : Type} (host : AnalysisHost ι)

/-- The spellings of the variable's one register, the microcode's own first. -/
def registerNames (lvar : MicroLvar) (width : Nat) : List String :=
  match lvar.reg1 with
  | none => []
  | some microRegister =>
    (host.getMregName microRegister width).toList ++
      ((host.mreg2reg microRegister width).bind fun processorRegister =>
        if 0 ≤ processorRegister then host.processor.getRegName processorRegister width else none).toList

def registerSpecFromLvar (lvar : MicroLvar) (width : Nat) : Option RegisterAlias :=
  if !lvar.isReg1.getD false || lvar.isReg2.getD false then none
  else (host.registerNames lvar width).findSome? fun name =>
    (normalizeRegisterAlias name).filter fun entry => width ≤ entry.width

end AnalysisHost

def MicroLvar.scattered (lvar : MicroLvar) : Bool := lvar.isScattered.getD false || lvar.wasScatteredArg.getD false

def MicroLvar.entangled (lvar : MicroLvar) : Bool :=
  lvar.isShared.getD false || lvar.isOverlappedVar.getD false || lvar.isUsedByref.getD false

/-- What is known of the location of a variable without evidence. -/
def AnalysisHost.unavailableLocationEvidence {ι : Type} (host : AnalysisHost ι) (lvar : Option MicroLvar) (index : Int)
    (width : Nat) (reason : String) : RecoveryEvidence :=
  match lvar with
  | none => { lvarIndex := index, reason := reason, width := width }
  | some lvar =>
    if lvar.scattered then
      { lvarIndex := index, storageKind := .scattered, storage := "scattered", reason := reason, width := width }
    else if lvar.isRegVar.getD false then
      { lvarIndex := index, storageKind := .register
        storage := ((host.registerSpecFromLvar lvar width).map RegisterAlias.spelling).getD "ambiguous"
        reason := reason, width := width }
    else if lvar.isStkVar.getD false then
      { lvarIndex := index, storageKind := .stack, storage := "stack:unresolved", reason := reason, width := width }
    else { lvarIndex := index, reason := reason, width := width }

/-- `f"{n:+#x}"`. -/
def formatSignedHex (n : Int) : String := (if n < 0 then "-" else "+") ++ formatHex n.natAbs

/-- The variable's place from the current stack pointer, and its place in IDA's frame. -/
def currentRspLocationForLvar {ι : Type} (lvar : MicroLvar) (mba : Mba ι) (cfunc : MicroCfunc ι) (func : NativeFunction)
    (currentEa : Int) : Except CandidateFailure (Int × Int) :=
  let located : Option Int → Option (Int × Int) := fun idaOffset => do
    let idaOffset ← idaOffset
    let spDelta ← func.spd currentEa
    let returnOffset ← func.frameOffRetaddr
    return (-spDelta + idaOffset - returnOffset, idaOffset)
  let decompilerOffset := lvar.stkoff.bind fun vdOffset => if vdOffset < 0 then none else mba.stkoffVd2ida vdOffset
  let rawOffset := lvar.locationStkoff.bind fun offset => cfunc.stkoffDelta.map fun delta => offset - delta
  match func.analyzedSp with
  | none => .error (.rejected reasonUnresolvedStack)
  | some none => .error .failed
  | some (some false) => .error (.rejected reasonUnresolvedStack)
  | some (some true) =>
    if func.fuzzySp then .error (.rejected reasonUnresolvedStack)
    else match (located decompilerOffset).or (located rawOffset) with
      | none => .error (.rejected reasonUnresolvedStack)
      | some (rspOffset, idaOffset) =>
        if rspOffset.natAbs > 0x1000000 then .error (.rejected reasonUnresolvedStack) else .ok (rspOffset, idaOffset)

/-- What the analysis of one program point shares between the variables. -/
structure AnalysisPoint (ι : Type) where
  func : NativeFunction
  cfunc : MicroCfunc ι
  mba : Mba ι
  microBlocks : Dict Int MicroBlockData
  currentBlock : MicroBlockData
  boundary : Nat
  currentEa : Int
  nativeBounds : Option (Int × Int)
  nativeCfg : Except String NativeCfg
  ctreeFacts : List CtreeFact

/-- A rejection with the reason, if there is one. -/
def rejectFor (reason : Option String) : Except CandidateFailure Unit :=
  match reason with
  | some reason => .error (.rejected reason)
  | none => .ok ()

/-- A rejection unless the proof is there. -/
def require (holds : Bool) (reason : String) : Except CandidateFailure Unit :=
  if holds then .ok () else .error (.rejected reason)

/-- The answer, or a rejection where there is none. -/
def requireSome {α : Type} (answer : Option α) (reason : String) : Except CandidateFailure α :=
  match answer with
  | some value => .ok value
  | none => .error (.rejected reason)

section candidate
variable {ι : Type} (host : AnalysisHost ι) (point : AnalysisPoint ι) (index : Int) (width : Nat) (lvar : MicroLvar)

/-- The one reaching definition, with its collected instruction and its address. -/
def selectDefinition : Except CandidateFailure (DefinitionSite × CollectedInstruction × Int) := do
  let candidateCfg := point.mba.candidateCfgFacts lvar index width point.microBlocks
  let reaching := findReachingDefinitions candidateCfg point.currentBlock.blockId point.boundary
  rejectFor (reachingDefinitionRejectionReason reaching)
  let selected ← requireSome reaching.definitions.head? reasonNoDefinition
  let definition ← requireSome
    ((point.microBlocks.get? selected.blockId).bind fun block => block.instructions[selected.instructionIndex]?)
    reasonNoDefinition
  let definitionEa ← requireSome selected.ea reasonNoDefinition
  return (selected, definition, definitionEa)

def contradicts (definitionEa constant : Int) (fact : CtreeFact) : Bool :=
  fact.lvarIndex = index && fact.kind = .constantDef && fact.ea = some definitionEa &&
    (fact.constantValue.map fun value => decide (maskWidth value width ≠ maskWidth constant width)).getD false

def constantEvidence (definitionEa constant : Int) : Except CandidateFailure RecoveryEvidence := do
  require (!point.ctreeFacts.any (contradicts index width definitionEa constant)) reasonNoDefinition
  match formatConstant constant width with
  | .error _ => throw .failed
  | .ok text =>
    return { lvarIndex := index, storageKind := .constant, storage := "constant:" ++ text
             sourceEa := some definitionEa, confidence := .exactConstant
             reason := "unique CFG reaching definition proves an exact live constant"
             constantValue := some constant, width := width }

def registerEvidence (register : RegisterAlias) (definitionEa : Int) : Except CandidateFailure RecoveryEvidence :=
  match point.nativeCfg with
  | .error _ => .error (.rejected reasonUnresolvedNativePoint)
  | .ok nativeCfg =>
    let validation := nativeCfg.validateRegisterStorageCfg definitionEa point.currentEa register.toRegisterSpec width
    if !validation.valid then .error (.rejected validation.reason)
    else .ok
      { lvarIndex := index, storageKind := .register, storage := register.spelling
        sourceEa := some definitionEa, confidence := .exactRegisterLocation
        reason := "unique CFG reaching definition and storage proof establish register liveness"
        register := some register.toRegisterSpec, width := width }

def stackEvidence (selected : DefinitionSite) (definitionEa : Int) : Except CandidateFailure RecoveryEvidence := do
  require (selected.blockId = point.currentBlock.blockId) reasonUnresolvedStack
  let bounds ← requireSome point.nativeBounds reasonUnresolvedStack
  require (decide (bounds.1 ≤ definitionEa ∧ definitionEa < bounds.2)) reasonUnresolvedStack
  require (!lvar.isAliasable.getD true) reasonUnresolvedStack
  let (rspOffset, idaStackOffset) ←
    currentRspLocationForLvar lvar point.mba point.cfunc point.func point.currentEa
  require (host.processor.nativeDecoder.stackDefinitionRemainsValid definitionEa point.currentEa idaStackOffset width)
    reasonUnresolvedStack
  return { lvarIndex := index, storageKind := .stack, storage := "stack:rsp" ++ formatSignedHex rspOffset
           sourceEa := some definitionEa, confidence := .exactStackLocation
           reason := "unique reaching definition and future use prove exact stack slot"
           stackPointerOffset := some rspOffset, width := width }

/-- The location that is proven once the definition and the liveness are. -/
def locationEvidence (selected : DefinitionSite) (definition : CollectedInstruction) (definitionEa : Int)
    (nativeDefinition : DecodedInstruction) : Except CandidateFailure RecoveryEvidence :=
  let register := host.registerSpecFromLvar lvar width
  let constant := (directConstantDefinition definition.instruction index width).filter fun _ =>
    register.isNone || nativeDefinitionUsesImmediate nativeDefinition
  match constant, register with
  | some value, _ => constantEvidence point index width definitionEa value
  | none, some register => registerEvidence point index width register definitionEa
  | none, none =>
    if lvar.isRegVar.getD false then .error (.rejected reasonAmbiguousRegister)
    else if lvar.isStkVar.getD false then stackEvidence host point index width lvar selected definitionEa
    else .error (.rejected reasonNoDefinition)

def analyzeOneLvar : Except CandidateFailure RecoveryEvidence := do
  require (decide (width ∈ supportedWidths)) reasonUnsupportedWidth
  require (!lvar.scattered) reasonScattered
  require (!lvar.entangled) (if lvar.isRegVar.getD false then reasonAmbiguousRegister else reasonUnresolvedStack)
  let (selected, definition, definitionEa) ← selectDefinition point index width lvar
  let nativeDefinition ←
    requireSome (host.processor.decodeInstruction definitionEa) reasonUnresolvedNativePoint
  let candidateCfg := point.mba.candidateCfgFacts lvar index width point.microBlocks
  rejectFor (futureUseRejectionReason (findFutureUses candidateCfg point.currentBlock.blockId point.boundary))
  locationEvidence host point index width lvar selected definition definitionEa nativeDefinition

end candidate

/-- An exception with the text unless the check holds. -/
def ensure (holds : Bool) (text : String) : Except String Unit := if holds then .ok () else .error text

namespace AnalysisHost
variable {ι : Type} (host : AnalysisHost ι)

/-- The evidence of one variable, or what stands in for it. -/
def candidateEvidence (point : AnalysisPoint ι) (lvar : VariableRecord) : RecoveryEvidence :=
  let answer : Option MicroLvar × Except CandidateFailure RecoveryEvidence :=
    match point.mba.vectorAt lvar.lvarIndex with
    | none => (none, .error (.rejected reasonNoDefinition))
    | some target =>
      if target.name ≠ (if lvar.name = "<unnamed>" then "" else lvar.name) then
        (some target, .error (.rejected reasonMicrocode))
      else if target.width ≠ lvar.size then (some target, .error (.rejected reasonUnsupportedWidth))
      else (some target, analyzeOneLvar host point lvar.lvarIndex lvar.size target)
  match answer.2 with
  | .ok evidence => evidence
  | .error (.rejected reason) => host.unavailableLocationEvidence answer.1 lvar.lvarIndex lvar.size reason
  | .error .failed => { lvarIndex := lvar.lvarIndex, reason := reasonMicrocode }

def mappedFunction (functionEa currentEa : Int) : Except String NativeFunction :=
  match host.getFunc currentEa with
  | none => .error "mapped EA does not belong to the enumerated function"
  | some func =>
    if func.startEa ≠ functionEa then .error "mapped EA does not belong to the enumerated function" else .ok func

def decompiled (functionEa : Int) (cfunc : Option (MicroCfunc ι)) : Except String (MicroCfunc ι) :=
  match cfunc with
  | some cfunc => .ok cfunc
  | none => match host.decompile functionEa with
    | .error text => .error text
    | .ok none => .error "Hex-Rays decompilation returned no cfunc"
    | .ok (some cfunc) => .ok cfunc

def lvarMicrocode (cfunc : MicroCfunc ι) : Except String (Mba ι) :=
  match cfunc.mba with
  | none => .error "cfunc has no underlying microcode"
  | some mba => if mba.maturity < host.mmatLvars then .error "microcode has not reached MMAT_LVARS" else .ok mba

/-- The checks before any variable is looked at; no point means the address has no unique run of microcode. -/
def openPoint (functionEa currentEa : Int) (cfunc : Option (MicroCfunc ι)) :
    Except String (Option (AnalysisPoint ι)) := do
  let func ← host.mappedFunction functionEa currentEa
  ensure (host.isX86 && func.bits = 64) "v recovery currently supports x64 functions only"
  let cfunc ← host.decompiled functionEa cfunc
  let mba ← host.lvarMicrocode cfunc
  ensure (host.processor.decodeInstruction currentEa).isSome
    ("native instruction decode failed at " ++ formatHex currentEa)
  let microBlocks ← mba.collectMicroBlocks
  return (findExactMicrocodePoint microBlocks currentEa).map fun (currentBlock, boundary) =>
    { func := func, cfunc := cfunc, mba := mba, microBlocks := microBlocks, currentBlock := currentBlock
      boundary := boundary, currentEa := currentEa
      nativeBounds := nativeBlockBounds func.flowchart currentEa
      nativeCfg := buildNativeCfgFacts host.processor func.flowchart
      ctreeFacts := collectCtreeFacts cfunc mba }

/-- Prove what can be proven about the variables just before the instruction at the current address. -/
def analyzeVVariableCandidates (functionEa currentEa : Int) (lvars : List VariableRecord)
    (cfunc : Option (MicroCfunc ι)) : RecoveryAnalysis :=
  let all : (VariableRecord → RecoveryEvidence) → Dict Int RecoveryEvidence := fun evidenceOf =>
    lvars.foldl (fun evidence lvar => evidence.set lvar.lvarIndex (evidenceOf lvar)) Dict.empty
  let unavailable := all fun lvar => { lvarIndex := lvar.lvarIndex, reason := reasonMicrocode }
  if !host.hasModules then
    { ok := false, evidenceByIndex := unavailable, error := "IDA/Hex-Rays recovery APIs are unavailable" }
  else if !host.hasMicrocodeNames then
    { ok := false, evidenceByIndex := unavailable, error := "required IDA 9.3 microcode APIs are unavailable" }
  else match host.openPoint functionEa currentEa cfunc with
    | .error text => { ok := false, evidenceByIndex := unavailable, error := reasonMicrocode ++ ": " ++ text }
    | .ok none =>
      { ok := true
        evidenceByIndex := all fun lvar => { lvarIndex := lvar.lvarIndex, reason := reasonUnresolvedNativePoint } }
    | .ok (some point) =>
      { ok := true, evidenceByIndex := rejectDuplicateStorageClaims (all (host.candidateEvidence point)) }

/-- The analysis as the recovery engine calls it, with the decompilation it is handed. -/
def provider (cfunc : Option (MicroCfunc ι)) : AnalysisProvider := fun functionEa currentEa lvars =>
  .ok (host.analyzeVVariableCandidates functionEa currentEa lvars cfunc)

end AnalysisHost
end DynvarSync.Ida
