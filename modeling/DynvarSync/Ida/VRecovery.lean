import DynvarSync.Ida.Evidence
import Mathlib.Data.List.Sort

/-! The local recovery engine: per-PC records, correlated runtime reads and the
bounded history of last successes. Diagnostic log lines are not modelled. -/
namespace DynvarSync.Ida
open Lib PyText

/-- Recovery state of one non-argument lvar at the current PC. -/
structure VVariableRecoveryRecord where
  lvarIndex : Int
  name : String
  typeString : String
  width : Nat
  printedLocation : String
  functionEa : Int
  currentEa : Int
  candidateStorageKind : StorageKind
  recoveryStatus : Status
  confidence : Confidence
  reason : String
  storage : String := ""
  sourceEa : Option Int := none
  value : String := ""
  currentRuntimePc : String := ""
  currentPcSeq : Int := 0
  lastSuccessfulValue : String := ""
  lastSuccessfulPcSeq : Option Int := none
  lastUpdatePc : String := ""
  deriving DecidableEq

structure HistoryValue where
  name : String
  width : Nat
  typeString : String
  lvarDefea : String
  value : String
  pcSeq : Int
  runtimePc : String
  sourceEa : Option Int
  deriving DecidableEq

inductive RequestKind where
  | reg | mem
  deriving DecidableEq, Repr

structure PendingVRequest where
  kind : RequestKind
  pcSeq : Int
  requestId : String
  runtimePc : String
  lvarIndexes : List Int
  registers : List String := []
  address : String := ""
  size : Nat := 0
  deriving DecidableEq

/-- A request handed to the envelope factory. -/
structure Request where
  type : MessageType
  payload : Payload

/-- One `_mark_fresh` call, kept only as a ghost of the run. -/
structure Observation where
  functionEa : Int
  lvarIndex : Int
  name : String
  width : Nat
  typeString : String
  lvarDefea : String
  value : String
  deriving DecidableEq

/-- `observations` is a ghost, newest first: no operation reads it. -/
structure VVariableRecovery where
  maxHistory : Nat
  maxHistory_pos : 0 < maxHistory
  history : Dict (Int × Int) HistoryValue := Dict.empty
  records : Dict Int VVariableRecoveryRecord := Dict.empty
  evidence : Dict Int RecoveryEvidence := Dict.empty
  pending : Dict String PendingVRequest := Dict.empty
  pcSeq : Option Int := none
  runtimePc : String := ""
  functionEa : Int := 0
  currentEa : Int := 0
  sourceVariables : List VariableRecord := []
  observations : List Observation := []

/-- The error case is an analysis exception with its text. -/
abbrev AnalysisProvider := Int → Int → List VariableRecord → Except String RecoveryAnalysis

def fullRegisterOrder : List String :=
  ["rax", "rbx", "rcx", "rdx", "rsi", "rdi", "rbp", "rsp",
   "r8", "r9", "r10", "r11", "r12", "r13", "r14", "r15"]

/-- Unknown names sort after the known ones, by text. -/
def registerLe (a b : String) : Prop :=
  fullRegisterOrder.idxOf a < fullRegisterOrder.idxOf b ∨
    (fullRegisterOrder.idxOf a = fullRegisterOrder.idxOf b ∧ a ≤ b)

instance : DecidableRel registerLe := fun a b => by unfold registerLe; infer_instance

def sortRegisters (registers : List String) : List String := registers.insertionSort registerLe

def vRegRequestId (pcSeq : Int) : String := "v-reg-" ++ toString pcSeq ++ "-runtime"

def vMemRequestId (pcSeq lvarIndex : Int) : String :=
  "v-mem-" ++ toString pcSeq ++ "-" ++ toString lvarIndex

namespace VVariableRecoveryRecord

def setUnavailable (record : VVariableRecoveryRecord) (reason : String) (preserveStale : Bool := true) :
    VVariableRecoveryRecord :=
  if preserveStale ∧ record.lastSuccessfulValue ≠ "" then
    { record with
      value := record.lastSuccessfulValue
      recoveryStatus := .stale
      confidence := .staleRuntimeValue
      reason := reason }
  else
    { record with
      value := ""
      recoveryStatus := .unavailable
      confidence := .unknown
      reason := reason }

def setWaiting (record : VVariableRecoveryRecord) (reason : String) : VVariableRecoveryRecord :=
  if record.lastSuccessfulValue ≠ "" then
    { record with
      value := record.lastSuccessfulValue
      recoveryStatus := .stale
      confidence := .staleRuntimeValue
      reason := reason }
  else
    { record with
      value := ""
      recoveryStatus := .unavailable
      confidence := .unknown
      reason := reason }

def setError (record : VVariableRecoveryRecord) (reason : String) : VVariableRecoveryRecord :=
  { record with value := "", recoveryStatus := .error, confidence := .readFailed, reason := reason }

/-- The record's share of `_mark_fresh`. -/
def setFresh (record : VVariableRecoveryRecord) (value : String) (confidence : Confidence) :
    VVariableRecoveryRecord :=
  { record with
    value := value
    recoveryStatus := .fresh
    confidence := confidence
    reason := match record.candidateStorageKind with
      | .constant => "current reaching definition is an exact constant"
      | .register => "register location is proven live at current PC"
      | _ => record.reason
    lastSuccessfulValue := value
    lastSuccessfulPcSeq := some record.currentPcSeq
    lastUpdatePc := record.currentRuntimePc }

end VVariableRecoveryRecord

namespace VVariableRecovery

def init (maxHistory : Int := 256) : VVariableRecovery :=
  { maxHistory := (max 1 maxHistory).toNat, maxHistory_pos := by omega }

/-- Records are shared objects: writing one back is mutating it in place. -/
def store (s : VVariableRecovery) (record : VVariableRecoveryRecord) : VVariableRecovery :=
  { s with records := s.records.set record.lvarIndex record }

def pruneHistory (s : VVariableRecovery) : VVariableRecovery :=
  if s.history.size ≤ s.maxHistory then s
  else
    let oldest := s.history.entries.insertionSort (fun a b => a.2.pcSeq ≤ b.2.pcSeq)
    let evicted := (oldest.take (s.history.size - s.maxHistory)).map Prod.fst
    { s with history := evicted.foldl Dict.pop s.history }

def rowLvarDefea (s : VVariableRecovery) (lvarIndex : Int) : String :=
  match s.sourceVariables.find? (fun row => row.lvarIndex = lvarIndex) with
  | some row => row.lvarDefea
  | none => ""

def markFresh (s : VVariableRecovery) (record : VVariableRecoveryRecord) (value : String)
    (confidence : Confidence) : VVariableRecovery :=
  let entry : HistoryValue :=
    { name := record.name, width := record.width, typeString := record.typeString
      lvarDefea := s.rowLvarDefea record.lvarIndex, value := value
      pcSeq := record.currentPcSeq, runtimePc := record.currentRuntimePc, sourceEa := record.sourceEa }
  let observation : Observation :=
    { functionEa := record.functionEa, lvarIndex := record.lvarIndex, name := record.name
      width := record.width, typeString := record.typeString
      lvarDefea := s.rowLvarDefea record.lvarIndex, value := value }
  pruneHistory { s.store (record.setFresh value confidence) with
    history := s.history.set (record.functionEa, record.lvarIndex) entry
    observations := observation :: s.observations }

def matchingHistory (s : VVariableRecovery) (lvar : VariableRecord) : Option HistoryValue :=
  (s.history.get? (lvar.functionStartEa, lvar.lvarIndex)).filter fun h =>
    h.name = lvar.name ∧ h.width = lvar.size ∧ h.typeString = lvar.typeString ∧
      h.lvarDefea = lvar.lvarDefea

def newRecord (s : VVariableRecovery) (lvar : VariableRecord) (evidence : RecoveryEvidence)
    (pcSeq : Int) (runtimePc : String) (currentEa : Int) : VVariableRecoveryRecord :=
  let history := s.matchingHistory lvar
  { lvarIndex := lvar.lvarIndex
    name := lvar.name
    typeString := lvar.typeString
    width := lvar.size
    printedLocation := orText lvar.printedLocation lvar.location
    functionEa := lvar.functionStartEa
    currentEa := currentEa
    candidateStorageKind := evidence.storageKind
    recoveryStatus := .unavailable
    confidence := .unknown
    reason := evidence.reason
    storage := evidence.storage
    sourceEa := evidence.sourceEa
    currentRuntimePc := runtimePc
    currentPcSeq := pcSeq
    lastSuccessfulValue := (history.map HistoryValue.value).getD ""
    lastSuccessfulPcSeq := history.map HistoryValue.pcSeq
    lastUpdatePc := (history.map HistoryValue.runtimePc).getD "" }

def startContext (s : VVariableRecovery) (functionEa currentEa : Int) (runtimePc : String) (pcSeq : Int) :
    VVariableRecovery :=
  { s with
    functionEa := functionEa
    currentEa := currentEa
    runtimePc := runtimePc
    pcSeq := some pcSeq
    pending := Dict.empty
    records := Dict.empty
    evidence := Dict.empty
    sourceVariables := [] }

def invalidatePc (s : VVariableRecovery) (pcSeq : Int) (runtimePc : String) : VVariableRecovery :=
  s.startContext 0 0 runtimePc pcSeq

def clearRuntimeState (s : VVariableRecovery) : VVariableRecovery :=
  { s with
    pcSeq := none
    runtimePc := ""
    functionEa := 0
    currentEa := 0
    pending := Dict.empty
    records := Dict.empty
    evidence := Dict.empty
    sourceVariables := [] }

/-- What the loop over the local variables carries. -/
structure PlanState where
  recovery : VVariableRecovery
  neededRegisters : List String := []
  runtimeIndexes : List Int := []

def chooseEvidence (s : VVariableRecovery) (ok : Bool) (selected : List Int) (lvarIndex : Int) :
    RecoveryEvidence :=
  if ok then
    if lvarIndex ∈ selected then (s.evidence.get? lvarIndex).getD { lvarIndex := lvarIndex }
    else { lvarIndex := lvarIndex, reason := reasonAnalysisDeferred }
  else { lvarIndex := lvarIndex, reason := reasonMicrocode }

/-- One turn of the planning loop. -/
def planVariable (ok : Bool) (selected : List Int) (currentEa : Int) (runtimePc : String) (pcSeq : Int)
    (p : PlanState) (lvar : VariableRecord) : PlanState :=
  let evidence := p.recovery.chooseEvidence ok selected lvar.lvarIndex
  let record := p.recovery.newRecord lvar evidence pcSeq runtimePc currentEa
  let put (r : VVariableRecoveryRecord) : PlanState := { p with recovery := p.recovery.store r }
  if !ok then put (record.setUnavailable reasonMicrocode false)
  else match evidence.storageKind, evidence.constantValue, evidence.register, evidence.stackPointerOffset with
    | .constant, some constant, _, _ =>
      match formatConstant constant lvar.size with
      | .error _ => put (record.setUnavailable reasonUnsupportedWidth)
      | .ok value => { p with recovery := p.recovery.markFresh record value evidence.confidence }
    | .register, _, some spec, _ =>
      if lvar.size ∉ supportedWidths ∨ lvar.size > spec.width then
        put (record.setUnavailable reasonUnsupportedWidth)
      else
        { recovery := p.recovery.store (record.setWaiting ("waiting for register " ++ spec.fullRegister))
          neededRegisters := p.neededRegisters.insert spec.fullRegister
          runtimeIndexes := p.runtimeIndexes ++ [lvar.lvarIndex] }
    | .stack, _, _, some _ =>
      if lvar.size ∉ supportedWidths then put (record.setUnavailable reasonUnsupportedWidth)
      else
        { recovery := p.recovery.store
            (record.setWaiting "waiting for rsp to resolve exact stack location")
          neededRegisters := p.neededRegisters.insert "rsp"
          runtimeIndexes := p.runtimeIndexes ++ [lvar.lvarIndex] }
    | _, _, _, _ => put (record.setUnavailable evidence.reason)

def localVariables (lvars : List VariableRecord) : List VariableRecord :=
  lvars.filter fun lvar => !lvar.isArg

def selectedIndexes (lvars : List VariableRecord) (analysisLvarIndexes : Option (List Int)) : List Int :=
  analysisLvarIndexes.getD ((localVariables lvars).map VariableRecord.lvarIndex)

/-- The analysis of one PC, an exception turned into a failed result. -/
def analyze (provider : AnalysisProvider) (functionEa currentEa : Int) (lvars : List VariableRecord)
    (selected : List Int) : RecoveryAnalysis :=
  match provider functionEa currentEa
      ((localVariables lvars).filter fun lvar => lvar.lvarIndex ∈ selected) with
  | .ok analysis => analysis
  | .error e => { ok := false, evidenceByIndex := Dict.empty, error := reasonMicrocode ++ ": " ++ e }

/-- Rebuild every non-argument record for a mapped PC and plan its register read. -/
def beginPc (s : VVariableRecovery) (provider : AnalysisProvider) (lvars : List VariableRecord)
    (functionEa currentEa : Int) (runtimePc : String) (pcSeq : Int)
    (analysisLvarIndexes : Option (List Int)) : VVariableRecovery × Option Request :=
  let locals := localVariables lvars
  let selected := selectedIndexes lvars analysisLvarIndexes
  let analysis := analyze provider functionEa currentEa lvars selected
  let started := { s.startContext functionEa currentEa runtimePc pcSeq with
    sourceVariables := locals
    evidence := analysis.evidenceByIndex }
  let plan := locals.foldl (planVariable analysis.ok selected currentEa runtimePc pcSeq)
    { recovery := started }
  let orderedRegisters := sortRegisters plan.neededRegisters
  if orderedRegisters = [] then (plan.recovery, none)
  else
    let requestId := vRegRequestId pcSeq
    let pending : PendingVRequest :=
      { kind := .reg, pcSeq := pcSeq, requestId := requestId, runtimePc := runtimePc
        lvarIndexes := plan.runtimeIndexes, registers := orderedRegisters }
    ({ plan.recovery with pending := plan.recovery.pending.set requestId pending },
      some { type := .regRequest, payload :=
        [("pc_seq", .int pcSeq), ("request_id", .str requestId), ("runtime_pc", .str runtimePc),
         ("registers", .arr (orderedRegisters.map .str)), ("reason", .str "v_variable_recovery")] })

def takePending (s : VVariableRecovery) (payload : Payload) (expectedKind : RequestKind) :
    Except String (PendingVRequest × VVariableRecovery) :=
  match s.pcSeq with
  | none => .error "no current v recovery context"
  | some current =>
    if !(payload.get "pc_seq").eqInt current then
      .error ("stale pc_seq=" ++ (payload.get "pc_seq").text ++ " current=" ++ toString current)
    else if (payload.get "runtime_pc").isTruthy && !(payload.get "runtime_pc").eqStr s.runtimePc then
      .error "runtime_pc does not match current v recovery context"
    else match (payload.get "request_id").asStr with
      | none => .error "missing request_id"
      | some requestId =>
        match s.pending.get? requestId with
        | none => .error ("unexpected request_id=" ++ Json.reprStr requestId)
        | some pending =>
          if pending.kind ≠ expectedKind then
            .error ("unexpected response kind for request_id=" ++ Json.reprStr requestId)
          else .ok (pending, { s with pending := s.pending.pop requestId })

def markReadError (s : VVariableRecovery) (indexes : List Int) (reason : String) : VVariableRecovery :=
  indexes.foldl (fun s lvarIndex =>
    match s.records.get? lvarIndex with
    | none => s
    | some record => s.store (record.setError reason)) s

/-- A response's verdict and the memory requests it gives rise to. -/
structure Applied where
  recovery : VVariableRecovery
  accepted : Bool
  reason : String
  memRequests : List Request := []

/-- One turn of the register-response loop. -/
def applyRegisterIndex (registers : Payload) (pending : PendingVRequest)
    (acc : VVariableRecovery × List Request) (lvarIndex : Int) : VVariableRecovery × List Request :=
  let s := acc.1
  match s.records.get? lvarIndex, s.evidence.get? lvarIndex with
  | some record, some evidence =>
    match evidence.storageKind, evidence.register, evidence.stackPointerOffset with
    | .register, some spec, _ =>
      match extractRegisterValue (registers.get spec.fullRegister) spec record.width with
      | .error e => (s.store (record.setError ("register read failed: " ++ e)), acc.2)
      | .ok value => (s.markFresh record value .exactRegisterLocation, acc.2)
    | .stack, _, some offset =>
      match concreteStackAddress (registers.get "rsp") offset with
      | .error e => (s.store (record.setError (reasonUnresolvedStack ++ ": " ++ e)), acc.2)
      | .ok address =>
        let requestId := vMemRequestId pending.pcSeq lvarIndex
        let request : PendingVRequest :=
          { kind := .mem, pcSeq := pending.pcSeq, requestId := requestId, runtimePc := pending.runtimePc
            lvarIndexes := [lvarIndex], address := address, size := record.width }
        let waiting := { record with
          storage := "stack:" ++ address
          reason := "waiting for exact stack memory read" }
        ({ s.store waiting with pending := s.pending.set requestId request },
          acc.2 ++ [{ type := .memRequest, payload :=
            [("pc_seq", .int pending.pcSeq), ("request_id", .str requestId),
             ("runtime_pc", .str pending.runtimePc), ("address", .str address),
             ("size", .int record.width), ("reason", .str "v_variable_stack"),
             ("variable", .str record.name), ("lvar_index", .int lvarIndex)] }])
    | _, _, _ => acc
  | _, _ => acc

def applyRegResponse (s : VVariableRecovery) (payload : Payload) : Applied :=
  match s.takePending payload .reg with
  | .error reason => { recovery := s, accepted := false, reason := reason }
  | .ok (pending, s) =>
    if !(payload.get "ok").isTrue then
      { recovery := s.markReadError pending.lvarIndexes "register read failed"
        accepted := true, reason := "register read failed" }
    else match (payload.get "registers").asObj with
      | none =>
        { recovery := s.markReadError pending.lvarIndexes "reg_response missing registers"
          accepted := true, reason := "reg_response missing registers" }
      | some registers =>
        let result := pending.lvarIndexes.foldl (applyRegisterIndex registers pending) (s, [])
        { recovery := result.1, accepted := true, reason := "accepted", memRequests := result.2 }

/-- One turn of the memory-response loop. -/
def applyMemoryIndex (payload : Payload) (pending : PendingVRequest) (s : VVariableRecovery)
    (lvarIndex : Int) : VVariableRecovery :=
  match s.records.get? lvarIndex with
  | none => s
  | some record =>
    if !(payload.get "ok").isTrue then s.store (record.setError (runtimeErrorReason payload))
    else match decodeLittleEndian (payload.getD "bytes_hex" (.str "")).text pending.size with
      | .error e => s.store (record.setError ("memory read failed: " ++ e))
      | .ok value =>
        (s.markFresh record value .exactStackLocation).store
          { record.setFresh value .exactStackLocation with
            storage := "stack:" ++ pending.address
            reason := "exact stack memory read raw=" ++ (payload.getD "bytes_hex" (.str "")).text }

/-- A reply for another address or size leaves its request pending. -/
def applyMemResponse (s : VVariableRecovery) (payload : Payload) : Applied :=
  match s.takePending payload .mem with
  | .error reason => { recovery := s, accepted := false, reason := reason }
  | .ok (pending, s) =>
    let putBack := { s with pending := s.pending.set pending.requestId pending }
    let address := payload.get "address"
    let size := payload.get "size"
    if !(address.isNull || address.eqStr "" || address.eqStr pending.address) then
      { recovery := putBack, accepted := false
        reason := "memory response address does not match pending request" }
    else if !(size.isNull || size.eqInt pending.size) then
      { recovery := putBack, accepted := false
        reason := "memory response size does not match pending request" }
    else
      { recovery := pending.lvarIndexes.foldl (applyMemoryIndex payload pending) s
        accepted := true, reason := "accepted" }

/-- Show the recovery records on the non-argument rows. -/
def overlayRow (s : VVariableRecovery) (row : VariableRecord) : VariableRecord :=
  if row.isArg then row
  else match s.records.get? row.lvarIndex with
    | none => row
    | some record => { row with
        value := record.value
        status := record.recoveryStatus
        confidence := record.confidence
        reason := record.reason
        lastPc := record.lastUpdatePc
        currentPc := record.currentRuntimePc
        currentEa := formatHex record.currentEa
        sourceEa := (record.sourceEa.map formatHex).getD ""
        storageKind := some record.candidateStorageKind
        storage := record.storage
        currentPcSeq := some record.currentPcSeq
        lastSuccessValue := record.lastSuccessfulValue
        lastSuccessPcSeq := record.lastSuccessfulPcSeq }

def overlayRows (s : VVariableRecovery) (rows : List VariableRecord) : List VariableRecord :=
  rows.map s.overlayRow

/-- The operations a controller may call, in any order and with any payload. -/
inductive Op where
  | beginPc (provider : AnalysisProvider) (lvars : List VariableRecord) (functionEa currentEa : Int)
      (runtimePc : String) (pcSeq : Int) (analysisLvarIndexes : Option (List Int))
  | invalidatePc (pcSeq : Int) (runtimePc : String)
  | clearRuntimeState
  | applyRegResponse (payload : Payload)
  | applyMemResponse (payload : Payload)

def step (s : VVariableRecovery) : Op → VVariableRecovery
  | .beginPc provider lvars functionEa currentEa runtimePc pcSeq selected =>
    (s.beginPc provider lvars functionEa currentEa runtimePc pcSeq selected).1
  | .invalidatePc pcSeq runtimePc => s.invalidatePc pcSeq runtimePc
  | .clearRuntimeState => s.clearRuntimeState
  | .applyRegResponse payload => (s.applyRegResponse payload).recovery
  | .applyMemResponse payload => (s.applyMemResponse payload).recovery

def run (s : VVariableRecovery) (ops : List Op) : VVariableRecovery := ops.foldl step s

end VVariableRecovery
end DynvarSync.Ida
