import DynvarSync.Ida.Core
import DynvarSync.Ida.Selection
import DynvarSync.Ida.VRecoveryRuns
import DynvarSync.Lib.Run

/-! The controller of the IDA side: one debugger PC or runtime response at a time,
kept in the argument planner, the local recovery and the displayed table. -/
namespace DynvarSync.Ida
open Lib PyText

structure PcMapping where
  pcSeq : Int
  runtimePc : Int
  runtimeModuleBase : Int
  idaImagebase : Int
  idaEa : Int
  module : String

/-- A protocol integer: a number or a text in any base; the error is the ValueError's text. -/
def parseInt : Json → Except String Int
  | .bool b => .ok (if b then 1 else 0)
  | .int n => .ok n
  | .str s => match intAuto s with
    | some n => .ok n
    | none => .error ("invalid literal for int() with base 0: " ++ Json.reprStr s)
  | value => .error ("expected integer-compatible value, got " ++ value.repr)

def runtimePcToIdaEa (runtimePc runtimeModuleBase idaImagebase : Int) : Int :=
  idaImagebase + (runtimePc - runtimeModuleBase)

/-- `payload[key]`; the error is the KeyError's text. -/
def requiredField (payload : Payload) (key : String) : Except String Json :=
  match payload.lookup key with
  | some value => .ok value
  | none => .error (Json.reprStr key)

/-- Map a `pc_update` payload to an IDA address. -/
def mapPcUpdate (payload : Payload) (idaImagebase : Int) : Except String PcMapping := do
  let pcSeq ← parseInt (← requiredField payload "pc_seq")
  let runtimePc ← parseInt (← requiredField payload "pc")
  let runtimeModuleBase ← parseInt (← requiredField payload "runtime_module_base")
  pure
    { pcSeq := pcSeq
      runtimePc := runtimePc
      runtimeModuleBase := runtimeModuleBase
      idaImagebase := idaImagebase
      idaEa := runtimePcToIdaEa runtimePc runtimeModuleBase idaImagebase
      module := (payload.getD "module" (.str "")).text }

/-- `int(payload.get("pc_seq", 0) or 0)`; `none` is the exception. -/
def pcSeqNumber (payload : Payload) : Option Int :=
  let value := payload.getD "pc_seq" (.int 0)
  if !value.isTruthy then some 0
  else match value with
    | .bool b => some (if b then 1 else 0)
    | .int n => some n
    | .float x => x.value.map fun q => q.num.tdiv q.den
    | .str s => intDecimal s
    | _ => none

/-- Result of a Hex-Rays lvar enumeration: lvars are indexed by position. -/
structure VariableEnumerationResult where
  ok : Bool
  functionStartEa : Option Int
  functionEa : String
  lvars : List VariableRecord
  distinct : (lvars.map VariableRecord.lvarIndex).Nodup
  started : ok = true → functionStartEa.isSome = true

/-- What IDA and Hex-Rays answer while one message is handled. Recovery may
raise once it has planned some of the variables. -/
structure HostReply where
  imagebase : Int
  enumerateHexraysVariables : Int → String → VariableEnumerationResult
  analysisProvider : AnalysisProvider
  recoveryRaisesAfter : Option Nat := none

structure DayVarController where
  core : DayVarCore := {}
  vRecovery : VVariableRecovery := VVariableRecovery.init
  view : LiveVariablesView := {}
  maxRecoveryCandidates : Int
  watchedLvarIndexes : List Int := []
  analysisCache : AnalysisSelectionCache := {}
  activePcSeq : Option Int := none
  activeFunctionEa : Option Int := none

/-- The controller after a message, with the messages sent; a raised exception leaves the message loop. -/
structure Handled where
  controller : DayVarController
  sent : List Envelope := []
  raised : Bool := false

def VVariableRecovery.isVRequestId (requestId : Json) : Bool :=
  match requestId.asStr.map String.toList with
  | some ('v' :: '-' :: _) => true
  | _ => false

/-- What `begin_pc` leaves behind when it raises after `turns` variables. -/
def VVariableRecovery.interruptedPc (s : VVariableRecovery) (provider : AnalysisProvider)
    (lvars : List VariableRecord) (functionEa currentEa : Int) (runtimePc : String) (pcSeq : Int)
    (selected : List Int) (turns : Nat) : VVariableRecovery :=
  let analysis := analyze provider functionEa currentEa lvars selected
  let start := s.planningStart analysis lvars functionEa currentEa runtimePc pcSeq
  (((localVariables lvars).take turns).foldl (planVariable analysis.ok selected currentEa runtimePc pcSeq)
    start).recovery

namespace DayVarController

def init (maxRecoveryCandidates : Int) (watchedLvarIndexes : List Int := []) : DayVarController :=
  { maxRecoveryCandidates := max 0 maxRecoveryCandidates, watchedLvarIndexes := watchedLvarIndexes }

def invalidateAnalysisCache (c : DayVarController) (clearCursors : Bool := false) : DayVarController :=
  { c with analysisCache := c.analysisCache.invalidate clearCursors }

/-- Refresh the table with local recovery overlaid on the argument planner's rows. -/
def publishRows (c : DayVarController) : DayVarController :=
  { c with view := c.view.updateRows (c.vRecovery.overlayRows c.core.rows) }

/-- Give each request of the recovery engine its envelope. -/
def wrapRequests (core : DayVarCore) : List Request → List Envelope × DayVarCore
  | [] => ([], core)
  | request :: rest =>
    let (message, core) := core.envelope request.type request.payload
    let (messages, core) := wrapRequests core rest
    (message :: messages, core)

def enterPcSeq (c : DayVarController) (pcSeq : Int) : DayVarController :=
  if c.activePcSeq ≠ some pcSeq then { c.invalidateAnalysisCache with activePcSeq := some pcSeq } else c

def enterFunction (c : DayVarController) (functionStartEa : Option Int) : DayVarController :=
  if c.activeFunctionEa ≠ functionStartEa then { c.invalidateAnalysisCache with activeFunctionEa := functionStartEa }
  else c

/-- A failed mapping is still a newer PC: prior requests are dropped. The table is not refreshed. -/
def mappingFailed (c : DayVarController) (pcSeq : Int) (runtimePc module : String) (idaImagebase : Int)
    (error : String) : Handled :=
  let c := c.invalidateAnalysisCache
  let core := c.core.startPcContext { pcSeq := pcSeq, runtimePc := runtimePc, idaEa := "" }
  let (message, core) := core.makeIdaPcMapped pcSeq runtimePc none module (formatHex idaImagebase) false (some error)
  { controller := { c with core := core, vRecovery := c.vRecovery.invalidatePc pcSeq runtimePc }, sent := [message] }

/-- No variables at the mapped PC: the table is emptied. -/
def enumerationFailed (c : DayVarController) (context : PcContext) : DayVarController :=
  let c := { c with
    core := c.core.startPcContext context
    vRecovery := c.vRecovery.invalidatePc context.pcSeq context.runtimePc }
  { c.invalidateAnalysisCache with view := c.view.updateRows [] }

/-- Local recovery for an enumerated PC, after the arguments were planned. -/
def recoverLocals (c : DayVarController) (host : HostReply) (context : PcContext) (functionStartEa idaEa : Int)
    (lvars previousRows : List VariableRecord) : DayVarController × List Envelope :=
  let (selected, cache) := c.analysisCache.select context.pcSeq functionStartEa idaEa lvars previousRows
    c.view.activeFilter c.watchedLvarIndexes c.maxRecoveryCandidates
  let c := { c with analysisCache := cache }
  match host.recoveryRaisesAfter with
  | some turns =>
    let broken := c.vRecovery.interruptedPc host.analysisProvider lvars functionStartEa idaEa context.runtimePc
      context.pcSeq selected turns
    ({ c with vRecovery := broken.invalidatePc context.pcSeq context.runtimePc }.publishRows, [])
  | none =>
    let (recovery, request) := c.vRecovery.beginPc host.analysisProvider lvars functionStartEa idaEa
      context.runtimePc context.pcSeq (some selected)
    let (messages, core) := wrapRequests c.core request.toList
    ({ c with vRecovery := recovery, core := core }.publishRows, messages)

def mapped (c : DayVarController) (host : HostReply) (mapping : PcMapping) : Handled :=
  let runtimePc := formatHex mapping.runtimePc
  let (message, core) := c.core.makeIdaPcMapped mapping.pcSeq runtimePc (some (formatHex mapping.idaEa))
    mapping.module (formatHex mapping.idaImagebase) true none
  let c := { c with core := core, vRecovery := c.vRecovery.invalidatePc mapping.pcSeq runtimePc }
  let previousRows := c.view.allRows
  let enumeration := host.enumerateHexraysVariables mapping.idaEa runtimePc
  let context : PcContext :=
    { pcSeq := mapping.pcSeq, runtimePc := runtimePc, idaEa := formatHex mapping.idaEa
      functionEa := enumeration.functionEa }
  if !enumeration.ok then { controller := c.enumerationFailed context, sent := [message] }
  else
    let c := c.enterFunction enumeration.functionStartEa
    let functionStartEa := enumeration.functionStartEa.getD 0
    let context := { context with atFunctionEntry := functionStartEa = mapping.idaEa }
    let (core, request) := c.core.buildEntryPlan enumeration.lvars context
    let (c, messages) := { c with core := core }.publishRows.recoverLocals host context functionStartEa mapping.idaEa
      enumeration.lvars previousRows
    { controller := c, sent := [message] ++ request.toList ++ messages }

def handlePcUpdate (c : DayVarController) (host : HostReply) (payload : Payload) : Handled :=
  if !(payload.get "auto_live").isTruthy then { controller := c }
  else
    let runtimePc := (payload.getD "pc" (.str "")).text
    let module := (payload.getD "module" (.str "")).text
    match pcSeqNumber payload with
    | none => { controller := c, raised := true }
    | some pcSeq =>
      let c := c.enterPcSeq pcSeq
      match mapPcUpdate payload host.imagebase with
      | .error error => c.mappingFailed pcSeq runtimePc module host.imagebase error
      | .ok mapping => c.mapped host mapping

def handleRegResponse (c : DayVarController) (payload : Payload) : Handled :=
  if VVariableRecovery.isVRequestId (payload.get "request_id") then
    let applied := c.vRecovery.applyRegResponse payload
    let (messages, core) := wrapRequests c.core applied.memRequests
    let c := { c with vRecovery := applied.recovery, core := core }
    if !applied.accepted then { controller := c } else { controller := c.publishRows, sent := messages }
  else
    let applied := c.core.applyRegResponse payload
    let c := { c with core := applied.core }
    if !applied.accepted then { controller := c } else { controller := c.publishRows, sent := applied.memRequests }

def handleMemResponse (c : DayVarController) (payload : Payload) : Handled :=
  if VVariableRecovery.isVRequestId (payload.get "request_id") then
    let applied := c.vRecovery.applyMemResponse payload
    let c := { c with vRecovery := applied.recovery }
    if !applied.accepted then { controller := c } else { controller := c.publishRows }
  else
    let applied := c.core.applyMemResponse payload
    let c := { c with core := applied.core }
    if !applied.accepted then { controller := c } else { controller := c.publishRows }

/-- One decoded broker message; other types are only logged. -/
def handleMessage (c : DayVarController) (host : HostReply) (message : Payload) : Handled :=
  match (message.getD "payload" (.obj [])).asObj with
  | none => { controller := c }
  | some payload =>
    let type := message.get "type"
    if type.eqStr "pc_update" then c.handlePcUpdate host payload
    else if type.eqStr "reg_response" then c.handleRegResponse payload
    else if type.eqStr "mem_response" then c.handleMemResponse payload
    else { controller := c }

def disconnect (c : DayVarController) : DayVarController :=
  { c.invalidateAnalysisCache true with
    core := c.core.clearPending
    vRecovery := c.vRecovery.clearRuntimeState }

def setFilter (c : DayVarController) (filter : RowFilter) : DayVarController :=
  { c with view := c.view.setFilter filter }.invalidateAnalysisCache

/-- What reaches the controller, in any order. -/
inductive Op where
  | message (host : HostReply) (message : Payload)
  | disconnect
  | setFilter (filter : RowFilter)

def step (c : DayVarController) : Op → DayVarController
  | .message host message => (c.handleMessage host message).controller
  | .disconnect => c.disconnect
  | .setFilter filter => c.setFilter filter

end DayVarController
end DynvarSync.Ida
