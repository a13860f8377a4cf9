import DynvarSync.Ida.Evidence
import DynvarSync.Ida.VRecovery

/-! The argument planner: correlation state, exact-entry register and stack
argument reads, and the application of runtime responses to the rows. -/
namespace DynvarSync.Ida
open Lib PyText

def entryRegisters : List String := ["rcx", "rdx", "r8", "r9"]
def stackArgBaseOffset : Int := 0x28
def stackArgSlotSize : Nat := 8

structure PcContext where
  pcSeq : Int
  runtimePc : String
  idaEa : String
  functionEa : String := ""
  atFunctionEntry : Bool := false
  deriving DecidableEq

structure PendingRequest where
  kind : RequestKind
  pcSeq : Int
  requestId : String
  runtimePc : String
  variableNames : List String := []
  registers : List String := []
  address : String := ""
  size : Nat := 0
  deriving DecidableEq

/-- A message of the IDA role; protocol and role are constants. -/
structure Envelope where
  id : Int
  type : MessageType
  payload : Payload

structure DayVarCore where
  nextMessageId : Int := 1
  currentPc : Option PcContext := none
  pendingRequests : Dict String PendingRequest := Dict.empty
  rows : List VariableRecord := []

/-- Entry stack offset of argument `argIndex >= 4`. -/
def stackArgOffset (argIndex : Nat) : Int := stackArgBaseOffset + stackArgSlotSize * ((argIndex : Int) - 4)

def runtimeReadSize (variableSize : Nat) : Nat :=
  if variableSize ∈ supportedWidths then variableSize else stackArgSlotSize

def formatHexValue (value : String) (variableSize : Nat) : String :=
  match intAuto value with
  | none => value
  | some number =>
    if variableSize ∈ supportedWidths then formatHex (maskWidth number variableSize) else formatHex number

def formatMemoryValue (bytesHex : String) (size : Nat) : String :=
  if size ∉ supportedWidths then bytesHex
  else match fromHex bytesHex with
    | none => bytesHex
    | some data => if data.length < size then bytesHex else formatHex (fromLittleEndian (data.take size))

def regRequestId (pcSeq : Int) : String := "reg-" ++ toString pcSeq ++ "-entry"

def memRequestId (pcSeq : Int) (name : String) : String := "mem-" ++ toString pcSeq ++ "-" ++ name

namespace DayVarCore

def envelope (core : DayVarCore) (type : MessageType) (payload : Payload) : Envelope × DayVarCore :=
  ({ id := core.nextMessageId, type := type, payload := payload },
    { core with nextMessageId := core.nextMessageId + 1 })

def startPcContext (core : DayVarCore) (context : PcContext) : DayVarCore :=
  { core with currentPc := some context, pendingRequests := Dict.empty }

def makeIdaPcMapped (core : DayVarCore) (pcSeq : Int) (runtimePc : String) (idaEa : Option String)
    (module idaImagebase : String) (ok : Bool) (error : Option String) : Envelope × DayVarCore :=
  core.envelope .idaPcMapped
    ([("pc_seq", .int pcSeq), ("runtime_pc", .str runtimePc), ("module", .str module),
      ("ida_imagebase", .str idaImagebase), ("ok", .bool ok)] ++
      (idaEa.map fun ea => ("ida_ea", Json.str ea)).toList ++
      (error.map fun e => ("error", Json.str e)).toList)

/-- What the loop over the enumerated variables carries. -/
structure EntryPlan where
  rows : List VariableRecord := []
  neededRegisters : List String := []
  regVariables : List String := []
  needsRsp : Bool := false

/-- `rsp` is requested last. -/
def EntryPlan.withRsp (plan : EntryPlan) : List String :=
  if plan.needsRsp ∧ "rsp" ∉ plan.neededRegisters then plan.neededRegisters ++ ["rsp"]
  else plan.neededRegisters

def reasonUnsupportedVariable : String := "variable does not have a reliable runtime location in v1"

/-- One turn of the planning loop. -/
def planVariable (previousRows : Dict (String × String) VariableRecord) (runtimePc : String)
    (atFunctionEntry : Bool) (plan : EntryPlan) (lvar : VariableRecord) : EntryPlan :=
  let row := { lvar with currentPc := runtimePc }
  let append (row : VariableRecord) : EntryPlan := { plan with rows := plan.rows ++ [row] }
  match row.isArg, row.argIndex with
  | true, some argIndex =>
    if !atFunctionEntry then
      match (previousRows.get? (row.functionEa, row.name)).filter (fun prior => prior.value ≠ "") with
      | some prior => append { row with
          value := prior.value
          lastPc := orText prior.lastPc prior.currentPc
          status := .stale
          confidence := .staleEntryValue
          location := prior.location
          reason := "entry argument value is stale; current PC is not function entry" }
      | none => append { row with
          status := .unavailable
          confidence := .unknown
          reason := "argument mapping is exact only at function entry" }
    else match entryRegisters[argIndex]? with
      | some register =>
        { plan with
          rows := plan.rows ++ [{ row with
            location := register
            status := .unavailable
            confidence := .unknown
            reason := "waiting for " ++ register ++ " at function entry" }]
          neededRegisters :=
            if register ∈ plan.neededRegisters then plan.neededRegisters
            else plan.neededRegisters ++ [register]
          regVariables := plan.regVariables ++ [row.name] }
      | none =>
        { plan with
          rows := plan.rows ++ [{ row with
            location := "[rsp + " ++ formatHex (stackArgOffset argIndex) ++ "]"
            status := .unavailable
            confidence := .unknown
            reason := "waiting for rsp to request stack argument" }]
          needsRsp := true }
  | _, _ => append { row with
      status := .unavailable
      confidence := .unsupportedVariable
      location := orText row.location "unsupported"
      reason := reasonUnsupportedVariable }

/-- Row state and the register request for the current function's variables. -/
def buildEntryPlan (core : DayVarCore) (lvars : List VariableRecord) (context : PcContext) :
    DayVarCore × Option Envelope :=
  let core := core.startPcContext context
  let previousRows := core.rows.foldl (fun d row => d.set (row.functionEa, row.name) row) Dict.empty
  let plan := lvars.foldl (planVariable previousRows context.runtimePc context.atFunctionEntry) {}
  let neededRegisters := plan.withRsp
  let core := { core with rows := plan.rows }
  if neededRegisters = [] then (core, none)
  else
    let requestId := regRequestId context.pcSeq
    let pending : PendingRequest :=
      { kind := .reg, pcSeq := context.pcSeq, requestId := requestId, runtimePc := context.runtimePc
        variableNames := plan.regVariables, registers := neededRegisters }
    let core := { core with pendingRequests := core.pendingRequests.set requestId pending }
    let (message, core) := core.envelope .regRequest
      [("pc_seq", .int context.pcSeq), ("request_id", .str requestId),
       ("runtime_pc", .str context.runtimePc), ("registers", .arr (neededRegisters.map .str)),
       ("reason", .str "auto_live_refresh")]
    (core, some message)

def takePendingResponse (core : DayVarCore) (payload : Payload) (expectedKind : RequestKind) :
    Except String (PendingRequest × DayVarCore) :=
  match core.currentPc with
  | none => .error "no current pc context"
  | some current =>
    if !(payload.get "pc_seq").eqInt current.pcSeq then
      .error ("stale pc_seq=" ++ (payload.get "pc_seq").text ++ " current=" ++ toString current.pcSeq)
    else if (payload.get "runtime_pc").isTruthy && !(payload.get "runtime_pc").eqStr current.runtimePc then
      .error "runtime_pc does not match current context"
    else match (payload.get "request_id").asStr with
      | none => .error "missing request_id"
      | some requestId =>
        match core.pendingRequests.get? requestId with
        | none => .error ("unexpected request_id=" ++ Json.reprStr requestId)
        | some pending =>
          if pending.kind ≠ expectedKind then
            .error ("unexpected response kind for request_id=" ++ Json.reprStr requestId)
          else .ok (pending, { core with pendingRequests := core.pendingRequests.pop requestId })

/-- An argument passed on the stack, by the code's own test. -/
def isStackArg (row : VariableRecord) : Bool :=
  row.isArg && match row.argIndex with
    | some argIndex => decide (entryRegisters.length ≤ argIndex)
    | none => false

def markError (reason : String) (row : VariableRecord) : VariableRecord :=
  { row with status := .error, confidence := .readFailed, reason := reason }

def markRowsError (core : DayVarCore) (names : List String) (reason : String) : DayVarCore :=
  { core with rows := core.rows.map fun row => if row.name ∈ names then markError reason row else row }

def markStackRowsError (core : DayVarCore) (reason : String) : DayVarCore :=
  { core with rows := core.rows.map fun row => if isStackArg row then markError reason row else row }

/-- One turn of the register-response loop. -/
def applyEntryRegister (registers : Payload) (pending : PendingRequest) (row : VariableRecord) :
    VariableRecord :=
  match row.isArg, row.argIndex.bind (entryRegisters[·]?) with
  | true, some register =>
    match (registers.get register).asStr.filter (· ≠ "") with
    | some value => { row with
        value := formatHexValue value row.size
        status := .fresh
        confidence := .exactEntry
        location := register
        reason := register ++ " at exact function entry"
        lastPc := pending.runtimePc }
    | none => markError ("register " ++ register ++ " missing from response") row
  | _, _ => row

/-- What the loop over the stack arguments carries. -/
structure StackRequests where
  core : DayVarCore
  rows : List VariableRecord := []
  messages : List Envelope := []

/-- One turn of the stack-argument loop. -/
def requestStackArg (rsp : Int) (pending : PendingRequest) (acc : StackRequests) (row : VariableRecord) :
    StackRequests :=
  if !isStackArg row then { acc with rows := acc.rows ++ [row] }
  else
    let address := formatHex (rsp + stackArgOffset (row.argIndex.getD 0))
    let requestId := memRequestId pending.pcSeq row.name
    let size := runtimeReadSize row.size
    let request : PendingRequest :=
      { kind := .mem, pcSeq := pending.pcSeq, requestId := requestId, runtimePc := pending.runtimePc
        variableNames := [row.name], address := address, size := size }
    let core := { acc.core with pendingRequests := acc.core.pendingRequests.set requestId request }
    let (message, core) := core.envelope .memRequest
      [("pc_seq", .int pending.pcSeq), ("request_id", .str requestId),
       ("runtime_pc", .str pending.runtimePc), ("address", .str address), ("size", .int size),
       ("reason", .str "stack_arg"), ("variable", .str row.name)]
    { core := core
      rows := acc.rows ++ [{ row with
        location := address, reason := "waiting for stack argument memory read" }]
      messages := acc.messages ++ [message] }

def buildStackMemRequests (core : DayVarCore) (registers : Payload) (pending : PendingRequest) :
    DayVarCore × List Envelope :=
  match (registers.get "rsp").asStr.filter (· ≠ "") with
  | none => (core.markStackRowsError "rsp missing from register response", [])
  | some rspText =>
    match intAuto rspText with
    | none => (core.markStackRowsError ("invalid rsp value " ++ Json.reprStr rspText), [])
    | some rsp =>
      let acc := core.rows.foldl (requestStackArg rsp pending) { core := core }
      ({ acc.core with rows := acc.rows }, acc.messages)

/-- A response's verdict and the memory requests it gives rise to. -/
structure Applied where
  core : DayVarCore
  accepted : Bool
  reason : String
  memRequests : List Envelope := []

def applyRegResponse (core : DayVarCore) (payload : Payload) : Applied :=
  match core.takePendingResponse payload .reg with
  | .error reason => { core := core, accepted := false, reason := reason }
  | .ok (pending, core) =>
    if !(payload.get "ok").isTrue then
      { core := core.markRowsError pending.variableNames "register read failed"
        accepted := true, reason := "register read failed" }
    else match (payload.get "registers").asObj with
      | none =>
        { core := core.markRowsError pending.variableNames "reg_response missing registers"
          accepted := true, reason := "reg_response missing registers" }
      | some registers =>
        let core := { core with rows := core.rows.map (applyEntryRegister registers pending) }
        let (core, messages) := core.buildStackMemRequests registers pending
        { core := core, accepted := true, reason := "accepted", memRequests := messages }

/-- One turn of the memory-response loop. -/
def applyEntryMemory (payload : Payload) (pending : PendingRequest) (row : VariableRecord) :
    VariableRecord :=
  if row.name ∉ pending.variableNames then row
  else
    let row := { row with location := pending.address, lastPc := pending.runtimePc }
    if (payload.get "ok").isTrue then
      let bytesHex := (payload.getD "bytes_hex" (.str "")).text
      { row with
        value := formatMemoryValue bytesHex pending.size
        status := .fresh
        confidence := .exactEntry
        reason := "stack argument memory read at exact function entry raw=" ++ bytesHex }
    else markError (runtimeErrorReason payload) row

def applyMemResponse (core : DayVarCore) (payload : Payload) : Applied :=
  match core.takePendingResponse payload .mem with
  | .error reason => { core := core, accepted := false, reason := reason }
  | .ok (pending, core) =>
    { core := { core with rows := core.rows.map (applyEntryMemory payload pending) }
      accepted := true, reason := "accepted" }

/-- The controller empties the table when it disconnects. -/
def clearPending (core : DayVarCore) : DayVarCore := { core with pendingRequests := Dict.empty }

/-- The operations the controller may call, in any order and with any payload. -/
inductive Op where
  | startPcContext (context : PcContext)
  | buildEntryPlan (lvars : List VariableRecord) (context : PcContext)
  | envelope (type : MessageType) (payload : Payload)
  | clearPending
  | applyRegResponse (payload : Payload)
  | applyMemResponse (payload : Payload)

def step (core : DayVarCore) : Op → DayVarCore
  | .startPcContext context => core.startPcContext context
  | .buildEntryPlan lvars context => (core.buildEntryPlan lvars context).1
  | .envelope type payload => (core.envelope type payload).2
  | .clearPending => core.clearPending
  | .applyRegResponse payload => (core.applyRegResponse payload).core
  | .applyMemResponse payload => (core.applyMemResponse payload).core

def run (core : DayVarCore) (ops : List Op) : DayVarCore := ops.foldl step core

end DayVarCore
end DynvarSync.Ida
