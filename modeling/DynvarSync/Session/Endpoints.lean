import DynvarSync.Ida.ControllerContext
import DynvarSync.Windbg.RegisterHandler
import DynvarSync.Windbg.RequestText
import DynvarSync.Windbg.StepSequence

/-! Both ends of the broker's channels in one state: the debuggee, the extension that answers from it, and the
IDA plugin that applies the answers. Both stay connected, and every line arrives in its turn. -/
namespace DynvarSync.Session
open Lib PyText CText JsonText Ida Windbg

def defaultPumpMessages : Nat := 16

/-- What the debugger engine answers while the debuggee stays where it is. -/
structure Debuggee where
  pcInfo : Option PcInfo
  registers : Option EngineRegisters
  memory : DebugClient

/-- A line on its way to IDA, with the number of the stop at which it was written. -/
structure SentLine where
  line : List UInt8
  stop : Nat

/-- A response that IDA accepted: the stop it was read at, and the stop of the update that IDA's context is from. -/
structure AppliedResponse where
  readAt : Nat
  updateAt : Nat
  deriving DecidableEq

/-- The stops are numbered; every move of the debuggee begins the next one. -/
structure Endpoints where
  debuggee : Debuggee
  stop : Nat := 0
  nextMessageId : UInt32 := 1
  nextPcSeq : UInt32 := 1
  pumping : Nat := 0
  toExtension : List (List Char) := []
  toIda : List SentLine := []
  controller : DayVarController
  contextStop : Nat := 0
  applied : List AppliedResponse := []

def parseOptionalUnsigned (args : Option (List Char)) (defaultValue : Nat) : Nat :=
  match (args.getD []).dropWhile asciiSpace with
  | [] => defaultValue
  | text => match scanUnsigned text with
    | none => defaultValue
    | some value => if value = 0 then defaultValue else value

/-- The request types the extension answers. -/
inductive RequestType where
  | reg
  | mem

def requestType (line : List Char) : Option RequestType :=
  match extractJsonStringField line "type" 64 with
  | none => none
  | some type =>
    if type = "reg_request".toList then some .reg
    else if type = "mem_request".toList then some .mem
    else none

/-- The answer that is sent for a line, if one is. -/
def handleIncomingMessage (d : Debuggee) (messageId : UInt32) (line : List Char) : Option (List Char) :=
  match requestType line with
  | none => none
  | some .reg => handleRegRequest d.registers messageId line
  | some .mem => handleMemRequest d.memory messageId line

/-- Whether the handler of a line gets as far as taking a message id. -/
def takesMessageId (d : Debuggee) (line : List Char) : Bool :=
  match requestType line with
  | none => false
  | some .reg => match regRequestFields line with
    | none => false
    | some fields => (readRegisters d.registers fields.names).isOk
  | some .mem => (memRequestFields line).isSome

/-- A line as IDA reads it. -/
def readMessage (line : List UInt8) : Option Payload :=
  ((Utf8.decode? line).bind JsonText.decode).bind Json.asObj

namespace Endpoints

/-- `DvsSendPcUpdateAndPump`: a new pump begins when the update is sent. -/
def sendPcUpdateAndPump (s : Endpoints) (reason : String) : Endpoints :=
  match s.debuggee.pcInfo with
  | none => { s with pumping := 0 }
  | some info =>
    let counted := { s with nextMessageId := s.nextMessageId + 1, nextPcSeq := s.nextPcSeq + 1, pumping := 0 }
    match writePcUpdate jsonBufferSize s.nextMessageId s.nextPcSeq info.pc info.module info.runtimeModuleBase
        (toBytes reason.toList) true with
    | none => counted
    | some line => { counted with toIda := s.toIda ++ [⟨line, s.stop⟩], pumping := defaultPumpMessages }

/-- One turn of the pump's loop. -/
def takeLine (s : Endpoints) : Endpoints :=
  match s.pumping, s.toExtension with
  | turns + 1, line :: rest =>
    let text := receivedText line
    { s with
      pumping := turns
      toExtension := rest
      nextMessageId := if takesMessageId s.debuggee text then s.nextMessageId + 1 else s.nextMessageId
      toIda := s.toIda ++
        (handleIncomingMessage s.debuggee s.nextMessageId text).toList.map fun answer => ⟨toBytes answer, s.stop⟩ }
  | _, _ => s

/-- IDA handles the next line. -/
def deliver (s : Endpoints) (host : HostReply) : Endpoints :=
  match s.toIda with
  | [] => s
  | sent :: rest =>
    match readMessage sent.line with
    | none => { s with toIda := rest }
    | some message =>
      let handled := s.controller.handleMessage host message
      { s with
        toIda := rest
        toExtension := s.toExtension ++ handled.sent.map fun e => encodeMessage (envelopeJson e)
        controller := handled.controller
        contextStop := if (DayVarController.contextSeq message).isSome then sent.stop else s.contextStop
        applied := if s.controller.accepts message then s.applied ++ [⟨sent.stop, s.contextStop⟩] else s.applied }

end Endpoints

/-- What happens at either end, in any order: the debuggee moves without the extension being told, a command begins
once the pump before it is over, the pump takes a line or times out, and a line reaches IDA. -/
inductive Event where
  | moved (debuggee : Debuggee)
  | dvsPc
  | stepCompleted
  | dvsPoll (args : Option (List Char))
  | takeLine
  | pumpEnds
  | deliver (host : HostReply)

namespace Endpoints

def step (s : Endpoints) : Event → Endpoints
  | .moved debuggee => { s with debuggee := debuggee, stop := s.stop + 1 }
  | .dvsPc => s.sendPcUpdateAndPump "dvs_pc"
  | .stepCompleted => s.sendPcUpdateAndPump "dvs_step"
  | .dvsPoll args => { s with pumping := parseOptionalUnsigned args defaultPumpMessages }
  | .takeLine => s.takeLine
  | .pumpEnds => { s with pumping := 0 }
  | .deliver host => s.deliver host

end Endpoints
end DynvarSync.Session
