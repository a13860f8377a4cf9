import DynvarSync.Ida.Variable

/-! The envelope of a broker message: decoding one line of bytes, checking the
fields, and the messages the broker itself writes. -/
namespace DynvarSync.Broker
open Lib PyText Ida

inductive Role where
  | ida | windbg | broker
  deriving DecidableEq, Repr

def Role.text : Role → String
  | .ida => "ida"
  | .windbg => "windbg"
  | .broker => "broker"

def typeText : MessageType → String
  | .hello => "hello"
  | .helloAck => "hello_ack"
  | .pcUpdate => "pc_update"
  | .idaPcMapped => "ida_pc_mapped"
  | .regRequest => "reg_request"
  | .regResponse => "reg_response"
  | .memRequest => "mem_request"
  | .memResponse => "mem_response"
  | .error => "error"

def supportedRoles : List Role := [.ida, .windbg, .broker]

def supportedMessageTypes : List MessageType :=
  [.hello, .helloAck, .pcUpdate, .idaPcMapped, .regRequest, .regResponse, .memRequest, .memResponse, .error]

/-- What a line can raise: a `ProtocolError` with its text, the `UnicodeDecodeError` of bytes that
are no UTF-8, or the `TypeError` of looking up an array or object in a set. -/
inductive LineError where
  | protocol (text : String)
  | undecodable
  | unhashable
  deriving DecidableEq

/-- `json.loads`; the error is the message of the `JSONDecodeError`. -/
abbrev JsonLoads := String → Except String Json

/-- The text `json.loads` is given: the decoded line without surrounding blanks. -/
def lineText (line : List UInt8) : Option String :=
  (String.fromUTF8? ⟨line.toArray⟩).map fun text => String.ofList (stripWith textSpace text.toList)

/-- One line as a JSON object. -/
def decodeJsonlLine (loads : JsonLoads) (line : List UInt8) : Except LineError Payload :=
  match lineText line with
  | none => .error .undecodable
  | some text =>
    if text = "" then .error (.protocol "empty JSONL line")
    else match loads text with
      | .error reason => .error (.protocol ("invalid JSON: " ++ reason))
      | .ok message => match message.asObj with
        | none => .error (.protocol "message must be a JSON object")
        | some fields => .ok fields

/-- The protocol number is compared as Python compares numbers. -/
def checkProtocolVersion (fields : Payload) : Bool := (fields.get "protocol").eqInt 1

/-- Whether a value can be looked up in a set. -/
def isHashable : Json → Bool
  | .arr _ => false
  | .obj _ => false
  | _ => true

/-- The member of a set of texts that a value equals. -/
def memberIn {α : Type} (text : α → String) (supported : List α) (value : Json) : Except LineError (Option α) :=
  if isHashable value then .ok (supported.find? fun a => value.eqStr (text a)) else .error .unhashable

theorem memberIn_some {α : Type} {text : α → String} {supported : List α} {value : Json} {a : α}
    (h : memberIn text supported value = .ok (some a)) : value = .str (text a) := by
  unfold memberIn at h
  split at h
  · have hequal := List.find?_some (Except.ok.inj h)
    cases value with
    | str s => exact congrArg Json.str (of_decide_eq_true hequal)
    | _ => cases hequal
  · cases h

/-- An envelope that passed every check; its fields are the decoded object's. -/
structure Message where
  fields : Payload
  type : MessageType
  role : Role
  payload : Payload
  version : checkProtocolVersion fields = true
  numbered : (fields.get "id").isInt = true
  typed : fields.get "type" = .str (typeText type)
  sender : fields.get "role" = .str role.text
  body : fields.get "payload" = .obj payload

def Message.id (message : Message) : Json := message.fields.get "id"

/-- The checks of the envelope, in order. -/
def validateMessageShape (fields : Payload) : Except LineError Message :=
  if version : checkProtocolVersion fields = true then
    if numbered : (fields.get "id").isInt = true then
      match typed : memberIn typeText supportedMessageTypes (fields.get "type") with
      | .error error => .error error
      | .ok none => .error (.protocol ("unsupported message type: " ++ (fields.get "type").repr))
      | .ok (some type) =>
        match sender : memberIn Role.text supportedRoles (fields.get "role") with
        | .error error => .error error
        | .ok none => .error (.protocol ("unsupported role: " ++ (fields.get "role").repr))
        | .ok (some role) =>
          match body : (fields.get "payload").asObj with
          | none => .error (.protocol "payload must be an object")
          | some payload => .ok
              { fields := fields, type := type, role := role, payload := payload, version := version
                numbered := numbered, typed := memberIn_some typed, sender := memberIn_some sender
                body := (Json.asObj_eq_some_iff _ _).mp body }
    else .error (.protocol "message id must be an integer")
  else .error (.protocol ("unsupported protocol version: " ++ (fields.get "protocol").repr))

/-- Decoding and checking, as the reader loop does for each line. -/
def readMessage (loads : JsonLoads) (line : List UInt8) : Except LineError Message :=
  match decodeJsonlLine loads line with
  | .error error => .error error
  | .ok fields => validateMessageShape fields

def makeEnvelope (type : MessageType) (role : Role) (payload : Payload) (messageId : Json) : Payload :=
  [("protocol", .int 1), ("id", messageId), ("type", .str (typeText type)), ("role", .str role.text),
   ("payload", .obj payload)]

def createHelloAck (messageId : Json) : Payload :=
  makeEnvelope .helloAck .broker [("ok", .bool true), ("broker_version", .str "0.1")] messageId

def createError (code message : String) (messageId : Json) : Payload :=
  makeEnvelope .error .broker [("ok", .bool false), ("code", .str code), ("message", .str message)] messageId

end DynvarSync.Broker
