import DynvarSync.Broker.Broker
import DynvarSync.Lib.JsonText
import DynvarSync.Lib.Utf8

/-! IDA's broker client: a queue filled by the user interface and a worker thread that
owns the socket, as one state machine of their interleaved actions. -/
namespace DynvarSync.Ida
open Lib
open Broker (splitLine isBlankLine lineText JsonLoads)

/-- `json.loads`, and the text of the `UnicodeDecodeError` of bytes that are no UTF-8. -/
structure JsonReader where
  loads : JsonLoads
  undecodable : List UInt8 → String

def encodeJsonl (message : Payload) : List UInt8 := Utf8.bytes (JsonText.encode (.obj message)) ++ [10]

/-- The error is the text of the exception. -/
def decodeJsonlLine (reader : JsonReader) (line : List UInt8) : Except String Payload :=
  match lineText line with
  | none => .error (reader.undecodable line)
  | some text => match reader.loads text with
    | .error reason => .error reason
    | .ok message => match message.asObj with
      | none => .error "message is not a JSON object"
      | some fields => .ok fields

/-- What `sendall` comes to; it fails before it has written the last byte. -/
inductive SendResult where
  | sent
  | failed (written : Nat) (text : String)

inductive RecvResult where
  | timeout
  | failed (text : String)
  | bytes (chunk : List UInt8)

/-- Where the worker stands in `_run`. -/
inductive Phase where
  | connecting | greeting | testing | draining | receiving | finishing
  deriving DecidableEq

/-- The worker thread and what has gone over its socket. -/
structure Worker where
  host : String
  port : Int
  helloMessage : Payload
  phase : Phase := .connecting
  socketClosed : Bool := false
  buffer : List UInt8 := []
  taken : List Payload := []
  wire : List UInt8 := []
  received : List UInt8 := []
  messages : List Payload := []

structure ProtocolClient where
  sendQueue : List (Option Payload) := []
  thread : Option Worker := none
  sock : Bool := false
  stopEvent : Bool := false
  connected : Bool := false
  statuses : List String := []

/-- A call of the user interface, or the worker's next action with what the socket answers. -/
inductive ClientEvent where
  | connect (host : String) (port : Int) (helloMessage : Payload)
  | send (message : Payload)
  | disconnect
  | opened (failure : Option String)
  | greet (result : SendResult)
  | test
  | take (result : SendResult)
  | recv (result : RecvResult)
  | finish

/-- At most as many lines as there are bytes. -/
def drainFrom (reader : JsonReader) : Nat → List UInt8 → List (Except String Payload) × List UInt8
  | 0, buffer => ([], buffer)
  | budget + 1, buffer => match splitLine buffer with
    | none => ([], buffer)
    | some (line, rest) =>
      let (read, left) := drainFrom reader budget rest
      if isBlankLine line then (read, left) else (decodeJsonlLine reader line :: read, left)

/-- What every complete line is read as, and the bytes that are left. -/
def drainReceiveBuffer (reader : JsonReader) (buffer : List UInt8) : List (Except String Payload) × List UInt8 :=
  drainFrom reader buffer.length buffer

namespace Worker

/-- What a `sendall` puts on the socket; on a closed one it fails at once. -/
def sendall (w : Worker) (message : Payload) : SendResult → Option Worker
  | .sent => if w.socketClosed then none else some { w with wire := w.wire ++ encodeJsonl message }
  | .failed written _ =>
    if w.socketClosed then some w else some { w with wire := w.wire ++ (encodeJsonl message).dropLast.take written }

end Worker

namespace ProtocolClient

def status (s : ProtocolClient) (text : String) : ProtocolClient := { s with statuses := s.statuses ++ [text] }

def connect (s : ProtocolClient) (host : String) (port : Int) (helloMessage : Payload) : ProtocolClient :=
  match s.thread with
  | some _ => s.status "already connected or connecting"
  | none => { s with stopEvent := false, thread := some { host := host, port := port, helloMessage := helloMessage } }

def send (s : ProtocolClient) (message : Payload) : ProtocolClient :=
  if s.stopEvent then s.status ("drop send while disconnected type=" ++ (message.get "type").text)
  else { s with sendQueue := s.sendQueue ++ [some message] }

def disconnect (s : ProtocolClient) : ProtocolClient :=
  { s with
    stopEvent := true
    sendQueue := s.sendQueue ++ [none]
    thread := if s.sock then s.thread.map fun w => { w with socketClosed := true } else s.thread
    connected := false }

def advance (s : ProtocolClient) (w : Worker) (phase : Phase) : ProtocolClient :=
  { s with thread := some { w with phase := phase } }

def opened (s : ProtocolClient) (w : Worker) : Option String → ProtocolClient
  | none => { s.advance w .greeting with sock := true }
  | some text => (s.advance w .finishing).status ("connect failed: " ++ text)

def greet (s : ProtocolClient) (w : Worker) (result : SendResult) : ProtocolClient :=
  match w.sendall w.helloMessage result with
  | none => s
  | some w => match result with
    | .sent =>
      { s.advance w .testing with connected := true }.status
        ("connected to broker " ++ w.host ++ ":" ++ toString w.port)
    | .failed _ text => (s.advance w .finishing).status ("connect failed: " ++ text)

/-- One turn of the loop in `_drain_send_queue`. -/
def take (s : ProtocolClient) (w : Worker) (result : SendResult) : ProtocolClient :=
  match s.sendQueue with
  | [] => s.advance w .receiving
  | none :: rest => { s.advance w .receiving with sendQueue := rest }
  | some message :: rest =>
    match w.sendall message result with
    | none => s
    | some w => match result with
      | .sent => { s.advance { w with taken := w.taken ++ [message] } .draining with sendQueue := rest }
      | .failed _ text =>
        { s.advance { w with taken := w.taken ++ [message] } .receiving with
          sendQueue := rest, stopEvent := true }.status ("send failed: " ++ text)

/-- The bytes go through the buffer; a closed socket gives none. -/
def recv (reader : JsonReader) (s : ProtocolClient) (w : Worker) : RecvResult → ProtocolClient
  | .timeout => s.advance w .testing
  | .failed text =>
    let s := s.advance w .finishing
    if s.stopEvent then s else s.status ("socket receive failed: " ++ text)
  | .bytes chunk =>
    if chunk = [] then (s.advance w .finishing).status "broker disconnected"
    else if w.socketClosed then s
    else
      let (read, left) := drainReceiveBuffer reader (w.buffer ++ chunk)
      { s.advance { w with
          buffer := left
          received := w.received ++ chunk
          messages := w.messages ++ read.filterMap Except.toOption } .testing with
        statuses := s.statuses ++ read.filterMap fun line => match line with
          | .ok _ => none
          | .error text => some ("ignored invalid JSONL from broker: " ++ text) }

def finish (s : ProtocolClient) : ProtocolClient :=
  { s with thread := none, sock := false, stopEvent := true, connected := false }.status "disconnected"

/-- An action of the worker, if it stands before that action. -/
def whenAt (s : ProtocolClient) (phase : Phase) (action : Worker → ProtocolClient) : ProtocolClient :=
  match s.thread with
  | none => s
  | some w => if w.phase = phase then action w else s

def step (reader : JsonReader) (s : ProtocolClient) : ClientEvent → ProtocolClient
  | .connect host port helloMessage => s.connect host port helloMessage
  | .send message => s.send message
  | .disconnect => s.disconnect
  | .opened failure => s.whenAt .connecting fun w => s.opened w failure
  | .greet result => s.whenAt .greeting fun w => s.greet w result
  | .test => s.whenAt .testing fun w => s.advance w (if s.stopEvent then .finishing else .draining)
  | .take result => s.whenAt .draining fun w => s.take w result
  | .recv result => s.whenAt .receiving fun w => s.recv reader w result
  | .finish => s.whenAt .finishing fun _ => s.finish

end ProtocolClient
end DynvarSync.Ida
