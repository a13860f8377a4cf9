import DynvarSync.Broker.Protocol
import DynvarSync.Lib.Dict

/-! The broker: one reader for each connection with its own buffer and session,
and one registry of the active client of each role. -/
namespace DynvarSync.Broker
open Lib PyText Ida

/-- One client; its socket is named by the number of its connection, which makes at most one session. -/
structure ClientSession where
  role : Role
  connection : Nat
  deriving DecidableEq

/-- The active client of each role. -/
structure ClientRegistry where
  clients : Dict Role ClientSession := Dict.empty

namespace ClientRegistry

/-- The registry with the session, and the session it replaces. -/
def register (registry : ClientRegistry) (session : ClientSession) : ClientRegistry × Option ClientSession :=
  ({ clients := registry.clients.set session.role session }, registry.clients.get? session.role)

def get (registry : ClientRegistry) (role : Role) : Option ClientSession := registry.clients.get? role

/-- A session is removed only while it is the active client of its role. -/
def remove (registry : ClientRegistry) (session : ClientSession) : ClientRegistry :=
  if registry.clients.get? session.role = some session then { clients := registry.clients.pop session.role }
  else registry

end ClientRegistry

def oppositeRole : Role → Option Role
  | .ida => some .windbg
  | .windbg => some .ida
  | .broker => none

/-- The destination of each routed type. -/
def routes : MessageType → Option Role
  | .pcUpdate => some .ida
  | .idaPcMapped => some .windbg
  | .regRequest => some .windbg
  | .regResponse => some .ida
  | .memRequest => some .windbg
  | .memResponse => some .ida
  | _ => none

def destinationRole (source : Role) (type : MessageType) : Option Role :=
  if type = .error then oppositeRole source else routes type

/-- A connection whose reader is running; replacing its session closes its socket. -/
structure Connection where
  buffer : List UInt8 := []
  session : Option ClientSession := none
  socketOpen : Bool := true

structure State where
  accepted : Nat := 0
  connections : Dict Nat Connection := Dict.empty
  registry : ClientRegistry := {}

/-- One message forwarded from a session to the active client of the destination role. -/
structure Routed where
  source : ClientSession
  destination : ClientSession
  message : Message

/-- The broker after a step, with what it wrote to which connection and what it forwarded. -/
structure Stepped where
  state : State
  sent : List (Nat × Payload) := []
  routed : List Routed := []

/-- The text before the first newline and what follows it. -/
def splitLine : List UInt8 → Option (List UInt8 × List UInt8)
  | [] => none
  | b :: rest => if b = 10 then some ([], rest) else (splitLine rest).map fun split => (b :: split.1, split.2)

/-- `not line.strip()`. -/
def isBlankLine (line : List UInt8) : Bool := line.all fun b => b = 32 || (9 ≤ b && b ≤ 13)

namespace State

def putConnection (s : State) (number : Nat) (connection : Connection) : State :=
  { s with connections := s.connections.set number connection }

def closeSocket (s : State) (number : Nat) : State :=
  match s.connections.get? number with
  | some connection => s.putConnection number { connection with socketOpen := false }
  | none => s

/-- The reader ends: its session is unregistered if it is still the active one. -/
def finish (s : State) (number : Nat) (connection : Connection) : State :=
  { s with
    connections := s.connections.pop number
    registry := match connection.session with
      | some session => s.registry.remove session
      | none => s.registry }

/-- Register a session, closing the socket of the one it replaces. -/
def register (s : State) (session : ClientSession) : State :=
  let (registry, old) := s.registry.register session
  let s := { s with registry := registry }
  match old with
  | some old => if old.connection ≠ session.connection then s.closeSocket old.connection else s
  | none => s

def routeMessage (s : State) (source : ClientSession) (message : Message) : Stepped :=
  match destinationRole source.role message.type with
  | none => { state := s }
  | some role =>
    match s.registry.get role with
    | none =>
      { state := s
        sent := [(source.connection, createError "destination_not_connected"
          ("destination " ++ role.text ++ " is not connected") message.id)] }
    | some destination =>
      { state := s
        sent := [(destination.connection, message.fields)]
        routed := [{ source := source, destination := destination, message := message }] }

/-- One valid message of a connection; a connection without a session has to say hello first. -/
def handleMessage (s : State) (number : Nat) (connection : Connection) (message : Message) : Stepped :=
  match connection.session with
  | none =>
    if message.type ≠ .hello then
      { state := s, sent := [(number, createError "hello_required"
          "client must send hello before other messages" message.id)] }
    else if message.role ≠ .ida ∧ message.role ≠ .windbg then
      { state := s, sent := [(number, createError "invalid_role"
          "only ida and windbg clients can register" message.id)] }
    else
      let session : ClientSession := { role := message.role, connection := number }
      { state := (s.register session).putConnection number { connection with session := some session }
        sent := [(number, createHelloAck message.id)] }
  | some session =>
    if message.role ≠ session.role then
      { state := s, sent := [(session.connection, createError "role_mismatch"
          "message role does not match registered client role" message.id)] }
    else if message.type = .hello then
      { state := s, sent := [(session.connection, createHelloAck message.id)] }
    else s.routeMessage session message

/-- One line of a connection's buffer: a line that raises anything but a protocol error ends the reader. -/
def handleLine (loads : JsonLoads) (s : State) (number : Nat) (connection : Connection) (line : List UInt8)
    (rest : List UInt8) : Stepped :=
  let connection := { connection with buffer := rest }
  let s := s.putConnection number connection
  if isBlankLine line then { state := s }
  else match readMessage loads line with
    | .ok message => s.handleMessage number connection message
    | .error (.protocol text) => { state := s, sent := [(number, createError "invalid_message" text (.int 0))] }
    | .error _ => { state := s.finish number connection }

end State

/-- What can happen next: a new connection, bytes (none at its end) on a connection whose buffered
lines are handled, or the handling of one buffered line. -/
inductive Event where
  | accept
  | recv (number : Nat) (chunk : List UInt8)
  | line (number : Nat)

def stepOut (loads : JsonLoads) (s : State) : Event → Stepped
  | .accept => { state := { s.putConnection s.accepted {} with accepted := s.accepted + 1 } }
  | .recv number chunk =>
    match s.connections.get? number with
    | none => { state := s }
    | some connection =>
      if (splitLine connection.buffer).isSome then { state := s }
      else if chunk = [] ∨ connection.socketOpen = false then { state := s.finish number connection }
      else { state := s.putConnection number { connection with buffer := connection.buffer ++ chunk } }
  | .line number =>
    match s.connections.get? number with
    | none => { state := s }
    | some connection => match splitLine connection.buffer with
      | none => { state := s }
      | some (line, rest) => s.handleLine loads number connection line rest

def step (loads : JsonLoads) (s : State) (event : Event) : State := (stepOut loads s event).state

end DynvarSync.Broker
