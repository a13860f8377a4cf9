import DynvarSync.Broker.Relay
import DynvarSync.Session.Transport

/-! The two directions between the clients as channels: IDA's requests through the broker to the
extension, and the extension's lines through the broker to IDA's client. -/
namespace DynvarSync.Session
open Lib Ida JsonText
open Broker (JsonLoads ClientSession Paired Undisturbed Tracks)
open Broker.Reading (lineRead)

/-- The lines of a connection that the broker handles along a run. -/
def linesHandled (loads : JsonLoads) (number : Nat) : Broker.State → List Broker.Event → List (List UInt8)
  | _, [] => []
  | s, event :: rest => lineRead s number event ++ linesHandled loads number (Broker.step loads s event) rest

section runs
variable {loads : JsonLoads} {number : Nat} {a b : ClientSession}

theorem writtenTo_append (s : Broker.State) (before after : List Broker.Event) :
    writtenTo loads number s (before ++ after) =
      writtenTo loads number s before ++ writtenTo loads number (before.foldl (Broker.step loads) s) after := by
  induction before generalizing s with
  | nil => rfl
  | cons event before ih => rw [List.cons_append, writtenTo, writtenTo, ih, List.foldl_cons, List.append_assoc]

theorem handled_reading (events : List Broker.Event) (r : Broker.Reading) :
    (events.foldl (Broker.Reading.step loads number) r).handled =
      r.handled ++ linesHandled loads number r.state events := by
  induction events generalizing r with
  | nil => exact (List.append_nil _).symm
  | cons event rest ih =>
    rw [List.foldl_cons, ih, linesHandled, ← List.append_assoc]
    rfl

theorem linesHandled_append (s : Broker.State) (before after : List Broker.Event) :
    linesHandled loads number s (before ++ after) =
      linesHandled loads number s before ++ linesHandled loads number (before.foldl (Broker.step loads) s) after := by
  induction before generalizing s with
  | nil => rfl
  | cons event before ih => rw [List.cons_append, linesHandled, linesHandled, ih, List.foldl_cons, List.append_assoc]

/-- Along an undisturbed run the second client is written what is handled of the first. -/
theorem relayed_run {s : Broker.State} (htracks : ∃ log, Tracks s log) (h : Paired s a b)
    {events : List Broker.Event} (hquiet : Run.Along (Broker.step loads) (Undisturbed loads a b) s events) :
    (writtenTo loads b.connection s events).map Except.ok =
      (linesHandled loads a.connection s events).map (Broker.decodeJsonlLine loads) := by
  induction events generalizing s with
  | nil => rfl
  | cons event rest ih =>
    obtain ⟨hevent, hrest⟩ := hquiet
    obtain ⟨log, hlog⟩ := htracks
    have hrelays := h.relays hlog hevent
    have hnext := ih ⟨_, Broker.tracks_step hlog (Broker.step_registers loads s event)⟩ hrelays.kept hrest
    rw [writtenTo, linesHandled, List.map_append, List.map_append, hnext]
    exact congrArg (· ++ _) hrelays.relayed

theorem undisturbed_symm {s : Broker.State} {events : List Broker.Event}
    (h : Run.Along (Broker.step loads) (Undisturbed loads a b) s events) :
    Run.Along (Broker.step loads) (Undisturbed loads b a) s events :=
  Run.along_imp (Broker.step loads) (I := fun _ => True) (fun _ _ _ _ => trivial) (fun _ _ _ hevent => hevent.symm)
    trivial h

theorem reachable_tracks (loads : JsonLoads) (before : List Broker.Event) :
    ∃ log, Tracks (before.foldl (Broker.step loads) {}) log :=
  ⟨_, Broker.tracks_run loads before Broker.tracks_start⟩

/-- What the second client is written once both are registered is what the first has sent since. -/
theorem relayed_messages {before after : List Broker.Event} (h : Paired (before.foldl (Broker.step loads) {}) a b)
    (hquiet : Run.Along (Broker.step loads) (Undisturbed loads a b) (before.foldl (Broker.step loads) {}) after)
    {messages : List Payload} (hread : (linesHandled loads a.connection {} (before ++ after)).map
      (Broker.decodeJsonlLine loads) = messages.map .ok) :
    writtenTo loads b.connection (before.foldl (Broker.step loads) {}) after =
      messages.drop (linesHandled loads a.connection {} before).length := by
  have hrelayed := relayed_run (reachable_tracks loads before) h hquiet
  have hinjective : Function.Injective (Except.ok : Payload → Except Broker.LineError Payload) :=
    fun _ _ => Except.ok.inj
  refine List.map_injective_iff.mpr hinjective ?_
  rw [linesHandled_append, List.map_append] at hread
  rw [hrelayed, List.map_drop, ← hread, List.drop_left' (List.length_map _)]

end runs

/-- While two clients are registered and stay connected, each of them is written exactly what is handled of the other,
message by message and in order, whatever else connects, sends or disconnects without saying hello as a client. -/
theorem clients_relayed (loads : JsonLoads) (before : List Broker.Event) (a b : ClientSession)
    (hpaired : Paired (before.foldl (Broker.step loads) {}) a b) (events : List Broker.Event)
    (hquiet : Run.Along (Broker.step loads) (Undisturbed loads a b) (before.foldl (Broker.step loads) {}) events) :
    let s := before.foldl (Broker.step loads) {}
    (writtenTo loads b.connection s events).map Except.ok =
        (linesHandled loads a.connection s events).map (Broker.decodeJsonlLine loads) ∧
      (writtenTo loads a.connection s events).map Except.ok =
        (linesHandled loads b.connection s events).map (Broker.decodeJsonlLine loads) := by
  intro s
  have htracks : ∃ log, Tracks s log := reachable_tracks loads before
  exact ⟨relayed_run htracks hpaired hquiet, relayed_run htracks hpaired.symm (undisturbed_symm hquiet)⟩

section decidable

mutual
def decideWellFormed : (x : Json) → Decidable (WellFormed x)
  | .null => isTrue trivial
  | .bool _ => isTrue trivial
  | .int _ => isTrue trivial
  | .float _ => isFalse id
  | .str _ => isTrue trivial
  | .arr items => decideWellFormedItems items
  | .obj fields =>
    have := decideWellFormedFields fields
    inferInstanceAs (Decidable ((fields.map Prod.fst).Nodup ∧ WellFormedFields fields))

def decideWellFormedItems : (items : List Json) → Decidable (WellFormedItems items)
  | [] => isTrue trivial
  | x :: rest =>
    have := decideWellFormed x
    have := decideWellFormedItems rest
    inferInstanceAs (Decidable (WellFormed x ∧ WellFormedItems rest))

def decideWellFormedFields : (fields : List (String × Json)) → Decidable (WellFormedFields fields)
  | [] => isTrue trivial
  | (_, x) :: rest =>
    have := decideWellFormed x
    have := decideWellFormedFields rest
    inferInstanceAs (Decidable (WellFormed x ∧ WellFormedFields rest))
end

instance (x : Json) : Decidable (WellFormed x) := decideWellFormed x

end decidable

section sample

def idaClient : ClientSession := { role := .ida, connection := 0 }

def extensionClient : ClientSession := { role := .windbg, connection := 1 }

def idaHello : Payload := Broker.makeEnvelope .hello .ida [] (.int 1)

def idaRequest : Payload := Broker.makeEnvelope .regRequest .ida [] (.int 2)

def extensionUpdate : Payload := Broker.makeEnvelope .pcUpdate .windbg [] (.int 2)

/-- Both clients say hello. -/
def registering : List Broker.Event :=
  [.accept, .accept, .recv 0 (encodeJsonl idaHello), .line 0,
   .recv 1 (encodeJsonl (Broker.makeEnvelope .hello .windbg [] (.int 1))), .line 1]

/-- IDA's client sends a request, the extension an update. -/
def crossing : List Broker.Event :=
  [.recv 0 (encodeJsonl idaRequest), .line 0, .recv 1 (encodeJsonl extensionUpdate), .line 1]

theorem registering_paired :
    Paired (registering.foldl (Broker.step jsonReader.loads) {}) idaClient extensionClient := by
  have htracks := Broker.tracks_run jsonReader.loads registering Broker.tracks_start
  have hlog : Broker.registrations jsonReader.loads {} registering ++ [] = [extensionClient, idaClient] := by
    decide +kernel
  rw [hlog] at htracks
  refine ⟨rfl, by decide +kernel, by decide +kernel, by decide +kernel, by decide +kernel, fun n session hn => ?_⟩
  have hmem := (htracks.owner n session hn).2
  rw [List.mem_cons, List.mem_singleton] at hmem
  exact hmem.symm

theorem idaRequest_crosses : Broker.Crosses jsonReader.loads .ida (messageLine idaRequest) :=
  Broker.crosses_of_read (by decide +kernel)
    (by decide +kernel : _ = some (Broker.Role.ida, MessageType.regRequest)) (by decide)

theorem extensionUpdate_crosses : Broker.Crosses jsonReader.loads .windbg (messageLine extensionUpdate) :=
  Broker.crosses_of_read (by decide +kernel)
    (by decide +kernel : _ = some (Broker.Role.windbg, MessageType.pcUpdate)) (by decide)

theorem crossing_undisturbed : Run.Along (Broker.step jsonReader.loads)
    (Undisturbed jsonReader.loads idaClient extensionClient) (registering.foldl (Broker.step jsonReader.loads) {}) crossing := by
  refine ⟨Broker.undisturbed_recv (by decide +kernel), ?_, Broker.undisturbed_recv (by decide +kernel), ?_, trivial⟩
  · exact Broker.undisturbed_line (a := idaClient) (b := extensionClient) (by decide)
      (by decide +kernel : _ = [messageLine idaRequest]) idaRequest_crosses
  · exact (Broker.undisturbed_line (a := extensionClient) (b := idaClient) (by decide)
      (by decide +kernel : _ = [messageLine extensionUpdate]) extensionUpdate_crosses).symm

theorem clients_relayed_crossing :
    let s := registering.foldl (Broker.step jsonReader.loads) {}
    (writtenTo jsonReader.loads 1 s crossing).map Except.ok =
        (linesHandled jsonReader.loads 0 s crossing).map (Broker.decodeJsonlLine jsonReader.loads) ∧
      (writtenTo jsonReader.loads 0 s crossing).map Except.ok =
        (linesHandled jsonReader.loads 1 s crossing).map (Broker.decodeJsonlLine jsonReader.loads) :=
  clients_relayed jsonReader.loads registering idaClient extensionClient registering_paired crossing
    crossing_undisturbed

/-- IDA's client has sent its hello and the request. -/
def requesting : List ClientEvent :=
  [.connect "127.0.0.1" 9100 idaHello, .opened none, .greet .sent, .send idaRequest, .test, .take .sent]

def requested : Worker :=
  { host := "127.0.0.1", port := 9100, helloMessage := idaHello, phase := .draining, taken := [idaRequest]
    wire := encodeJsonl idaHello ++ encodeJsonl idaRequest }

end sample

end DynvarSync.Session
