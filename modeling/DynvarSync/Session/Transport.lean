import DynvarSync.Ida.ClientRuns

/-! The bytes between IDA's client and the broker: what one side writes message by message
the other reads back, however the network cuts it. -/
namespace DynvarSync.Session
open Lib PyText Ida JsonText
open Broker (JsonLoads lineText isBlankLine)

/-- `json.loads` reads at least the texts that `json.dumps` writes without floats. -/
def ReadsJson (loads : JsonLoads) : Prop :=
  ∀ text x, JsonText.decode text.toList = some x → loads text = .ok x

/-- The line of a message. -/
def messageLine (message : Payload) : List UInt8 := Utf8.bytes (encode (.obj message))

section lines
variable {message : Payload} {loads : JsonLoads}

theorem encodeJsonl_eq (message : Payload) : encodeJsonl message = messageLine message ++ [10] := rfl

theorem encode_obj (message : Payload) : encode (.obj message) = '\x7b' :: (encodeFields message ++ ['\x7d']) := by
  rw [encode]

theorem not_mem_messageLine (h : FloatFree (.obj message)) : 10 ∉ messageLine message := by
  intro hmem
  obtain ⟨c, hc, hb⟩ := List.mem_flatMap.mp hmem
  obtain ⟨hlow, hhigh⟩ := printable_encode _ h c hc
  rw [Utf8.utf8EncodeChar_ascii (by omega), List.mem_singleton] at hb
  have hten := congrArg UInt8.toNat hb
  rw [UInt8.toNat_ofNat_of_lt' (Nat.lt_trans hhigh (by decide))] at hten
  change 10 = c.toNat at hten
  omega

/-- Nothing is stripped from the line of a message. -/
theorem lineText_messageLine (message : Payload) :
    lineText (messageLine message) = some (String.ofList (encode (.obj message))) := by
  have hdecode : Utf8.decode? (messageLine message) = some (encode (.obj message)) :=
    (Utf8.decode?_eq_some_iff _ _).mpr rfl
  rw [Utf8.decode?] at hdecode
  obtain ⟨text, htext, hchars⟩ := Option.map_eq_some_iff.mp hdecode
  have hstrip : stripWith textSpace (encode (.obj message)) = encode (.obj message) := by
    rw [encode_obj, stripWith, List.dropWhile_cons_of_neg (by decide), ← List.cons_append, List.reverse_append,
      List.reverse_singleton, List.singleton_append, List.dropWhile_cons_of_neg (by decide), List.reverse_cons,
      List.reverse_reverse]
  rw [lineText, htext, Option.map_some, hchars, hstrip]

theorem isBlankLine_messageLine (message : Payload) : isBlankLine (messageLine message) = false := by
  rw [messageLine, encode_obj, Utf8.bytes_cons, Utf8.utf8EncodeChar_ascii (by decide), isBlankLine,
    List.singleton_append, List.all_cons]
  exact Bool.false_and _

theorem ReadsJson.loads_encode (hloads : ReadsJson loads) (h : WellFormed (.obj message)) :
    loads (String.ofList (encode (.obj message))) = .ok (.obj message) := by
  refine hloads _ _ ?_
  rw [String.toList_ofList]
  have hdecode := decode_encode h (List.forall_mem_nil _)
  rwa [List.append_nil] at hdecode

/-- The broker reads the line of a message as the message. -/
theorem decode_messageLine (hloads : ReadsJson loads) (h : WellFormed (.obj message)) :
    Broker.decodeJsonlLine loads (messageLine message) = .ok message := by
  rw [Broker.decodeJsonlLine, lineText_messageLine]
  dsimp only
  rw [if_neg, hloads.loads_encode h]
  · rfl
  · intro hempty
    have hchars := congrArg String.toList hempty
    rw [String.toList_ofList, encode_obj] at hchars
    cases hchars

/-- So does IDA's client. -/
theorem client_decode_messageLine {reader : JsonReader} (hloads : ReadsJson reader.loads)
    (h : WellFormed (.obj message)) : decodeJsonlLine reader (messageLine message) = .ok message := by
  rw [decodeJsonlLine, lineText_messageLine]
  dsimp only
  rw [hloads.loads_encode h]
  rfl

/-- The lines of the first bytes of a stream of messages are those of the first messages. -/
theorem lines_of_prefix {messages : List Payload} (hformed : ∀ m ∈ messages, WellFormed (.obj m))
    {cut received : List UInt8} (hcut : 10 ∉ cut) (h : received <+: messages.flatMap encodeJsonl ++ cut) :
    ∃ k, Framing.lines 10 received = (messages.take k).map messageLine := by
  have hlines : Framing.lines 10 received <+: Framing.lines 10 (messages.flatMap encodeJsonl ++ cut) :=
    Framing.lines_prefix h
  have hwritten : Framing.lines 10 (messages.flatMap encodeJsonl ++ cut) = messages.map messageLine :=
    Framing.lines_flatMap messageLine hcut messages fun m hm => not_mem_messageLine (hformed m hm).floatFree
  rw [hwritten, List.prefix_iff_eq_take] at hlines
  exact ⟨_, hlines.trans List.map_take.symm⟩

end lines

section transport

/-- The socket of a worker carries its first messages, and of the next one no newline. -/
theorem wire_messages {w : Worker} (h : w.Clean ∨ w.Cut)
    (hformed : ∀ m ∈ w.helloMessage :: w.taken, WellFormed (.obj m)) :
    ∃ sent lost cut, w.helloMessage :: w.taken = sent ++ lost ∧ 10 ∉ cut ∧
      w.wire = sent.flatMap encodeJsonl ++ cut := by
  rcases h with hclean | ⟨sent, last, cut, hall, hcut, hwire⟩
  · exact ⟨w.helloMessage :: w.taken, [], [], (List.append_nil _).symm, List.not_mem_nil,
      hclean.trans (List.append_nil _).symm⟩
  · refine ⟨sent, [last], cut, hall, fun hmem => ?_, hwire⟩
    have hlast : WellFormed (.obj last) := hformed last (hall ▸ List.mem_append_right _ (List.mem_singleton_self _))
    have hbody := hcut.subset hmem
    rw [encodeJsonl_eq, List.dropLast_concat] at hbody
    exact not_mem_messageLine hlast.floatFree hbody

/-- What the broker's reader makes of a worker's bytes is the worker's messages, up to some point. -/
theorem handled_messages {loads : JsonLoads} (hloads : ReadsJson loads) {w : Worker} (hwritten : w.Clean ∨ w.Cut)
    (hformed : ∀ m ∈ w.helloMessage :: w.taken, WellFormed (.obj m)) (number : Nat) (brokerEvents : List Broker.Event)
    (hbytes : (brokerEvents.foldl (Broker.Reading.step loads number) {}).received <+: w.wire) :
    ∃ k, (brokerEvents.foldl (Broker.Reading.step loads number) {}).handled.map (Broker.decodeJsonlLine loads) =
      ((w.helloMessage :: w.taken).take k).map .ok := by
  obtain ⟨sent, lost, cut, hall, hcut, hwire⟩ := wire_messages hwritten hformed
  rw [hwire] at hbytes
  have hsent : ∀ m ∈ sent, WellFormed (.obj m) := fun m hm => hformed m (hall ▸ List.mem_append_left _ hm)
  obtain ⟨n, hlines⟩ := lines_of_prefix hsent hcut hbytes
  have hhandled := (Broker.Reading.run_cuts loads number brokerEvents).handled
  rw [hlines, List.prefix_iff_eq_take, ← List.map_take, List.take_take] at hhandled
  generalize min _ n = k at hhandled
  refine ⟨min k sent.length, ?_⟩
  rw [hhandled, hall, List.map_map, List.take_append_of_le_length (Nat.min_le_right _ _), ← List.take_take,
    List.take_length]
  refine List.map_congr_left fun m hm => ?_
  exact decode_messageLine hloads (hsent m (List.mem_of_mem_take hm))

/-- Over any run of IDA's client and any run of the broker, what the broker's reader makes of a client's bytes is the
client's hello and then the accepted messages it took, each once, unchanged and in order. -/
theorem client_messages_reach_broker (reader : JsonReader) (clientEvents : List ClientEvent) (loads : JsonLoads)
    (hloads : ReadsJson loads) (number : Nat) (brokerEvents : List Broker.Event) (w : Worker)
    (hw : w ∈ (clientEvents.foldl (ClientRun.step reader) {}).workers)
    (hformed : ∀ m ∈ w.helloMessage :: w.taken, WellFormed (.obj m))
    (hbytes : (brokerEvents.foldl (Broker.Reading.step loads number) {}).received <+: w.wire) :
    ∃ k, (brokerEvents.foldl (Broker.Reading.step loads number) {}).handled.map (Broker.decodeJsonlLine loads) =
      ((w.helloMessage :: w.taken).take k).map .ok :=
  handled_messages hloads ((ClientRun.run_holds reader clientEvents).mem_workers w hw).1 hformed number
    brokerEvents hbytes

/-- What the broker writes to a connection along a run. -/
def writtenTo (loads : JsonLoads) (number : Nat) : Broker.State → List Broker.Event → List Payload
  | _, [] => []
  | s, event :: rest =>
    ((Broker.stepOut loads s event).sent.filter fun written => written.1 = number).map Prod.snd ++
      writtenTo loads number (Broker.step loads s event) rest

/-- What a client hands on of the bytes of some messages is these messages, up to some point. -/
theorem messages_of_received {reader : JsonReader} (hreader : ReadsJson reader.loads) {w : Worker}
    (hread : w.Reads reader) {written : List Payload} (hformed : ∀ m ∈ written, WellFormed (.obj m))
    (hbytes : w.received <+: written.flatMap encodeJsonl) : ∃ k, w.messages = written.take k := by
  rw [← List.append_nil (List.flatMap _ _)] at hbytes
  obtain ⟨k, hlines⟩ := lines_of_prefix hformed List.not_mem_nil hbytes
  refine ⟨k, ?_⟩
  have hblank : ∀ line ∈ (written.take k).map messageLine, (!isBlankLine line) = true := by
    intro line hline
    obtain ⟨m, _, rfl⟩ := List.mem_map.mp hline
    rw [isBlankLine_messageLine, Bool.not_false]
  have hdecode : ∀ m ∈ written.take k, (decodeJsonlLine reader (messageLine m)).toOption = some m := by
    intro m hm
    rw [client_decode_messageLine hreader (hformed m (List.mem_of_mem_take hm))]
    rfl
  rw [hread.messages, hlines, List.filter_eq_self.mpr hblank, List.filterMap_map]
  exact (List.filterMap_congr hdecode).trans List.filterMap_some

end transport

section sample

def jsonReader : JsonReader :=
  { loads := fun text => match JsonText.decode text.toList with
      | some x => .ok x
      | none => .error "Expecting value"
    undecodable := fun _ => "invalid start byte" }

theorem jsonReader_reads : ReadsJson jsonReader.loads := by
  intro text x h
  simp only [jsonReader, h]

def sampleHello : Payload := [("type", .str "hello"), ("id", .int 1)]

/-- IDA's client connects and its hello is read by the broker. -/
def connecting : List ClientEvent := [.connect "127.0.0.1" 9100 sampleHello, .opened none, .greet .sent]

def greeted : Worker :=
  { host := "127.0.0.1", port := 9100, helloMessage := sampleHello, phase := .testing, wire := encodeJsonl sampleHello }

def hearing : List Broker.Event := [.accept, .recv 0 (encodeJsonl sampleHello), .line 0]

theorem client_messages_reach_broker_hello :
    ∃ k, (hearing.foldl (Broker.Reading.step jsonReader.loads 0) {}).handled.map
      (Broker.decodeJsonlLine jsonReader.loads) = ((greeted.helloMessage :: greeted.taken).take k).map .ok :=
  client_messages_reach_broker jsonReader connecting jsonReader.loads jsonReader_reads 0 hearing greeted
    (List.mem_singleton_self _) (by simp [greeted, sampleHello, WellFormed, WellFormedFields]) List.prefix_rfl

/-- The first byte of an answer has come. -/
def answered : Worker :=
  { greeted with buffer := [123], received := [123] }

def refused : JsonLoads := fun _ => .error "Expecting value"

def garbled : List Broker.Event := [.accept, .recv 0 [120, 10], .line 0]

theorem garbled_answered : [123] <+: (writtenTo refused 0 {} garbled).flatMap encodeJsonl := by decide +kernel

end sample

end DynvarSync.Session
