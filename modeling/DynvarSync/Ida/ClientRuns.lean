import DynvarSync.Broker.Readers
import DynvarSync.Ida.ProtocolClient
import DynvarSync.Lib.Run
import Mathlib.Data.List.ReduceOption

/-! Runs of the broker client, whatever the user interface, the worker and the socket do
next: what was accepted for sending is taken once and in order, and what arrives is read line by line. -/
namespace DynvarSync.Ida
open Lib
open Broker (splitLine isBlankLine splitLine_none splitLine_some)

/-- A client with the messages it accepted and the workers that have ended. -/
structure ClientRun where
  client : ProtocolClient := {}
  accepted : List Payload := []
  ended : List Worker := []

namespace ClientRun

def accepts (s : ProtocolClient) : ClientEvent → List Payload
  | .send message => if s.stopEvent then [] else [message]
  | _ => []

def step (reader : JsonReader) (r : ClientRun) (event : ClientEvent) : ClientRun :=
  let client := r.client.step reader event
  { client := client
    accepted := r.accepted ++ accepts r.client event
    ended := if client.thread.isNone then r.ended ++ r.client.thread.toList else r.ended }

/-- Every worker there has been, the running one last. -/
def workers (r : ClientRun) : List Worker := r.ended ++ r.client.thread.toList

end ClientRun

/-- What can become of the client in one event. -/
inductive Acts (reader : JsonReader) (s : ProtocolClient) : ClientEvent → ProtocolClient → Prop
  | idle (event : ClientEvent) : (∀ message, event ≠ .send message) → Acts reader s event s
  | connect (host : String) (port : Int) (helloMessage : Payload) :
      Acts reader s (.connect host port helloMessage) (s.connect host port helloMessage)
  | send (message : Payload) : Acts reader s (.send message) (s.send message)
  | disconnect : Acts reader s .disconnect s.disconnect
  | opened {w : Worker} (failure : Option String) : s.thread = some w → w.phase = .connecting →
      Acts reader s (.opened failure) (s.opened w failure)
  | greet {w : Worker} (result : SendResult) : s.thread = some w → w.phase = .greeting →
      Acts reader s (.greet result) (s.greet w result)
  | test {w : Worker} : s.thread = some w → w.phase = .testing →
      Acts reader s .test (s.advance w (if s.stopEvent then .finishing else .draining))
  | take {w : Worker} (result : SendResult) : s.thread = some w → w.phase = .draining →
      Acts reader s (.take result) (s.take w result)
  | recv {w : Worker} (result : RecvResult) : s.thread = some w → w.phase = .receiving →
      Acts reader s (.recv result) (s.recv reader w result)
  | finish {w : Worker} : s.thread = some w → w.phase = .finishing → Acts reader s .finish s.finish

theorem whenAt_cases (s : ProtocolClient) (phase : Phase) (action : Worker → ProtocolClient) :
    s.whenAt phase action = s ∨
      ∃ w, s.thread = some w ∧ w.phase = phase ∧ s.whenAt phase action = action w := by
  rw [ProtocolClient.whenAt]
  cases hthread : s.thread with
  | none => exact .inl rfl
  | some w =>
    by_cases hphase : w.phase = phase
    · exact .inr ⟨w, rfl, hphase, if_pos hphase⟩
    · exact .inl (if_neg hphase)

theorem step_acts (reader : JsonReader) (s : ProtocolClient) (event : ClientEvent) :
    Acts reader s event (s.step reader event) := by
  cases event with
  | connect host port helloMessage => exact .connect host port helloMessage
  | send message => exact .send message
  | disconnect => exact .disconnect
  | opened failure =>
    rw [ProtocolClient.step]
    rcases whenAt_cases s .connecting fun w => s.opened w failure with heq | ⟨w, hthread, hphase, heq⟩
    · rw [heq]
      exact .idle _ nofun
    · rw [heq]
      exact .opened failure hthread hphase
  | greet result =>
    rw [ProtocolClient.step]
    rcases whenAt_cases s .greeting fun w => s.greet w result with heq | ⟨w, hthread, hphase, heq⟩
    · rw [heq]
      exact .idle _ nofun
    · rw [heq]
      exact .greet result hthread hphase
  | test =>
    rw [ProtocolClient.step]
    rcases whenAt_cases s .testing fun w => s.advance w (if s.stopEvent then .finishing else .draining) with
      heq | ⟨w, hthread, hphase, heq⟩
    · rw [heq]
      exact .idle _ nofun
    · rw [heq]
      exact .test hthread hphase
  | take result =>
    rw [ProtocolClient.step]
    rcases whenAt_cases s .draining fun w => s.take w result with heq | ⟨w, hthread, hphase, heq⟩
    · rw [heq]
      exact .idle _ nofun
    · rw [heq]
      exact .take result hthread hphase
  | recv result =>
    rw [ProtocolClient.step]
    rcases whenAt_cases s .receiving fun w => s.recv reader w result with heq | ⟨w, hthread, hphase, heq⟩
    · rw [heq]
      exact .idle _ nofun
    · rw [heq]
      exact .recv result hthread hphase
  | finish =>
    rw [ProtocolClient.step]
    rcases whenAt_cases s .finishing fun _ => s.finish with heq | ⟨w, hthread, hphase, heq⟩
    · rw [heq]
      exact .idle _ nofun
    · rw [heq]
      exact .finish hthread hphase

section wire

/-- The hello and every message taken are on the socket. -/
def Worker.Clean (w : Worker) : Prop := w.wire = (w.helloMessage :: w.taken).flatMap encodeJsonl

/-- The last of them is not, or not to its end, and nothing follows it. -/
def Worker.Cut (w : Worker) : Prop :=
  ∃ sent last cut, w.helloMessage :: w.taken = sent ++ [last] ∧ cut <+: (encodeJsonl last).dropLast ∧
    w.wire = sent.flatMap encodeJsonl ++ cut

variable {w w' : Worker} {message : Payload}

theorem sendall_sent (h : w.sendall message .sent = some w') :
    w' = { w with wire := w.wire ++ encodeJsonl message } := by
  rw [Worker.sendall] at h
  split at h
  · cases h
  · exact (Option.some.inj h).symm

theorem sendall_failed {written : Nat} {text : String} (h : w.sendall message (.failed written text) = some w') :
    ∃ cut, cut <+: (encodeJsonl message).dropLast ∧ w' = { w with wire := w.wire ++ cut } := by
  rw [Worker.sendall] at h
  split at h
  · refine ⟨[], List.nil_prefix, ?_⟩
    rw [List.append_nil]
    exact (Option.some.inj h).symm
  · exact ⟨_, List.take_prefix _ _, (Option.some.inj h).symm⟩

theorem Worker.Clean.taken_sent (h : w.Clean) (message : Payload) (phase : Phase) :
    Worker.Clean { w with wire := w.wire ++ encodeJsonl message, taken := w.taken ++ [message], phase := phase } := by
  unfold Worker.Clean at h ⊢
  dsimp only
  rw [h, ← List.cons_append, List.flatMap_append, List.flatMap_singleton]

theorem Worker.Clean.taken_failed (h : w.Clean) (phase : Phase) {cut : List UInt8}
    (hcut : cut <+: (encodeJsonl message).dropLast) :
    Worker.Cut { w with wire := w.wire ++ cut, taken := w.taken ++ [message], phase := phase } :=
  ⟨w.helloMessage :: w.taken, message, cut, rfl, hcut, congrArg (· ++ cut) h⟩

end wire

section reading
variable {reader : JsonReader}

/-- The messages are what the complete lines received are read as, and the rest waits in the buffer. -/
structure Worker.Reads (reader : JsonReader) (w : Worker) : Prop where
  buffer : w.buffer = Framing.tail 10 w.received
  messages : w.messages = ((Framing.lines 10 w.received).filter fun line => !isBlankLine line).filterMap
    fun line => (decodeJsonlLine reader line).toOption

theorem drainFrom_eq (budget : Nat) (buffer : List UInt8) (h : buffer.length ≤ budget) :
    drainFrom reader budget buffer =
      (((Framing.lines 10 buffer).filter fun line => !isBlankLine line).map (decodeJsonlLine reader),
        Framing.tail 10 buffer) := by
  induction budget generalizing buffer with
  | zero =>
    obtain rfl := List.length_eq_zero_iff.mp (Nat.le_zero.mp h)
    rfl
  | succ budget ih =>
    rw [drainFrom]
    cases hsplit : splitLine buffer with
    | none =>
      obtain ⟨hlines, htail⟩ := Framing.lines_eq_nil (splitLine_none hsplit)
      rw [hlines, htail]
      rfl
    | some split =>
      obtain ⟨line, rest⟩ := split
      obtain ⟨hline, rfl⟩ := splitLine_some hsplit
      obtain ⟨hlines, htail⟩ := Framing.lines_cons hline rest
      have hrest : rest.length ≤ budget := by
        rw [List.length_append, List.length_cons] at h
        omega
      dsimp only
      rw [ih rest hrest, hlines, htail, List.filter_cons]
      cases isBlankLine line <;> rfl

theorem drainReceiveBuffer_eq (buffer : List UInt8) :
    drainReceiveBuffer reader buffer =
      (((Framing.lines 10 buffer).filter fun line => !isBlankLine line).map (decodeJsonlLine reader),
        Framing.tail 10 buffer) := drainFrom_eq buffer.length buffer (le_refl _)

/-- One chunk more, whatever the lines it completes or cuts. -/
theorem Worker.Reads.chunk {w : Worker} (h : w.Reads reader) (chunk : List UInt8) (phase : Phase) :
    Worker.Reads reader
      { w with
        buffer := (drainReceiveBuffer reader (w.buffer ++ chunk)).2
        received := w.received ++ chunk
        messages := w.messages ++ (drainReceiveBuffer reader (w.buffer ++ chunk)).1.filterMap Except.toOption
        phase := phase } := by
  obtain ⟨hlines, htail⟩ := Framing.lines_append 10 w.received chunk
  rw [drainReceiveBuffer_eq]
  constructor
  · dsimp only
    rw [htail, h.buffer]
  · dsimp only
    rw [h.messages, hlines, h.buffer, List.filter_append, List.filterMap_append, List.filterMap_map]
    rfl

end reading

/-- Where a worker may still come to send. -/
def Phase.sends (stopEvent : Bool) : Phase → Bool
  | .draining => true
  | .testing | .receiving => !stopEvent
  | .connecting | .greeting | .finishing => false

/-- What holds of the running worker, where it stands and whether it has been told to stop. -/
structure Worker.Holds (reader : JsonReader) (stopEvent : Bool) (w : Worker) : Prop where
  unsent : w.phase = .connecting ∨ w.phase = .greeting → w.taken = [] ∧ w.wire = []
  clean : w.phase.sends stopEvent = true → w.Clean
  written : w.Clean ∨ w.Cut
  reads : w.Reads reader

/-- What holds between two events of a run. -/
structure ClientRun.Holds (reader : JsonReader) (r : ClientRun) : Prop where
  accepted : r.accepted = r.workers.flatMap Worker.taken ++ r.client.sendQueue.reduceOption
  running : ∀ w, r.client.thread = some w → w.Holds reader r.client.stopEvent
  ended : ∀ w ∈ r.ended, (w.Clean ∨ w.Cut) ∧ w.Reads reader

section steps
variable {reader : JsonReader} {s : ProtocolClient} {w : Worker}

/-- The worker has gone on, and what it took is gone from the queue. -/
def Moves (reader : JsonReader) (s : ProtocolClient) (w : Worker) (s' : ProtocolClient) : Prop :=
  ∃ w', s'.thread = some w' ∧ w'.taken ++ s'.sendQueue.reduceOption = w.taken ++ s.sendQueue.reduceOption ∧
    w'.Holds reader s'.stopEvent

theorem opened_moves (hw : w.Holds reader s.stopEvent) (hphase : w.phase = .connecting) (failure : Option String) :
    Moves reader s w (s.opened w failure) := by
  have hunsent := hw.unsent (.inl hphase)
  cases failure with
  | none => exact ⟨_, rfl, rfl, fun _ => hunsent, nofun, hw.written, ⟨hw.reads.1, hw.reads.2⟩⟩
  | some text => exact ⟨_, rfl, rfl, fun _ => hunsent, nofun, hw.written, ⟨hw.reads.1, hw.reads.2⟩⟩

/-- Past the greeting a worker holds if it is clean wherever it may still send. -/
theorem Worker.Holds.of_phase {stopEvent : Bool} (hconnecting : w.phase ≠ .connecting)
    (hgreeting : w.phase ≠ .greeting) (hclean : w.phase.sends stopEvent = true → w.Clean)
    (hwritten : w.Clean ∨ w.Cut) (hreads : w.Reads reader) : w.Holds reader stopEvent :=
  ⟨fun h => h.elim (fun h => absurd h hconnecting) (fun h => absurd h hgreeting), hclean, hwritten, hreads⟩

theorem greet_moves (hthread : s.thread = some w) (hw : w.Holds reader s.stopEvent) (hphase : w.phase = .greeting)
    (result : SendResult) : Moves reader s w (s.greet w result) := by
  obtain ⟨htaken, hwire⟩ := hw.unsent (.inr hphase)
  rw [ProtocolClient.greet]
  cases hsend : w.sendall w.helloMessage result with
  | none => exact ⟨w, hthread, rfl, hw⟩
  | some w' =>
    cases result with
    | sent =>
      obtain rfl := sendall_sent hsend
      have hclean : Worker.Clean { w with wire := w.wire ++ encodeJsonl w.helloMessage, phase := .testing } := by
        unfold Worker.Clean
        dsimp only
        rw [htaken, hwire, List.flatMap_singleton, List.nil_append]
      exact ⟨_, rfl, rfl, .of_phase nofun nofun (fun _ => hclean) (.inl hclean) ⟨hw.reads.1, hw.reads.2⟩⟩
    | failed written text =>
      obtain ⟨cut, hcut, rfl⟩ := sendall_failed hsend
      refine ⟨_, rfl, rfl, .of_phase nofun nofun nofun (.inr ⟨[], w.helloMessage, cut, ?_, hcut, ?_⟩)
        ⟨hw.reads.1, hw.reads.2⟩⟩
      · dsimp only
        rw [htaken, List.nil_append]
      · dsimp only
        rw [hwire, List.nil_append, List.flatMap_nil, List.nil_append]

theorem test_moves (hw : w.Holds reader s.stopEvent) (hphase : w.phase = .testing) :
    Moves reader s w (s.advance w (if s.stopEvent then .finishing else .draining)) := by
  cases hstop : s.stopEvent with
  | true => exact ⟨_, rfl, rfl, .of_phase nofun nofun nofun hw.written ⟨hw.reads.1, hw.reads.2⟩⟩
  | false =>
    have hclean : w.Clean := hw.clean (by rw [hphase, hstop]; rfl)
    exact ⟨_, rfl, rfl, .of_phase nofun nofun (fun _ => hclean) hw.written ⟨hw.reads.1, hw.reads.2⟩⟩

theorem take_moves (hthread : s.thread = some w) (hw : w.Holds reader s.stopEvent) (hphase : w.phase = .draining)
    (result : SendResult) : Moves reader s w (s.take w result) := by
  have hclean : w.Clean := hw.clean (by rw [hphase]; rfl)
  rw [ProtocolClient.take, Moves]
  split
  · exact ⟨_, rfl, rfl, .of_phase nofun nofun (fun _ => hclean) (.inl hclean) ⟨hw.reads.1, hw.reads.2⟩⟩
  · rename_i rest hqueue
    refine ⟨_, rfl, ?_, .of_phase nofun nofun (fun _ => hclean) (.inl hclean) ⟨hw.reads.1, hw.reads.2⟩⟩
    rw [hqueue]
    rfl
  · rename_i message rest hqueue
    have htake : (w.taken ++ [message]) ++ rest.reduceOption = w.taken ++ s.sendQueue.reduceOption := by
      rw [hqueue, List.append_assoc]
      rfl
    split
    · exact ⟨w, hthread, rfl, hw⟩
    · rename_i w' hsend
      cases result with
      | sent =>
        obtain rfl := sendall_sent hsend
        have hsent := hclean.taken_sent message .draining
        exact ⟨_, rfl, htake, .of_phase nofun nofun (fun _ => hsent) (.inl hsent) ⟨hw.reads.1, hw.reads.2⟩⟩
      | failed written text =>
        obtain ⟨cut, hcut, rfl⟩ := sendall_failed hsend
        exact ⟨_, rfl, htake, .of_phase nofun nofun nofun (.inr (hclean.taken_failed .receiving hcut))
          ⟨hw.reads.1, hw.reads.2⟩⟩

theorem recv_moves (hthread : s.thread = some w) (hw : w.Holds reader s.stopEvent) (hphase : w.phase = .receiving)
    (result : RecvResult) : Moves reader s w (s.recv reader w result) := by
  have hgoing : Phase.testing.sends s.stopEvent = true → w.Clean := fun hsends => hw.clean (by rw [hphase]; exact hsends)
  have hfinishing : Worker.Holds reader s.stopEvent { w with phase := .finishing } :=
    .of_phase nofun nofun nofun hw.written ⟨hw.reads.1, hw.reads.2⟩
  cases result with
  | timeout => exact ⟨_, rfl, rfl, .of_phase nofun nofun hgoing hw.written ⟨hw.reads.1, hw.reads.2⟩⟩
  | failed text =>
    rw [ProtocolClient.recv, Moves]
    split
    · exact ⟨_, rfl, rfl, hfinishing⟩
    · exact ⟨_, rfl, rfl, hfinishing⟩
  | bytes chunk =>
    rw [ProtocolClient.recv, Moves]
    split
    · exact ⟨_, rfl, rfl, hfinishing⟩
    split
    · exact ⟨w, hthread, rfl, hw⟩
    · exact ⟨_, rfl, rfl, .of_phase nofun nofun hgoing hw.written (hw.reads.chunk chunk .testing)⟩

theorem Worker.Holds.stopped {stopEvent : Bool} (h : w.Holds reader stopEvent) : w.Holds reader true := by
  refine ⟨h.unsent, fun hsends => h.clean ?_, h.written, h.reads⟩
  cases hphase : w.phase with
  | draining => rfl
  | connecting | greeting | testing | receiving | finishing =>
    rw [hphase] at hsends
    cases hsends

theorem Worker.Holds.closed {stopEvent : Bool} (h : w.Holds reader stopEvent) :
    Worker.Holds reader stopEvent { w with socketClosed := true } :=
  ⟨h.unsent, h.clean, h.written, ⟨h.reads.1, h.reads.2⟩⟩

end steps

namespace ClientRun
variable {reader : JsonReader} {r : ClientRun} {w : Worker}

/-- Where the worker goes on, everything still holds. -/
theorem Holds.moved (h : r.Holds reader) (hthread : r.client.thread = some w) {s : ProtocolClient}
    (hmoves : Moves reader r.client w s) : Holds reader { client := s, accepted := r.accepted, ended := r.ended } := by
  obtain ⟨w', hthread', hqueue, hw⟩ := hmoves
  constructor
  · have haccepted := h.accepted
    rw [workers, hthread] at haccepted
    rw [workers]
    dsimp only
    rw [haccepted, hthread', List.flatMap_append, List.flatMap_append, List.append_assoc, List.append_assoc]
    simp only [Option.toList_some, List.flatMap_singleton]
    rw [hqueue]
  · intro other hother
    rw [hthread'] at hother
    cases hother
    exact hw
  · exact h.ended

/-- Where the user interface leaves the thread alone, what it accepts is in the queue. -/
theorem Holds.queued (h : r.Holds reader) {s : ProtocolClient} {accepted : List Payload}
    (hthread : s.thread = r.client.thread) (hstop : s.stopEvent = r.client.stopEvent)
    (hqueue : s.sendQueue.reduceOption = r.client.sendQueue.reduceOption ++ accepted) :
    Holds reader { client := s, accepted := r.accepted ++ accepted, ended := r.ended } := by
  constructor
  · rw [workers, h.accepted, workers]
    dsimp only
    rw [hthread, hqueue, List.append_assoc]
  · intro w hw
    rw [hstop]
    exact h.running w (hthread ▸ hw)
  · exact h.ended

/-- A worker that has not ended is not among the ended ones. -/
theorem step_eq {event : ClientEvent} {s : ProtocolClient} (hstep : r.client.step reader event = s)
    (hended : s.thread.isNone = true → r.client.thread = none) :
    r.step reader event = { client := s, accepted := r.accepted ++ accepts r.client event, ended := r.ended } := by
  rw [step, hstep]
  cases hnone : s.thread.isNone with
  | false => rw [if_neg Bool.false_ne_true]
  | true => rw [if_pos rfl, hended hnone, Option.toList_none, List.append_nil]

theorem Holds.worker_moved (h : r.Holds reader) (hthread : r.client.thread = some w) {event : ClientEvent}
    (haccepts : accepts r.client event = []) (hmoves : Moves reader r.client w (r.client.step reader event)) :
    Holds reader (r.step reader event) := by
  have hmoved := h.moved hthread hmoves
  obtain ⟨w', hthread', _⟩ := hmoves
  rw [step_eq rfl (fun hnone => by rw [hthread'] at hnone; cases hnone), haccepts, List.append_nil]
  exact hmoved

theorem disconnect_holds (h : r.Holds reader) :
    Holds reader { client := r.client.disconnect, accepted := r.accepted, ended := r.ended } := by
  have hqueue : (r.client.sendQueue ++ [none]).reduceOption = r.client.sendQueue.reduceOption := by
    rw [List.reduceOption_append]
    exact List.append_nil _
  have haccepted := h.accepted
  rw [workers] at haccepted
  cases hthread : r.client.thread with
  | none =>
    have hgone : r.client.disconnect.thread = none := by
      rw [ProtocolClient.disconnect, hthread, Option.map_none, ite_self]
    refine ⟨?_, fun w hw => ?_, h.ended⟩
    · rw [workers, hgone, haccepted, hthread]
      exact congrArg _ hqueue.symm
    · rw [hgone] at hw
      cases hw
  | some w =>
    have hw := (h.running w hthread).stopped
    cases hsock : r.client.sock with
    | false =>
      have hkept : r.client.disconnect.thread = some w := by
        rw [ProtocolClient.disconnect, hsock, hthread]
        rfl
      refine ⟨?_, fun other hother => ?_, h.ended⟩
      · rw [workers, hkept, haccepted, hthread]
        exact congrArg _ hqueue.symm
      · rw [hkept] at hother
        cases hother
        exact hw
    | true =>
      have hclosed : r.client.disconnect.thread = some { w with socketClosed := true } := by
        rw [ProtocolClient.disconnect, hsock, hthread]
        rfl
      refine ⟨?_, fun other hother => ?_, h.ended⟩
      · rw [workers, hclosed, haccepted, hthread, List.flatMap_append, List.flatMap_append]
        exact congrArg _ hqueue.symm
      · rw [hclosed] at hother
        cases hother
        exact hw.closed

theorem connect_holds (h : r.Holds reader) (host : String) (port : Int) (helloMessage : Payload) :
    Holds reader
      { client := r.client.connect host port helloMessage, accepted := r.accepted, ended := r.ended } := by
  cases hthread : r.client.thread with
  | some w =>
    have hbusy : r.client.connect host port helloMessage = r.client.status "already connected or connecting" := by
      rw [ProtocolClient.connect, hthread]
    have hqueued : Holds reader
        { client := r.client.status "already connected or connecting", accepted := r.accepted ++ []
          ended := r.ended } := h.queued rfl rfl (List.append_nil _).symm
    rw [hbusy]
    rw [List.append_nil] at hqueued
    exact hqueued
  | none =>
    have hnew : r.client.connect host port helloMessage =
        { r.client with
          stopEvent := false
          thread := some { host := host, port := port, helloMessage := helloMessage } } := by
      rw [ProtocolClient.connect, hthread]
    have haccepted := h.accepted
    rw [workers, hthread] at haccepted
    rw [hnew]
    refine ⟨?_, fun w hw => ?_, h.ended⟩
    · rw [workers, haccepted]
      dsimp only
      rw [List.flatMap_append, List.flatMap_append]
      rfl
    · cases hw
      exact ⟨fun _ => ⟨rfl, rfl⟩, nofun, .inr ⟨[], helloMessage, [], rfl, List.nil_prefix, rfl⟩, ⟨rfl, rfl⟩⟩

theorem finish_holds (h : r.Holds reader) (hthread : r.client.thread = some w) :
    Holds reader { client := r.client.finish, accepted := r.accepted, ended := r.ended ++ [w] } := by
  have hw := h.running w hthread
  have haccepted := h.accepted
  rw [workers, hthread] at haccepted
  refine ⟨?_, nofun, ?_⟩
  · rw [workers, haccepted]
    exact congrArg (fun ended => List.flatMap Worker.taken ended ++ _) (List.append_nil _).symm
  · intro other hother
    rcases List.mem_append.mp hother with hother | hother
    · exact h.ended other hother
    · rw [List.mem_singleton.mp hother]
      exact ⟨hw.written, hw.reads⟩

theorem step_holds (event : ClientEvent) (h : r.Holds reader) : (r.step reader event).Holds reader := by
  have hacts := step_acts reader r.client event
  generalize hstep : r.client.step reader event = s at hacts
  cases hacts with
  | idle _ hsend =>
    have haccepts : accepts r.client event = [] := by
      cases event with
      | send message => exact absurd rfl (hsend message)
      | connect | disconnect | opened | greet | test | take | recv | finish => rfl
    rw [step_eq hstep fun hnone => Option.isNone_iff_eq_none.mp hnone, haccepts, List.append_nil]
    exact h
  | connect host port helloMessage =>
    rw [step_eq hstep ?_]
    · rw [show accepts r.client (.connect host port helloMessage) = [] from rfl, List.append_nil]
      exact connect_holds h host port helloMessage
    · intro hnone
      rw [ProtocolClient.connect] at hnone
      split at hnone
      · rename_i hthread
        rw [ProtocolClient.status, hthread] at hnone
        cases hnone
      · cases hnone
  | send message =>
    have hthread : (r.client.send message).thread = r.client.thread := by
      rw [ProtocolClient.send]
      split <;> rfl
    rw [step_eq hstep fun hnone => by rwa [hthread, Option.isNone_iff_eq_none] at hnone, accepts]
    refine h.queued hthread ?_ ?_
    · rw [ProtocolClient.send]
      split <;> rfl
    · rw [ProtocolClient.send]
      split
      · exact (List.append_nil _).symm
      · exact List.reduceOption_append _ _
  | disconnect =>
    rw [step_eq hstep ?_]
    · rw [show accepts r.client .disconnect = [] from rfl, List.append_nil]
      exact disconnect_holds h
    · intro hnone
      rw [ProtocolClient.disconnect] at hnone
      cases hthread : r.client.thread with
      | none => rfl
      | some w =>
        rw [hthread] at hnone
        split at hnone <;> cases hnone
  | opened failure hthread hphase =>
    exact h.worker_moved hthread rfl (hstep ▸ opened_moves (h.running _ hthread) hphase failure)
  | greet result hthread hphase =>
    exact h.worker_moved hthread rfl (hstep ▸ greet_moves hthread (h.running _ hthread) hphase result)
  | test hthread hphase =>
    exact h.worker_moved hthread rfl (hstep ▸ test_moves (h.running _ hthread) hphase)
  | take result hthread hphase =>
    exact h.worker_moved hthread rfl (hstep ▸ take_moves hthread (h.running _ hthread) hphase result)
  | recv result hthread hphase =>
    exact h.worker_moved hthread rfl (hstep ▸ recv_moves hthread (h.running _ hthread) hphase result)
  | finish hthread hphase =>
    rw [step, hstep, show accepts r.client .finish = [] from rfl, List.append_nil]
    have hfinished := finish_holds h hthread
    rw [hthread]
    exact hfinished

theorem Holds.mem_workers (h : r.Holds reader) : ∀ w ∈ r.workers, (w.Clean ∨ w.Cut) ∧ w.Reads reader := by
  intro w hw
  rcases List.mem_append.mp hw with hw | hw
  · exact h.ended w hw
  · have hrunning := h.running w (Option.mem_toList.mp hw)
    exact ⟨hrunning.written, hrunning.reads⟩

theorem run_holds (reader : JsonReader) (events : List ClientEvent) :
    Holds reader (events.foldl (step reader) {}) := by
  have hstart : Holds reader {} := by
    refine ⟨rfl, fun w hw => ?_, List.forall_mem_nil _⟩
    cases hw
  exact Run.invariant (step reader) (fun _ event h => step_holds event h) hstart events _
    (Run.foldl_mem_states _ _ events)

/-- Whatever happens in which order, the accepted messages are those the workers took, each once and in the order of
acceptance, followed by those in the queue. A worker's socket carries its hello and the messages it took; only the
last of them can be cut off, and not while the worker is still to send more. -/
theorem client_sends_in_order (reader : JsonReader) (events : List ClientEvent) :
    let r := events.foldl (step reader) {}
    r.accepted = r.workers.flatMap Worker.taken ++ r.client.sendQueue.reduceOption ∧
      (∀ w ∈ r.workers, w.Clean ∨ w.Cut) ∧
      ∀ w, r.client.thread = some w → w.phase.sends r.client.stopEvent = true → w.Clean := by
  intro r
  have h : r.Holds reader := run_holds reader events
  exact ⟨h.accepted, fun w hw => (h.mem_workers w hw).1, fun w hthread => (h.running w hthread).clean⟩

/-- However the bytes of a socket are cut into chunks, the messages handed on are those its complete lines are read
as, blank and unreadable lines left out. -/
theorem client_reads_lines (reader : JsonReader) (events : List ClientEvent) :
    ∀ w ∈ (events.foldl (step reader) {}).workers,
      w.messages = ((Framing.lines 10 w.received).filter fun line => !isBlankLine line).filterMap
        fun line => (decodeJsonlLine reader line).toOption :=
  fun w hw => ((run_holds reader events).mem_workers w hw).2.messages

/-- A reader of the empty object. -/
def emptyReader : JsonReader :=
  { loads := fun text => if text = "\x7b\x7d" then .ok (.obj []) else .error "Expecting value", undecodable := fun _ => "" }

/-- An object cut in two, a blank line and a line that is none. -/
def splitReads : List ClientEvent :=
  [.connect "127.0.0.1" 9100 [], .opened none, .greet .sent, .test, .take .sent, .recv (.bytes [123]), .test, .take .sent,
    .recv (.bytes [125, 10, 10, 120, 10, 123])]

def splitReader : Worker :=
  { host := "127.0.0.1", port := 9100, helloMessage := [], phase := .testing, wire := encodeJsonl [], buffer := [123]
    received := [123, 125, 10, 10, 120, 10, 123], messages := [[]] }

theorem client_reads_lines_split :
    splitReader.messages = ((Framing.lines 10 splitReader.received).filter fun line => !isBlankLine line).filterMap
      fun line => (decodeJsonlLine emptyReader line).toOption :=
  client_reads_lines emptyReader splitReads splitReader (List.mem_singleton.mpr rfl)

end ClientRun

section closing
variable {reader : JsonReader} {s : ProtocolClient} {w w₀ : Worker}

/-- Nothing more has gone over the closed socket of a worker. -/
structure Worker.Silent (w w₀ : Worker) : Prop where
  closed : w.socketClosed = true
  wire : w.wire = w₀.wire
  received : w.received = w₀.received
  messages : w.messages = w₀.messages

theorem Worker.Silent.sendall {message : Payload} {result : SendResult} {w' : Worker} (h : w.Silent w₀)
    (hsend : w.sendall message result = some w') : result ≠ .sent ∧ w' = w := by
  cases result with
  | sent =>
    rw [Worker.sendall, h.closed] at hsend
    cases hsend
  | failed written text =>
    rw [Worker.sendall, h.closed] at hsend
    exact ⟨nofun, (Option.some.inj hsend).symm⟩

/-- A worker with a closed socket only moves on. -/
theorem step_silent {event : ClientEvent} (hthread : s.thread = some w) (h : w.Silent w₀) :
    (∃ w', (s.step reader event).thread = some w' ∧ w'.Silent w₀) ∨ (s.step reader event).thread = none := by
  have hacts := step_acts reader s event
  generalize s.step reader event = s' at hacts
  have hphase : ∀ phase, Worker.Silent { w with phase := phase } w₀ := fun _ =>
    ⟨h.closed, h.wire, h.received, h.messages⟩
  cases hacts with
  | idle _ _ => exact .inl ⟨w, hthread, h⟩
  | connect host port helloMessage =>
    rw [ProtocolClient.connect, hthread]
    exact .inl ⟨w, hthread, h⟩
  | send message =>
    rw [ProtocolClient.send]
    split
    · exact .inl ⟨w, hthread, h⟩
    · exact .inl ⟨w, hthread, h⟩
  | disconnect =>
    rw [ProtocolClient.disconnect, hthread]
    dsimp only
    split
    · exact .inl ⟨_, rfl, rfl, h.wire, h.received, h.messages⟩
    · exact .inl ⟨w, rfl, h⟩
  | opened failure hthread' _ =>
    obtain rfl := Option.some.inj (hthread.symm.trans hthread')
    cases failure with
    | none => exact .inl ⟨_, rfl, hphase .greeting⟩
    | some text => exact .inl ⟨_, rfl, hphase .finishing⟩
  | greet result hthread' _ =>
    obtain rfl := Option.some.inj (hthread.symm.trans hthread')
    rw [ProtocolClient.greet]
    cases hsend : w.sendall w.helloMessage result with
    | none => exact .inl ⟨w, hthread, h⟩
    | some w' =>
      obtain ⟨hfailed, rfl⟩ := h.sendall hsend
      cases result with
      | sent => exact absurd rfl hfailed
      | failed written text => exact .inl ⟨_, rfl, hphase .finishing⟩
  | test hthread' _ =>
    obtain rfl := Option.some.inj (hthread.symm.trans hthread')
    exact .inl ⟨_, rfl, hphase _⟩
  | take result hthread' _ =>
    obtain rfl := Option.some.inj (hthread.symm.trans hthread')
    rw [ProtocolClient.take]
    split
    · exact .inl ⟨_, rfl, hphase .receiving⟩
    · exact .inl ⟨_, rfl, hphase .receiving⟩
    split
    · exact .inl ⟨w, hthread, h⟩
    · rename_i hsend
      obtain ⟨hfailed, rfl⟩ := h.sendall hsend
      cases result with
      | sent => exact absurd rfl hfailed
      | failed written text => exact .inl ⟨_, rfl, h.closed, h.wire, h.received, h.messages⟩
  | recv result hthread' _ =>
    obtain rfl := Option.some.inj (hthread.symm.trans hthread')
    cases result with
    | timeout => exact .inl ⟨_, rfl, hphase .testing⟩
    | failed text =>
      rw [ProtocolClient.recv]
      split
      · exact .inl ⟨_, rfl, hphase .finishing⟩
      · exact .inl ⟨_, rfl, hphase .finishing⟩
    | bytes chunk =>
      rw [ProtocolClient.recv, h.closed]
      split
      · exact .inl ⟨_, rfl, hphase .finishing⟩
      · exact .inl ⟨w, hthread, h⟩
  | finish _ _ => exact .inr rfl

/-- The worker at its place among all workers, its socket closed. -/
def ClientRun.SilentAt (r : ClientRun) (place : Nat) (w₀ : Worker) : Prop :=
  (place = r.ended.length ∧ ∃ w, r.client.thread = some w ∧ w.Silent w₀) ∨
    ∃ w, r.ended[place]? = some w ∧ w.Silent w₀

theorem ClientRun.SilentAt.step {r : ClientRun} {place : Nat} (h : r.SilentAt place w₀) (event : ClientEvent) :
    (r.step reader event).SilentAt place w₀ := by
  rcases h with ⟨rfl, w, hthread, hsilent⟩ | ⟨w, hat, hsilent⟩
  · have hnext : (∃ w', (r.client.step reader event).thread = some w' ∧ w'.Silent w₀) ∨
        (r.client.step reader event).thread = none := step_silent hthread hsilent
    rcases hnext with ⟨w', hthread', hsilent'⟩ | hnone
    · refine .inl ⟨?_, w', hthread', hsilent'⟩
      rw [ClientRun.step]
      dsimp only
      rw [hthread', Option.isNone_some, if_neg Bool.false_ne_true]
    · refine .inr ⟨w, ?_, hsilent⟩
      rw [ClientRun.step]
      dsimp only
      rw [hnone, Option.isNone_none, if_pos rfl, hthread, Option.toList_some, List.getElem?_concat_length]
  · refine .inr ⟨w, ?_, hsilent⟩
    rw [ClientRun.step]
    dsimp only
    split
    · rw [List.getElem?_append_left (List.getElem?_eq_some_iff.mp hat).1, hat]
    · exact hat

/-- A connected client whose worker waits for bytes. -/
def openClient : ClientRun :=
  { client :=
      { thread := some
          { host := "127.0.0.1", port := 9100, helloMessage := [], phase := .receiving, wire := encodeJsonl [] }
        sock := true
        connected := true } }

end closing
end DynvarSync.Ida
