import DynvarSync.Session.Endpoints
import DynvarSync.Windbg.PcUpdateWriter
import DynvarSync.Ida.RetiredRequests

/-! When what IDA accepts was read at the stop that its context is from. -/
namespace DynvarSync.Session
open Lib PyText CText JsonText Ida Windbg

/-- Whether a line is read as a response with this `pc_seq`. -/
def carriesResponse (line : List UInt8) (pcSeq : Int) : Bool :=
  match readMessage line with
  | none => false
  | some message => match (message.getD "payload" (.obj [])).asObj with
    | none => false
    | some payload => ((message.get "type").eqStr "reg_response" || (message.get "type").eqStr "mem_response") &&
        (payload.get "pc_seq").eqInt pcSeq

/-- The `pc_seq` of a request. -/
def requestSeq (line : List Char) : Option Nat :=
  match requestType line with
  | none => none
  | some _ => extractJsonUnsignedField line "pc_seq"

/-- The context after a line, with the stop it is from. -/
def receive (context : Option (Int × Nat)) (sent : SentLine) : Option (Int × Nat) :=
  match (readMessage sent.line).bind DayVarController.contextSeq with
  | none => context
  | some pcSeq => some (pcSeq, sent.stop)

/-- A response to the context was written at the stop the context is from. -/
def InTime (context : Option (Int × Nat)) (sent : SentLine) : Prop :=
  ∀ c ∈ context, carriesResponse sent.line c.1 = true → c.2 = sent.stop

instance (context : Option (Int × Nat)) (sent : SentLine) : Decidable (InTime context sent) :=
  inferInstanceAs (Decidable (∀ c ∈ context, carriesResponse sent.line c.1 = true → c.2 = sent.stop))

namespace Endpoints

/-- IDA's context, with the stop it is from. -/
def context (s : Endpoints) : Option (Int × Nat) :=
  s.controller.core.currentPc.map fun c => (c.pcSeq, s.contextStop)

/-- The context once all lines on their way to IDA have reached it. -/
def upcoming (s : Endpoints) : Option (Int × Nat) := s.toIda.foldl receive s.context

/-- Every response that IDA accepted was read at the stop of the update its context was from. -/
def Fresh (s : Endpoints) : Prop := ∀ a ∈ s.applied, a.readAt = a.updateAt

/-- The line of the next update. -/
def nextUpdate (s : Endpoints) (reason : String) : Option (List UInt8) :=
  s.debuggee.pcInfo.bind fun info => writePcUpdate jsonBufferSize s.nextMessageId s.nextPcSeq info.pc info.module
    info.runtimeModuleBase (toBytes reason.toList) true

/-- IDA knows of no other stop than the present one, or will know of none. -/
def Announced (s : Endpoints) : Prop := ∀ c ∈ s.upcoming, c.2 = s.stop

/-- No update passes for a late response, and when the request that is taken belongs to the context that is on its
way to IDA, or is there, the debuggee has not moved since the update of that context. -/
def AnswersInTime (s : Endpoints) : Event → Prop
  | .dvsPc => ∀ line ∈ s.nextUpdate "dvs_pc", InTime s.upcoming ⟨line, s.stop⟩
  | .stepCompleted => ∀ line ∈ s.nextUpdate "dvs_step", InTime s.upcoming ⟨line, s.stop⟩
  | .takeLine => 0 < s.pumping → ∀ line ∈ s.toExtension.head?, ∀ pcSeq ∈ requestSeq (receivedText line),
      ∀ c ∈ s.upcoming, c.1 = pcSeq → c.2 = s.stop
  | _ => True

instance (s : Endpoints) : (event : Event) → Decidable (s.AnswersInTime event)
  | .dvsPc => inferInstanceAs (Decidable (∀ line ∈ s.nextUpdate "dvs_pc", InTime s.upcoming ⟨line, s.stop⟩))
  | .stepCompleted => inferInstanceAs (Decidable (∀ line ∈ s.nextUpdate "dvs_step", InTime s.upcoming ⟨line, s.stop⟩))
  | .takeLine => inferInstanceAs (Decidable (0 < s.pumping → ∀ line ∈ s.toExtension.head?,
      ∀ pcSeq ∈ requestSeq (receivedText line), ∀ c ∈ s.upcoming, c.1 = pcSeq → c.2 = s.stop))
  | .moved _ | .dvsPoll _ | .pumpEnds | .deliver _ => isTrue trivial

end Endpoints

section reading

theorem readMessage_encode {x : Json} (h : FloatFree x) {fields : Payload} (hfields : normalize x = .obj fields) :
    readMessage (toBytes (encode x ++ [lineFeed])) = some fields := by
  have hfeed : Ascii [lineFeed] := by decide
  have hascii : Ascii (encode x ++ [lineFeed]) :=
    List.forall_mem_append.mpr ⟨ascii_of_printable (printable_encode x h), hfeed⟩
  rw [readMessage, toBytes_ascii hascii, (Utf8.decode?_eq_some_iff _ _).mpr rfl, Option.bind_some,
    decode_encode_normalize h lineFeed_blank, hfields]
  rfl

/-- A line that is read as a message with this payload carries no other `pc_seq`. -/
theorem eq_of_carriesResponse {line : List UInt8} {message payload : Payload} (hread : readMessage line = some message)
    (hpayload : message.getD "payload" (.obj []) = .obj payload) {n m : Int} (hseq : payload.get "pc_seq" = .int n)
    (h : carriesResponse line m = true) : m = n := by
  rw [carriesResponse, hread] at h
  dsimp only at h
  rw [hpayload] at h
  obtain ⟨-, heq⟩ := (Bool.and_eq_true _ _).mp h
  rw [hseq] at heq
  exact (of_decide_eq_true heq).symm

theorem regResponse_carries (messageId : UInt32) (pcSeq : Nat) (requestId runtimePc : List Char)
    (values : List RegisterValue) {m : Int}
    (h : carriesResponse (toBytes (encode (regResponseJson messageId
      (regResponsePayload pcSeq requestId runtimePc values)) ++ [lineFeed])) m = true) : m = pcSeq := by
  have hfree : FloatFree (regResponseJson messageId (regResponsePayload pcSeq requestId runtimePc values)) :=
    ⟨trivial, trivial, trivial, trivial, ⟨trivial, trivial, trivial, trivial,
      (wellFormed_registerFields values).floatFree, trivial⟩, trivial⟩
  exact eq_of_carriesResponse (readMessage_encode hfree rfl) rfl rfl h

theorem memResponse_carries (messageId : UInt32) {f : MemRequestFields} {payload : Payload}
    (hechoes : EchoesFields f payload) (hformed : WellFormed (memResponseJson messageId payload)) {m : Int}
    (h : carriesResponse (toBytes (encode (memResponseJson messageId payload) ++ [lineFeed])) m = true) :
    m = f.pcSeq := by
  obtain ⟨ok, more, rfl⟩ := hechoes
  exact eq_of_carriesResponse (readMessage_encode hformed.floatFree hformed.normalize_eq) rfl rfl h

/-- An answer carries the `pc_seq` of its request and no other. -/
theorem handleIncomingMessage_carries {d : Debuggee} {messageId : UInt32} {line answer : List Char}
    (hline : Printable line) (h : handleIncomingMessage d messageId line = some answer) :
    ∃ pcSeq, requestSeq line = some pcSeq ∧ ∀ m, carriesResponse (toBytes answer) m = true → m = pcSeq := by
  unfold handleIncomingMessage at h
  unfold requestSeq
  cases htype : requestType line with
  | none =>
    rw [htype] at h
    cases h
  | some type =>
    rw [htype] at h
    cases type with
    | reg =>
      obtain ⟨f, values, hfields, rfl⟩ := handleRegRequest_answers messageId hline h
      obtain ⟨hseq, -⟩ := (regRequestFields_eq_some_iff f).mp hfields
      exact ⟨f.pcSeq, hseq, fun m hm => regResponse_carries messageId f.pcSeq f.requestId f.runtimePc values hm⟩
    | mem =>
      dsimp only at h
      cases hfields : memRequestFields line with
      | none =>
        rw [handleMemRequest, hfields] at h
        cases h
      | some f =>
        obtain ⟨payload, hechoes, hformed, hanswer⟩ := handleMemRequest_answers messageId d.memory hline hfields
        obtain rfl := Option.some.inj (h.symm.trans hanswer)
        obtain ⟨hseq, -⟩ := (memRequestFields_eq_some_iff f).mp hfields
        exact ⟨f.pcSeq, hseq, fun m hm => memResponse_carries messageId hechoes hformed hm⟩

theorem bare_toBytes {text : List Char} (hascii : Ascii text) (h : text.all standsBare = true) :
    Bare (toBytes text) :=
  ⟨text, (Utf8.decode?_eq_some_iff _ _).mpr (toBytes_ascii hascii).symm, List.all_eq_true.mp h⟩

/-- An update whose module name needs no escapes passes for no response. -/
theorem update_inTime {s : Endpoints} (hbare : ∀ info ∈ s.debuggee.pcInfo, Bare info.module) {reason : String}
    (hreason : Bare (toBytes reason.toList)) (context : Option (Int × Nat)) :
    ∀ line ∈ s.nextUpdate reason, InTime context ⟨line, s.stop⟩ := by
  intro line hline c _ hcarries
  obtain ⟨info, hinfo, hwritten⟩ := Option.bind_eq_some_iff.mp hline
  obtain ⟨-, name, text, -, -, hread⟩ := read_of_bare s.nextMessageId s.nextPcSeq info.pc info.runtimeModuleBase true
    hwritten (hbare info hinfo) hreason
  have hmessage : readMessage line = some (pcUpdateMessage s.nextMessageId (pcUpdatePayload s.nextPcSeq info.pc
      (String.ofList name) info.runtimeModuleBase (String.ofList text) true)) := by
    rw [readMessage, hread]
    rfl
  rw [carriesResponse, hmessage] at hcarries
  cases hcarries

end reading

namespace Endpoints

/-- What every run keeps: both engines are in one context, the extension can read what is on its way to it, and every
response on its way to IDA is in time for the context it will find there. -/
structure Sound (s : Endpoints) : Prop where
  tracked : DayVarController.Tracked s.controller
  contexts : s.controller.AtSeq (s.controller.core.currentPc.map PcContext.pcSeq)
  printable : ∀ line ∈ s.toExtension, Printable (receivedText line)
  inTime : Run.Along receive InTime s.context s.toIda
  fresh : s.Fresh

theorem printable_request {message : Envelope} (h : message.Readable) :
    Printable (receivedText (encodeMessage (envelopeJson message))) := by
  have hfree : FloatFree (envelopeJson message) := ⟨trivial, trivial, trivial, trivial, h, trivial⟩
  intro c hc
  have hmem := (List.takeWhile_prefix _).subset hc
  rcases List.mem_append.mp hmem with hbody | hnewline
  · exact printable_encode _ hfree c hbody
  · have hne := List.mem_takeWhile_imp hc
    rw [List.mem_singleton.mp hnewline] at hne
    exact absurd hne (by decide)

/-- A line in time is added to those before it. -/
theorem along_receive_concat {s : Endpoints} (h : Run.Along receive InTime s.context s.toIda) {sent : SentLine}
    (hsent : InTime s.upcoming sent) : Run.Along receive InTime s.context (s.toIda ++ [sent]) :=
  (Run.along_append receive s.toIda [sent]).mpr ⟨h, hsent, trivial⟩

theorem sendPcUpdateAndPump_sound {s : Endpoints} (h : Sound s) (reason : String)
    (hline : ∀ line ∈ s.nextUpdate reason, InTime s.upcoming ⟨line, s.stop⟩) :
    Sound (s.sendPcUpdateAndPump reason) := by
  unfold sendPcUpdateAndPump
  unfold nextUpdate at hline
  cases hinfo : s.debuggee.pcInfo with
  | none => exact ⟨h.tracked, h.contexts, h.printable, h.inTime, h.fresh⟩
  | some info =>
    rw [hinfo, Option.bind_some] at hline
    dsimp only
    cases hwritten : writePcUpdate jsonBufferSize s.nextMessageId s.nextPcSeq info.pc info.module
        info.runtimeModuleBase (toBytes reason.toList) true with
    | none => exact ⟨h.tracked, h.contexts, h.printable, h.inTime, h.fresh⟩
    | some line =>
      exact ⟨h.tracked, h.contexts, h.printable, along_receive_concat h.inTime (hline line hwritten), h.fresh⟩

/-- An answer is in time when its request's update is from the stop it is read at. -/
theorem answer_inTime {s : Endpoints} {text answer : List Char} (htext : Printable text)
    (hanswer : handleIncomingMessage s.debuggee s.nextMessageId text = some answer)
    (hseq : ∀ pcSeq ∈ requestSeq text, ∀ c ∈ s.upcoming, c.1 = pcSeq → c.2 = s.stop) :
    InTime s.upcoming ⟨toBytes answer, s.stop⟩ := by
  obtain ⟨pcSeq, hrequest, hcarries⟩ := handleIncomingMessage_carries htext hanswer
  intro c hc hcarried
  exact hseq pcSeq hrequest c hc (hcarries c.1 hcarried)

theorem takeLine_sound {s : Endpoints} (h : Sound s) (hcond : s.AnswersInTime .takeLine) : Sound s.takeLine := by
  unfold takeLine
  split
  · rename_i turns line rest hpumping hlines
    have hpositive : 0 < s.pumping := hpumping ▸ Nat.succ_pos turns
    have hhead : line ∈ s.toExtension.head? := by
      rw [hlines]
      rfl
    have htext : Printable (receivedText line) := h.printable line (hlines ▸ List.mem_cons_self ..)
    refine ⟨h.tracked, h.contexts, fun l hl => h.printable l (hlines ▸ List.mem_cons_of_mem _ hl), ?_, h.fresh⟩
    dsimp only
    cases hanswer : handleIncomingMessage s.debuggee s.nextMessageId (receivedText line) with
    | none =>
      rw [Option.toList_none, List.map_nil, List.append_nil]
      exact h.inTime
    | some answer =>
      exact along_receive_concat h.inTime (answer_inTime htext hanswer (hcond hpositive line hhead))
  · exact h

theorem context_eq (s : Endpoints) :
    s.context = (s.controller.core.currentPc.map PcContext.pcSeq).map fun pcSeq => (pcSeq, s.contextStop) := by
  rw [Option.map_map]
  rfl

/-- What IDA accepts was read at the stop of its context when it is in time. -/
theorem accepted_stop {s : Endpoints} (h : Sound s) {sent : SentLine} (hsent : InTime s.context sent)
    {message : Payload} (hread : readMessage sent.line = some message)
    (haccepts : s.controller.accepts message = true) : sent.stop = s.contextStop := by
  obtain ⟨pcSeq, payload, hseq, hpayload, htype, hcarried⟩ := DayVarController.accepts_seq h.contexts haccepts
  have hcarries : carriesResponse sent.line pcSeq = true := by
    rw [carriesResponse, hread]
    dsimp only
    rw [hpayload]
    exact (Bool.and_eq_true _ _).mpr ⟨htype, hcarried⟩
  have hcontext : s.context = some (pcSeq, s.contextStop) := by
    rw [context_eq, hseq]
    rfl
  exact (hsent (pcSeq, s.contextStop) hcontext hcarries).symm

/-- A line that reaches IDA leaves it in the context that was on its way. -/
theorem deliver_context {s : Endpoints} (h : Sound s) (host : HostReply) {sent : SentLine} {rest : List SentLine}
    (hqueue : s.toIda = sent :: rest) :
    (s.deliver host).context = receive s.context sent ∧ (s.deliver host).toIda = rest := by
  unfold deliver
  rw [hqueue]
  dsimp only
  cases hread : readMessage sent.line with
  | none =>
    rw [receive, hread]
    exact ⟨rfl, rfl⟩
  | some message =>
    refine ⟨?_, rfl⟩
    have hcontexts := DayVarController.handleMessage_atSeq h.tracked h.contexts host message
    rw [receive, hread, context_eq, hcontexts.1]
    dsimp only [Option.bind_some]
    cases DayVarController.contextSeq message with
    | none => exact (context_eq s).symm
    | some pcSeq => rfl

theorem deliver_sound {s : Endpoints} (h : Sound s) (host : HostReply) : Sound (s.deliver host) := by
  cases hqueue : s.toIda with
  | nil =>
    rw [deliver, hqueue]
    exact h
  | cons sent rest =>
    obtain ⟨hsent, hrest⟩ : Run.Along receive InTime s.context (sent :: rest) := hqueue ▸ h.inTime
    obtain ⟨hcontext, hleft⟩ := deliver_context h host hqueue
    have hinTime : Run.Along receive InTime (s.deliver host).context (s.deliver host).toIda := by
      rw [hcontext, hleft]
      exact hrest
    revert hinTime
    unfold deliver
    rw [hqueue]
    dsimp only
    cases hread : readMessage sent.line with
    | none => exact fun hinTime => ⟨h.tracked, h.contexts, h.printable, hinTime, h.fresh⟩
    | some message =>
      intro hinTime
      have hcontexts := DayVarController.handleMessage_atSeq h.tracked h.contexts host message
      refine ⟨(DayVarController.step_tracked h.tracked (.message host message)).1,
        ⟨rfl, hcontexts.2.trans hcontexts.1.symm⟩, ?_, hinTime, ?_⟩
      · refine List.forall_mem_append.mpr ⟨h.printable, ?_⟩
        rw [List.forall_mem_map]
        exact fun message' hmem =>
          printable_request (DayVarController.handleMessage_readable host message message' hmem)
      · intro a ha
        dsimp only at ha
        split at ha
        · rename_i haccepts
          rcases List.mem_append.mp ha with hbefore | hlast
          · exact h.fresh a hbefore
          · obtain rfl := List.mem_singleton.mp hlast
            exact accepted_stop h hsent hread haccepts
        · exact h.fresh a ha

/-- Every event that answers in time keeps the endpoints sound. -/
theorem step_sound {s : Endpoints} (h : Sound s) {event : Event} (hevent : s.AnswersInTime event) :
    Sound (s.step event) := by
  cases event with
  | moved debuggee => exact ⟨h.tracked, h.contexts, h.printable, h.inTime, h.fresh⟩
  | dvsPc => exact sendPcUpdateAndPump_sound h "dvs_pc" hevent
  | stepCompleted => exact sendPcUpdateAndPump_sound h "dvs_step" hevent
  | dvsPoll args => exact ⟨h.tracked, h.contexts, h.printable, h.inTime, h.fresh⟩
  | takeLine => exact takeLine_sound h hevent
  | pumpEnds => exact ⟨h.tracked, h.contexts, h.printable, h.inTime, h.fresh⟩
  | deliver host => exact deliver_sound h host

theorem start_sound (debuggee : Debuggee) (maxRecoveryCandidates : Int) (watchedLvarIndexes : List Int) :
    Sound { debuggee := debuggee, controller := DayVarController.init maxRecoveryCandidates watchedLvarIndexes } :=
  ⟨⟨⟨[], VVariableRecovery.init_inv 256⟩, .inl ⟨fun _ => rfl, fun _ => rfl⟩⟩, ⟨rfl, rfl⟩,
    fun _ hline => absurd hline List.not_mem_nil, trivial, fun _ ha => absurd ha List.not_mem_nil⟩

section announced
variable {s : Endpoints}

theorem receive_stop {context : Option (Int × Nat)} {sent : SentLine} {stop : Nat} (h : ∀ c ∈ context, c.2 = stop)
    (hsent : sent.stop = stop) : ∀ c ∈ receive context sent, c.2 = stop := by
  unfold receive
  split
  · exact h
  · intro c hc
    obtain rfl := Option.some.inj hc
    exact hsent

theorem upcoming_concat {lines : List SentLine} {sent : SentLine} {context : Option (Int × Nat)} {stop : Nat}
    (h : ∀ c ∈ lines.foldl receive context, c.2 = stop) (hsent : sent.stop = stop) :
    ∀ c ∈ (lines ++ [sent]).foldl receive context, c.2 = stop := by
  rw [List.foldl_append]
  exact receive_stop h hsent

/-- What the extension writes at a stop announces no other. -/
theorem sendPcUpdateAndPump_announced (h : Announced s) (reason : String) :
    Announced (s.sendPcUpdateAndPump reason) ∧ (s.sendPcUpdateAndPump reason).debuggee = s.debuggee := by
  unfold sendPcUpdateAndPump
  split
  · exact ⟨h, rfl⟩
  · dsimp only
    split
    · exact ⟨h, rfl⟩
    · exact ⟨upcoming_concat h rfl, rfl⟩

theorem takeLine_announced (h : Announced s) : Announced s.takeLine ∧ s.takeLine.debuggee = s.debuggee := by
  unfold takeLine
  split
  · refine ⟨?_, rfl⟩
    unfold Announced upcoming context
    dsimp only
    cases handleIncomingMessage s.debuggee s.nextMessageId (receivedText _) with
    | none =>
      rw [Option.toList_none, List.map_nil, List.append_nil]
      exact h
    | some answer => exact upcoming_concat h rfl
  · exact ⟨h, rfl⟩

theorem deliver_announced (hsound : Sound s) (h : Announced s) (host : HostReply) :
    Announced (s.deliver host) ∧ (s.deliver host).debuggee = s.debuggee := by
  have hstands : (s.deliver host).stop = s.stop ∧ (s.deliver host).debuggee = s.debuggee := by
    unfold deliver
    split
    · exact ⟨rfl, rfl⟩
    · split
      · exact ⟨rfl, rfl⟩
      · exact ⟨rfl, rfl⟩
  refine ⟨?_, hstands.2⟩
  unfold Announced
  rw [hstands.1]
  cases hqueue : s.toIda with
  | nil =>
    rw [deliver, hqueue]
    exact h
  | cons sent rest =>
    obtain ⟨hcontext, hleft⟩ := deliver_context hsound host hqueue
    have hsame : (s.deliver host).upcoming = s.upcoming := by
      unfold upcoming
      rw [hleft, hcontext, hqueue]
      rfl
    rw [hsame]
    exact h

/-- Nothing but a move of the debuggee brings up a stop that was not announced. -/
theorem step_announced (hsound : Sound s) (h : Announced s) {event : Event} (hevent : ∀ d, event ≠ .moved d) :
    Announced (s.step event) ∧ (s.step event).debuggee = s.debuggee := by
  cases event with
  | moved debuggee => exact absurd rfl (hevent debuggee)
  | dvsPc => exact sendPcUpdateAndPump_announced h "dvs_pc"
  | stepCompleted => exact sendPcUpdateAndPump_announced h "dvs_step"
  | dvsPoll args => exact ⟨h, rfl⟩
  | takeLine => exact takeLine_announced h
  | pumpEnds => exact ⟨h, rfl⟩
  | deliver host => exact deliver_announced hsound h host

theorem answersInTime_of_announced (h : Announced s) (hbare : ∀ info ∈ s.debuggee.pcInfo, Bare info.module)
    (event : Event) : s.AnswersInTime event := by
  have hpc : Bare (toBytes "dvs_pc".toList) := bare_toBytes (by decide) (by decide)
  have hstep : Bare (toBytes "dvs_step".toList) := bare_toBytes (by decide) (by decide)
  cases event with
  | moved debuggee => trivial
  | dvsPc => exact update_inTime hbare hpc s.upcoming
  | stepCompleted => exact update_inTime hbare hstep s.upcoming
  | dvsPoll args => trivial
  | takeLine => exact fun _ _ _ _ _ c hc _ => h c hc
  | pumpEnds => trivial
  | deliver host => trivial

/-- While the debuggee stands, every request is answered in time, whatever is polled or updated how often. -/
theorem along_of_standing (hsound : Sound s) (h : Announced s) (hbare : ∀ info ∈ s.debuggee.pcInfo, Bare info.module)
    {events : List Event} (hevents : ∀ event ∈ events, ∀ d, event ≠ .moved d) :
    Run.Along step AnswersInTime s events := by
  induction events generalizing s with
  | nil => trivial
  | cons event rest ih =>
    obtain ⟨hevent, hrest⟩ := List.forall_mem_cons.mp hevents
    have hanswers := answersInTime_of_announced h hbare event
    obtain ⟨hnext, hstands⟩ := step_announced hsound h hevent
    exact ⟨hanswers, ih (step_sound hsound hanswers) hnext (hstands ▸ hbare) hrest⟩

end announced

/-- A debuggee that stands in `a1`'s function with this value in `rcx`. -/
def stoppedWith (rcx : UInt64) : Debuggee :=
  { pcInfo := some { pc := 0x401010, module := [97], runtimeModuleBase := 0x400000 }
    registers := some (.values fun name => if name = ['r', 'c', 'x'] then some (.int64 rcx) else none)
    memory := none }

/-- A `dvs_pc` whose requests are answered by a `dvs_poll` at the same stop. -/
def polledAtStop : List Event :=
  [.dvsPc, .pumpEnds, .deliver DayVarController.argumentHost, .dvsPoll none, .takeLine, .takeLine,
    .deliver DayVarController.argumentHost]

/-- The debuggee moves between the `dvs_pc` and the `dvs_poll` that answers its requests. -/
def polledAfterMove : List Event :=
  [.dvsPc, .pumpEnds, .deliver DayVarController.argumentHost, .moved (stoppedWith 2), .dvsPoll none, .takeLine,
    .takeLine, .deliver DayVarController.argumentHost]

end Endpoints
end DynvarSync.Session
