import DynvarSync.Session.Exchange

/-! No exchange goes on for ever: whatever lines are on their way between IDA and the extension, three rounds of polls
and deliveries leave none, for the answers to a round of requests ask for less than the requests did. -/
namespace DynvarSync.Session
open Lib PyText CText JsonText Ida Windbg VVariableRecovery

namespace Endpoints

/-- What happens while the debuggee stands and no update is sent leads from one state to the other. -/
def Served (s t : Endpoints) : Prop := ∃ events : List Event, (∀ event ∈ events, event.Serves) ∧ t = events.foldl step s

theorem Served.refl (s : Endpoints) : Served s s := ⟨[], nofun, rfl⟩

theorem Served.trans {s t u : Endpoints} (h : Served s t) (h' : Served t u) : Served s u := by
  obtain ⟨events, hevents, rfl⟩ := h
  obtain ⟨more, hmore, rfl⟩ := h'
  exact ⟨events ++ more, List.forall_mem_append.mpr ⟨hevents, hmore⟩, List.foldl_append.symm⟩

end Endpoints

section requests

/-- A register response asks for memory only. -/
theorem applyRegResponse_types (s : VVariableRecovery) (payload : Payload) :
    ∀ request ∈ (s.applyRegResponse payload).memRequests, request.type = .memRequest := by
  rw [applyRegResponse]
  split
  · exact List.forall_mem_nil _
  · split
    · exact List.forall_mem_nil _
    · split
      · exact List.forall_mem_nil _
      · exact registerLoop_forall _ _ _ _ (fun _ _ _ _ => rfl) (List.forall_mem_nil _)

theorem wrapRequests_types (core : DayVarCore) {requests : List Request}
    (h : ∀ request ∈ requests, request.type = .memRequest) :
    ∀ message ∈ (DayVarController.wrapRequests core requests).1, message.type = .memRequest := by
  induction requests generalizing core with
  | nil => exact nofun
  | cons request rest ih =>
    obtain ⟨hfirst, hrest⟩ := List.forall_mem_cons.mp h
    exact List.forall_mem_cons.mpr ⟨hfirst, ih _ hrest⟩

theorem stackLoop_types (rsp : Int) (pending : PendingRequest) (rows : List VariableRecord)
    {acc : DayVarCore.StackRequests} (h : ∀ message ∈ acc.messages, message.type = .memRequest) :
    ∀ message ∈ (rows.foldl (DayVarCore.requestStackArg rsp pending) acc).messages, message.type = .memRequest := by
  induction rows generalizing acc with
  | nil => exact h
  | cons row rows ih =>
    refine ih ?_
    rw [DayVarCore.requestStackArg]
    split
    · exact h
    · exact List.forall_mem_append.mpr ⟨h, List.forall_mem_singleton.mpr rfl⟩

/-- So does one of the argument planner. -/
theorem coreApplyRegResponse_types (core : DayVarCore) (payload : Payload) :
    ∀ message ∈ (core.applyRegResponse payload).memRequests, message.type = .memRequest := by
  rw [DayVarCore.applyRegResponse]
  split
  · exact List.forall_mem_nil _
  · split
    · exact List.forall_mem_nil _
    · split
      · exact List.forall_mem_nil _
      · unfold DayVarCore.buildStackMemRequests
        dsimp only
        split
        · exact List.forall_mem_nil _
        · split
          · exact List.forall_mem_nil _
          · exact stackLoop_types _ _ _ (List.forall_mem_nil _)

variable {c : DayVarController} {message : Payload}

/-- A response is answered with memory requests, a memory response with none. -/
theorem handleMessage_answer (host : HostReply) {type : RequestType}
    (htype : message.get "type" = .str (answerType type)) :
    (∀ sent ∈ (c.handleMessage host message).sent, sent.type = .memRequest) ∧
      (type = .mem → (c.handleMessage host message).sent = []) := by
  cases hpayload : (message.getD "payload" (.obj [])).asObj with
  | none =>
    rw [DayVarController.handleMessage, hpayload]
    exact ⟨List.forall_mem_nil _, fun _ => rfl⟩
  | some payload =>
    cases type with
    | reg =>
      rw [handleMessage_regResponse host hpayload htype, DayVarController.handleRegResponse]
      refine ⟨?_, fun hmem => by cases hmem⟩
      dsimp only
      split
      · split
        · exact List.forall_mem_nil _
        · exact wrapRequests_types _ (applyRegResponse_types _ payload)
      · split
        · exact List.forall_mem_nil _
        · exact coreApplyRegResponse_types _ payload
    | mem =>
      have hnone : (c.handleMemResponse payload).sent = [] := by
        rw [DayVarController.handleMemResponse]
        dsimp only
        split
        · split <;> rfl
        · split <;> rfl
      rw [handleMessage_memResponse host hpayload htype]
      exact ⟨hnone ▸ List.forall_mem_nil _, fun _ => hnone⟩

end requests

section rounds
variable {s : Endpoints}

/-- Every line that waits for the extension is printable, as every line of the controller is. -/
def Legible (s : Endpoints) : Prop := ∀ line ∈ s.toExtension, Printable (receivedText line)

/-- Every line to IDA that is read is a response, of the type of one of the requests it can answer. -/
def Answering (types : RequestType → Prop) (s : Endpoints) : Prop :=
  ∀ sent ∈ s.toIda, ∀ message, readMessage sent.line = some message →
    ∃ type, types type ∧ message.get "type" = .str (answerType type)

/-- Every line to the extension is a memory request. -/
def AsksMemory (s : Endpoints) : Prop := ∀ line ∈ s.toExtension, requestType (receivedText line) = some .mem

theorem deliver_legible (h : Legible s) (host : HostReply) : Legible (s.deliver host) := by
  unfold Endpoints.deliver
  split
  · exact h
  · split
    · exact h
    · refine List.forall_mem_append.mpr ⟨h, ?_⟩
      rw [List.forall_mem_map]
      exact fun message hmessage =>
        Endpoints.printable_request (s.controller.handleMessage_readable host _ message hmessage)

theorem step_legible (h : Legible s) (event : Event) : Legible (s.step event) := by
  have hupdate (reason : String) : Legible (s.sendPcUpdateAndPump reason) := by
    unfold Endpoints.sendPcUpdateAndPump
    split
    · exact h
    · dsimp only
      split <;> exact h
  cases event with
  | moved debuggee => exact h
  | dvsPc => exact hupdate "dvs_pc"
  | stepCompleted => exact hupdate "dvs_step"
  | dvsPoll args => exact h
  | takeLine =>
    rw [Endpoints.step]
    unfold Endpoints.takeLine
    split
    · rename_i hlines
      exact fun line hline => h line (hlines ▸ List.mem_cons_of_mem _ hline)
    · exact h
  | pumpEnds => exact h
  | deliver host => exact deliver_legible h host

/-- A line that is polled leaves its queue; its answer, if there is one, has the type of the request. -/
theorem poll_takes {line : List Char} {rest : List (List Char)} (hlegible : Legible s)
    (hqueue : s.toExtension = line :: rest) :
    let t := [Event.dvsPoll none, .takeLine].foldl Endpoints.step s
    t.toExtension = rest ∧ ∀ sent ∈ t.toIda, sent ∈ s.toIda ∨ ∃ message payload,
      Responds (receivedText line) sent.line message payload := by
  have hpumping : parseOptionalUnsigned none defaultPumpMessages = 15 + 1 := by decide
  have hline := hlegible line (hqueue ▸ List.mem_cons_self ..)
  simp only [List.foldl_cons, List.foldl_nil, Endpoints.step, Endpoints.takeLine, hpumping, hqueue]
  refine ⟨trivial, fun sent hsent => ?_⟩
  rcases List.mem_append.mp hsent with hbefore | hlast
  · exact .inl hbefore
  · obtain ⟨answer, hanswer, rfl⟩ := List.mem_map.mp hlast
    exact .inr (handleIncomingMessage_responds hline (Option.mem_toList.mp hanswer))

/-- A line that is delivered leaves its queue; what IDA sends for it waits for the extension. -/
theorem deliver_takes {sent : SentLine} {rest : List SentLine} (hqueue : s.toIda = sent :: rest) (host : HostReply) :
    (s.deliver host).toIda = rest ∧ ∀ line ∈ (s.deliver host).toExtension, line ∈ s.toExtension ∨
      ∃ message, readMessage sent.line = some message ∧
        ∃ e ∈ (s.controller.handleMessage host message).sent, line = encodeMessage (envelopeJson e) := by
  unfold Endpoints.deliver
  rw [hqueue]
  dsimp only
  cases hread : readMessage sent.line with
  | none => exact ⟨rfl, fun line hline => .inl hline⟩
  | some message =>
    refine ⟨rfl, fun line hline => ?_⟩
    rcases List.mem_append.mp hline with hbefore | hlast
    · exact .inl hbefore
    · obtain ⟨e, he, rfl⟩ := List.mem_map.mp hlast
      exact .inr ⟨message, rfl, e, he, rfl⟩

/-- The answer to a polled line has one of the types the line can ask for. -/
theorem poll_answering {line : List Char} {rest : List (List Char)} (hlegible : Legible s)
    (hqueue : s.toExtension = line :: rest) {types : RequestType → Prop} (h : Answering types s)
    (htypes : ∀ type, requestType (receivedText line) = some type → types type) :
    Answering types ([Event.dvsPoll none, .takeLine].foldl Endpoints.step s) := by
  intro sent hsent message hread
  rcases (poll_takes hlegible hqueue).2 sent hsent with hbefore | ⟨message', payload, hresponds⟩
  · exact h sent hbefore message hread
  · obtain rfl := Option.some.inj (hresponds.read.symm.trans hread)
    obtain ⟨type, hrequest, htype⟩ := hresponds.type
    exact ⟨type, htypes type hrequest, htype⟩

theorem poll_legible (h : Legible s) : Legible ([Event.dvsPoll none, .takeLine].foldl Endpoints.step s) :=
  step_legible (step_legible h (.dvsPoll none)) .takeLine

theorem poll_asksMemory {line : List Char} {rest : List (List Char)} (hlegible : Legible s)
    (hqueue : s.toExtension = line :: rest) (h : AsksMemory s) :
    AsksMemory ([Event.dvsPoll none, .takeLine].foldl Endpoints.step s) := by
  intro other hother
  rw [(poll_takes hlegible hqueue).1] at hother
  exact h other (hqueue ▸ List.mem_cons_of_mem _ hother)

theorem asksMemory_head {line : List Char} {rest : List (List Char)} (hqueue : s.toExtension = line :: rest)
    (h : AsksMemory s) (type : RequestType) (htype : requestType (receivedText line) = some type) : type = .mem :=
  Option.some.inj (htype.symm.trans (h line (hqueue ▸ List.mem_cons_self ..)))

theorem deliver_answering {sent : SentLine} {rest : List SentLine} (hqueue : s.toIda = sent :: rest) (host : HostReply)
    {types : RequestType → Prop} (h : Answering types s) : Answering types (s.deliver host) := by
  intro other hother
  rw [(deliver_takes hqueue host).1] at hother
  exact h other (hqueue ▸ List.mem_cons_of_mem _ hother)

/-- A delivered response is answered with memory requests. -/
theorem deliver_asksMemory {sent : SentLine} {rest : List SentLine} (hqueue : s.toIda = sent :: rest) (host : HostReply)
    {types : RequestType → Prop} (hanswers : Answering types s) (h : AsksMemory s) : AsksMemory (s.deliver host) := by
  intro line hline
  rcases (deliver_takes hqueue host).2 line hline with hbefore | ⟨message, hread, e, he, rfl⟩
  · exact h line hbefore
  · obtain ⟨type, -, htype⟩ := hanswers sent (hqueue ▸ List.mem_cons_self ..) message hread
    have hasks := (handleMessage_answer (c := s.controller) host htype).1 e he
    rw [receivedText_envelope (s.controller.handleMessage_readable host message e he), requestType,
      extract_envelopeType, hasks]
    rfl

/-- A delivered memory response is answered with nothing. -/
theorem deliver_asksNothing {sent : SentLine} {rest : List SentLine} (hqueue : s.toIda = sent :: rest)
    (host : HostReply) (hanswers : Answering (· = .mem) s) (h : s.toExtension = []) :
    (s.deliver host).toExtension = [] := by
  refine List.eq_nil_iff_forall_not_mem.mpr fun line hline => ?_
  rcases (deliver_takes hqueue host).2 line hline with hbefore | ⟨message, hread, e, he, -⟩
  · rw [h] at hbefore
    cases hbefore
  · obtain ⟨type, rfl, htype⟩ := hanswers sent (hqueue ▸ List.mem_cons_self ..) message hread
    rw [(handleMessage_answer (c := s.controller) host htype).2 rfl] at he
    cases he

/-- All lines on their way to IDA can be delivered. -/
theorem deliver_all (host : HostReply) {I : Endpoints → Prop}
    (hdeliver : ∀ s sent rest, I s → s.toIda = sent :: rest → I (s.deliver host)) (h : I s) :
    ∃ t, s.Served t ∧ t.toIda = [] ∧ I t := by
  obtain ⟨events, hevents, hdone, hkept⟩ := Run.drains Endpoints.step Endpoints.toIda [.deliver host]
    (fun s sent rest hs hqueue => ⟨(deliver_takes hqueue host).1, hdeliver s sent rest hs hqueue⟩) h
  refine ⟨_, ⟨events, fun event hevent => ?_, rfl⟩, hdone, hkept⟩
  rw [List.mem_singleton.mp (hevents event hevent)]
  trivial

/-- All lines on their way to the extension can be polled. -/
theorem poll_all {I : Endpoints → Prop} (hlegible : ∀ s, I s → Legible s)
    (hpoll : ∀ s line rest, I s → s.toExtension = line :: rest →
      I ([Event.dvsPoll none, .takeLine].foldl Endpoints.step s)) (h : I s) :
    ∃ t, s.Served t ∧ t.toExtension = [] ∧ I t := by
  obtain ⟨events, hevents, hdone, hkept⟩ := Run.drains Endpoints.step Endpoints.toExtension
    [.dvsPoll none, .takeLine]
    (fun s line rest hs hqueue => ⟨(poll_takes (hlegible s hs) hqueue).1, hpoll s line rest hs hqueue⟩) h
  have hserves : ∀ event ∈ [Event.dvsPoll none, .takeLine], event.Serves := by simp [Event.Serves]
  exact ⟨_, ⟨events, fun event hevent => hserves event (hevents event hevent), rfl⟩, hdone, hkept⟩

/-- A round of polls leaves answers only, and the deliveries of these leave memory requests only. -/
theorem first_round (host : HostReply) (h : Legible s) (hcame : s.toIda = []) :
    ∃ t, s.Served t ∧ t.toIda = [] ∧ Legible t ∧ AsksMemory t := by
  have hstart : Legible s ∧ Answering (fun _ => True) s :=
    ⟨h, fun sent hsent => absurd hsent (hcame ▸ List.not_mem_nil)⟩
  obtain ⟨polled, hserved, hdone, hlegible, hanswers⟩ := poll_all (I := fun s => Legible s ∧ Answering (fun _ => True) s)
    (fun _ hs => hs.1)
    (fun s line rest hs hqueue => ⟨poll_legible hs.1, poll_answering hs.1 hqueue hs.2 fun _ _ => trivial⟩) hstart
  have hpolled : Legible polled ∧ Answering (fun _ => True) polled ∧ AsksMemory polled :=
    ⟨hlegible, hanswers, fun line hline => absurd hline (hdone ▸ List.not_mem_nil)⟩
  obtain ⟨delivered, hserved', hcame', hlegible', -, hasks⟩ := deliver_all host
    (I := fun s => Legible s ∧ Answering (fun _ => True) s ∧ AsksMemory s)
    (fun s sent rest hs hqueue => ⟨deliver_legible hs.1 host, deliver_answering hqueue host hs.2.1,
      deliver_asksMemory hqueue host hs.2.1 hs.2.2⟩) hpolled
  exact ⟨delivered, hserved.trans hserved', hcame', hlegible', hasks⟩

/-- A second round leaves nothing. -/
theorem second_round (host : HostReply) (h : Legible s) (hasks : AsksMemory s) (hcame : s.toIda = []) :
    ∃ t, s.Served t ∧ t.toExtension = [] ∧ t.toIda = [] := by
  have hstart : Legible s ∧ AsksMemory s ∧ Answering (· = .mem) s :=
    ⟨h, hasks, fun sent hsent => absurd hsent (hcame ▸ List.not_mem_nil)⟩
  obtain ⟨polled, hserved, hdone, -, -, hanswers⟩ := poll_all
    (I := fun s => Legible s ∧ AsksMemory s ∧ Answering (· = .mem) s) (fun _ hs => hs.1)
    (fun s line rest hs hqueue => ⟨poll_legible hs.1, poll_asksMemory hs.1 hqueue hs.2.1,
      poll_answering hs.1 hqueue hs.2.2 (asksMemory_head hqueue hs.2.1)⟩) hstart
  obtain ⟨delivered, hserved', hcame', hnone, -⟩ := deliver_all host
    (I := fun s => s.toExtension = [] ∧ Answering (· = .mem) s)
    (fun s sent rest hs hqueue => ⟨deliver_asksNothing hqueue host hs.2 hs.1, deliver_answering hqueue host hs.2⟩)
    ⟨hdone, hanswers⟩
  exact ⟨delivered, hserved.trans hserved', hnone, hcame'⟩

end rounds

end DynvarSync.Session
