import DynvarSync.Session.MachineAnswers

/-! The lines in which the local recovery at a PC finds no answer of its own: those of the argument planner, and those
of other PCs. -/
namespace DynvarSync.Session
open Lib PyText CText JsonText Ida Windbg Broker VVariableRecovery

/-- A line to IDA that begins no context and answers no request of the local recovery at a PC. -/
def Bystander (pcSeq : Int) (line : List UInt8) : Prop :=
  ∀ message, readMessage line = some message → DayVarController.contextSeq message = none ∧
    ∀ payload, (message.getD "payload" (.obj [])).asObj = some payload →
      isVRequestId (payload.get "request_id") = true → (payload.get "pc_seq").eqInt pcSeq = false

/-- A line to the extension whose answer, if there is one, is a bystander. -/
def Unasked (d : Debuggee) (pcSeq : Int) (line : List Char) : Prop :=
  ∀ messageId answer, handleIncomingMessage d messageId (receivedText line) = some answer →
    Bystander pcSeq (toBytes answer)

/-- The type of the answer to a request. -/
def answerType : RequestType → String
  | .reg => "reg_response"
  | .mem => "mem_response"

/-- A line that is read as a response, with the correlation fields found in the text it answers. -/
structure Responds (text : List Char) (line : List UInt8) (message payload : Payload) : Prop where
  read : readMessage line = some message
  type : ∃ type, requestType text = some type ∧ message.get "type" = .str (answerType type)
  carries : message.getD "payload" (.obj []) = .obj payload
  pcSeq : ∃ pcSeq : Nat, requestSeq text = some pcSeq ∧ payload.get "pc_seq" = .int pcSeq
  requestId : ∃ requestId, extractJsonStringField text "request_id" 128 = some requestId ∧
    payload.get "request_id" = .str (String.ofList requestId)

/-- Whatever the extension answers is such a response. -/
theorem handleIncomingMessage_responds {d : Debuggee} {messageId : UInt32} {text answer : List Char}
    (htext : Printable text) (h : handleIncomingMessage d messageId text = some answer) :
    ∃ message payload, Responds text (toBytes answer) message payload := by
  rw [handleIncomingMessage] at h
  cases htype : requestType text with
  | none =>
    rw [htype] at h
    cases h
  | some type =>
    have hseq : requestSeq text = extractJsonUnsignedField text "pc_seq" := by rw [requestSeq, htype]
    rw [htype] at h
    cases type with
    | reg =>
      obtain ⟨f, values, hfields, rfl⟩ := handleRegRequest_answers messageId htext h
      obtain ⟨hpcSeq, hid, -⟩ := (regRequestFields_eq_some_iff f).mp hfields
      have hfree : FloatFree (regResponseJson messageId
          (regResponsePayload f.pcSeq f.requestId f.runtimePc values)) :=
        ⟨trivial, trivial, trivial, trivial, ⟨trivial, trivial, trivial, trivial,
          (wellFormed_registerFields values).floatFree, trivial⟩, trivial⟩
      exact ⟨_, _, readMessage_encode hfree rfl, ⟨.reg, htype, rfl⟩, rfl, ⟨_, hseq.trans hpcSeq, rfl⟩, ⟨_, hid, rfl⟩⟩
    | mem =>
      dsimp only at h
      cases hfields : memRequestFields text with
      | none =>
        rw [handleMemRequest, hfields] at h
        cases h
      | some f =>
        obtain ⟨payload, hechoes, hformed, hanswer⟩ := handleMemRequest_answers messageId d.memory htext hfields
        obtain rfl := Option.some.inj (h.symm.trans hanswer)
        obtain ⟨hpcSeq, hid, -⟩ := (memRequestFields_eq_some_iff f).mp hfields
        obtain ⟨ok, more, rfl⟩ := hechoes
        exact ⟨_, _, readMessage_encode hformed.floatFree hformed.normalize_eq, ⟨.mem, htype, rfl⟩, rfl,
          ⟨_, hseq.trans hpcSeq, rfl⟩, ⟨_, hid, rfl⟩⟩

section responses
variable {text : List Char} {line : List UInt8} {message payload : Payload}

/-- A response begins no context. -/
theorem Responds.contextSeq (h : Responds text line message payload) : DayVarController.contextSeq message = none := by
  obtain ⟨type, -, htype⟩ := h.type
  have hother : (message.get "type").eqStr "pc_update" = false := by
    rw [htype]
    cases type <;> rfl
  rw [DayVarController.contextSeq, hother]
  split <;> rfl

/-- A response is a bystander when its `pc_seq` is another or its request id is none of the recovery's. -/
theorem Responds.bystander (h : Responds text line message payload) {pcSeq : Int}
    (hother : isVRequestId (payload.get "request_id") = true → (payload.get "pc_seq").eqInt pcSeq = false) :
    Bystander pcSeq line := by
  intro message' hread
  obtain rfl := Option.some.inj (h.read.symm.trans hread)
  refine ⟨h.contextSeq, fun payload' hpayload => ?_⟩
  rw [h.carries] at hpayload
  obtain rfl := Option.some.inj hpayload
  exact hother

end responses

/-- A request of another PC is none of the recovery's. -/
theorem unasked_of_requestSeq (d : Debuggee) {pcSeq : Int} {line : List Char} (hline : Printable (receivedText line))
    (h : ∀ seq ∈ requestSeq (receivedText line), (seq : Int) ≠ pcSeq) : Unasked d pcSeq line := by
  intro messageId answer hanswer
  obtain ⟨message, payload, hresponds⟩ := handleIncomingMessage_responds hline hanswer
  obtain ⟨seq, hseq, hget⟩ := hresponds.pcSeq
  refine hresponds.bystander fun _ => ?_
  rw [hget]
  exact decide_eq_false (h seq hseq)

/-- A request whose id does not begin as the recovery's do is none of its own. -/
theorem unasked_of_requestId (d : Debuggee) (pcSeq : Int) {line : List Char} (hline : Printable (receivedText line))
    (h : ∀ requestId ∈ extractJsonStringField (receivedText line) "request_id" 128,
      isVRequestId (.str (String.ofList requestId)) = false) : Unasked d pcSeq line := by
  intro messageId answer hanswer
  obtain ⟨message, payload, hresponds⟩ := handleIncomingMessage_responds hline hanswer
  obtain ⟨requestId, hid, hget⟩ := hresponds.requestId
  refine hresponds.bystander fun hv => ?_
  rw [hget, h requestId hid] at hv
  cases hv

theorem unasked_of_requestType (d : Debuggee) (pcSeq : Int) {line : List Char}
    (h : requestType (receivedText line) = none) : Unasked d pcSeq line := by
  intro messageId answer hanswer
  rw [handleIncomingMessage, h] at hanswer
  cases hanswer

section controller
variable {message : Envelope}

theorem receivedText_envelope (h : message.Readable) :
    receivedText (encodeMessage (envelopeJson message)) = encode (envelopeJson message) := by
  have hfree : FloatFree (envelopeJson message) := ⟨trivial, trivial, trivial, trivial, h, trivial⟩
  have hclean : newline ∉ encode (envelopeJson message) :=
    fun hmem => absurd (printable_encode _ hfree newline hmem).1 (by decide)
  rw [receivedText, encodeMessage, takeWhile_delimited, takeWhile_of_not_mem hclean]

/-- The type of every message of the controller is found. -/
theorem extract_envelopeType (message : Envelope) :
    extractJsonStringField (encode (envelopeJson message)) "type" 64 = some (typeText message.type).toList := by
  have hone : encodeInt 1 = ['1'] := by decide
  have hopening : ∀ piece ∈ openingPieces message.id, Inert "type" piece :=
    List.forall_mem_append.mpr ⟨by decide, List.forall_mem_singleton.mpr (inert_number fieldName_type message.id)⟩
  have hcut : fit 64 ((typeText message.type).toList.takeWhile (· ≠ quote)) = some (typeText message.type).toList := by
    rw [takeWhile_of_not_mem (not_mem_quote_of_plain (plain_typeText message.type))]
    cases message.type <;> decide
  have hline : encode (envelopeJson message) = joined quote (openingPieces message.id ++
      (["type".toList, [':'], (typeText message.type).toList] ++
        [[','], "role".toList, [':'], "ida".toList, [','], "payload".toList]))
      (':' :: (encode (.obj message.payload) ++ ['}'])) := by
    simp (disch := decide) only [envelopeJson, makeEnvelope, encode, encodeFields, encodeString_plain, hone,
      List.cons_append, List.nil_append, List.append_assoc, Role.text]
    rw [encodeString_plain (plain_typeText message.type)]
    simp only [openingPieces, numberPiece, joined_cons, joined_nil, List.cons_append, List.nil_append,
      List.append_assoc]
  rw [hline, extractString_pieces fieldName_type hopening (List.cons_ne_nil _ _), hcut]

/-- What is no request is not answered. -/
theorem unasked_idaPcMapped (d : Debuggee) (pcSeq : Int) (hreadable : message.Readable)
    (htype : message.type = .idaPcMapped) : Unasked d pcSeq (encodeMessage (envelopeJson message)) := by
  refine unasked_of_requestType d pcSeq ?_
  rw [receivedText_envelope hreadable, requestType, extract_envelopeType, htype]
  rfl

/-- A request of the argument planner: its id does not begin as those of the local recovery do. -/
structure ArgumentRequest (message : Envelope) : Prop where
  shape : ∃ id type pcSeq requestId runtimePc rest c tail, rest ≠ [] ∧ requestId.toList = c :: tail ∧
    plainChar c = true ∧ c ≠ 'v' ∧ message = ⟨id, type, correlationFields pcSeq requestId runtimePc ++ rest⟩

theorem isVRequestId_cons {c : Char} (hc : c ≠ 'v') (text : List Char) :
    isVRequestId (.str (String.ofList (c :: text))) = false := by
  unfold isVRequestId
  simp only [Json.asStr, Option.map_some, String.toList_ofList]
  split
  · rename_i heq
    exact absurd (List.cons.inj (Option.some.inj heq)).1 hc
  · rfl

theorem unasked_argumentRequest (d : Debuggee) (pcSeq : Int) (hreadable : message.Readable)
    (h : ArgumentRequest message) : Unasked d pcSeq (encodeMessage (envelopeJson message)) := by
  have hprintable := Endpoints.printable_request hreadable
  obtain ⟨id, type, seq, requestId, runtimePc, rest, c, tail, hrest, hid, hplain, hc, rfl⟩ := h.shape
  refine unasked_of_requestId d pcSeq hprintable fun found hfound => ?_
  have htext : (escape requestId.toList).takeWhile (· ≠ quote) = c :: (escape tail).takeWhile (· ≠ quote) := by
    have hquote : c ≠ quote := by
      rintro rfl
      exact absurd hplain (by decide)
    rw [hid, escape_cons, escapeChar_plain hplain, List.singleton_append, List.takeWhile_cons, if_pos]
    exact decide_eq_true hquote
  have hextract := extract_requestId type id seq requestId runtimePc (',' :: (encodeFields rest ++ ['}', '}'])) 128
  rw [requestLine, ← encode_request type id seq requestId runtimePc hrest, htext, fit] at hextract
  rw [receivedText_envelope hreadable, hextract] at hfound
  split at hfound
  · cases hfound
  · obtain rfl := Option.some.inj hfound
    exact isVRequestId_cons hc _

end controller

section requests
variable {core : DayVarCore}

/-- The register request of an entry plan is a request of the argument planner. -/
theorem argumentRequest_entryPlan (core : DayVarCore) (lvars : List VariableRecord) (context : PcContext) :
    ∀ message ∈ (core.buildEntryPlan lvars context).2.toList, ArgumentRequest message := by
  intro message hmessage
  obtain ⟨id, registers, -, rfl⟩ := DayVarCore.buildEntryPlan_request (Option.mem_toList.mp hmessage)
  have hid : (regRequestId context.pcSeq).toList =
      'r' :: ("eg-".toList ++ (toString context.pcSeq).toList ++ "-entry".toList) := by
    rw [regRequestId, String.toList_append, String.toList_append]
    rfl
  exact ⟨id, .regRequest, context.pcSeq, regRequestId context.pcSeq, context.runtimePc,
    [("registers", .arr (registers.map .str)), ("reason", .str "auto_live_refresh")], 'r', _, List.cons_ne_nil _ _, hid,
    by decide, by decide, rfl⟩

/-- So are the memory requests that a register response gives rise to. -/
theorem argumentRequest_stackReads (h : core.CurrentRequests) (payload : Payload) :
    ∀ message ∈ (core.applyRegResponse payload).memRequests, ArgumentRequest message := by
  intro message hmessage
  obtain ⟨context, -, hread⟩ := (DayVarCore.applyRegResponse_reads h payload).2 message hmessage
  obtain ⟨id, address, width, name, -, rfl, -⟩ := hread.shape
  have hid : (memRequestId context.pcSeq name).toList =
      'm' :: ("em-".toList ++ (toString context.pcSeq).toList ++ "-".toList ++ name.toList) := by
    rw [memRequestId, String.toList_append, String.toList_append, String.toList_append]
    rfl
  exact ⟨id, .memRequest, context.pcSeq, memRequestId context.pcSeq name, context.runtimePc,
    [("address", .str (formatHex address)), ("size", .int width), ("reason", .str "stack_arg"),
      ("variable", .str name)], 'm', _, List.cons_ne_nil _ _, hid, by decide, by decide, rfl⟩

end requests
end DynvarSync.Session
