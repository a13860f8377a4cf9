import DynvarSync.Windbg.MemoryHandler
import DynvarSync.Windbg.RequestDecoding

/-! A stack argument's memory request, from the planner that asks to the planner that is
answered: which names, PCs and addresses come back as they left. -/
namespace DynvarSync.Windbg
open Lib PyText CText JsonText Ida Broker

/-- The payload IDA decodes from a line of the extension. -/
def responsePayload (line : List Char) : Option Payload :=
  (decode line).bind fun message => message.asObj.bind fun fields => (Payload.get fields "payload").asObj

/-- The payload of the extension's answer to a message the broker relays to it. -/
def answerPayload (client : DebugClient) (messageId : UInt32) (message : Envelope) : Option Payload :=
  ((relay (encodeMessage (envelopeJson message))).bind fun line =>
    handleMemRequest client messageId (receivedText line)).bind responsePayload

/-- The answer to a message carries the message's own correlation fields, and its request is found. -/
def Correlates (client : DebugClient) (messageId : UInt32) (core : DayVarCore) (message : Envelope) : Prop :=
  ∃ answer, answerPayload client messageId message = some answer ∧
    (∀ key ∈ ["request_id", "runtime_pc", "pc_seq", "address"], answer.get key = message.payload.get key) ∧
    (core.applyMemResponse answer).accepted = true

/-- Texts that need no escape, and fields that the extension's buffers hold. -/
structure Unescaped (pcSeq : Int) (name runtimePc address : String) : Prop where
  plainName : Plain name.toList
  seqRange : 0 ≤ pcSeq ∧ pcSeq < 2 ^ 32
  plainPc : Plain runtimePc.toList
  pcFits : runtimePc.toList.length < 64
  notSize : runtimePc ≠ "size"
  addressFits : address.toList.length < 64

section lookup
variable {id pcSeq : Int} {requestId runtimePc address : String} {size : Int} {rest : List Char}

/-- A field behind a runtime PC of the field's own name. -/
theorem memoryLine_shadowed {field : String} (hfield : Plain field.toList) :
    memoryLine id pcSeq requestId field address size rest =
      joined quote (beforeRuntimePc .memRequest id pcSeq requestId ++ ["runtime_pc".toList, [':']])
        (field.toList ++ quote :: (',' :: quote :: ("address".toList ++ [quote]) ++ ':' :: quote ::
          (escape address.toList ++ quote :: joined quote ([[',']] ++ ["size".toList, numberPiece size]) rest))) := by
  rw [memoryLine, requestLine, requestPieces, escape_plain hfield]
  simp only [joined_append, joined_cons, joined_nil, List.cons_append, List.nil_append, List.append_assoc]

theorem inert_runtimePcKey {field : String} (h : FieldName field)
    (hkeys : ∀ piece ∈ keyPieces .memRequest, Inert field piece)
    (hrid : Inert field (escape requestId.toList)) :
    ∀ piece ∈ beforeRuntimePc .memRequest id pcSeq requestId ++ ["runtime_pc".toList, [':']], Inert field piece := by
  obtain ⟨hbefore, hkey⟩ := List.forall_mem_append.mp hkeys
  have hcolon : Inert field [':'] :=
    hbefore _ (List.mem_append_right _ (List.mem_cons_of_mem _ (List.mem_cons_self ..)))
  refine List.forall_mem_append.mpr ⟨inert_beforeRuntimePc h hbefore id pcSeq hrid, ?_⟩
  exact List.forall_mem_cons.mpr ⟨hkey _ (List.mem_singleton_self _), List.forall_mem_singleton.mpr hcolon⟩

/-- The address is found behind any plain runtime PC, its own name included. -/
theorem extract_address_plain (hrid : RequestId requestId) (hpc : Plain runtimePc.toList) :
    extractJsonStringField (memoryLine id pcSeq requestId runtimePc address size rest) "address" 64 =
      fit 64 ((escape address.toList).takeWhile (· ≠ quote)) := by
  by_cases hname : runtimePc = "address"
  · subst hname
    have hgap : ':' ∉ ',' :: quote :: ("address".toList ++ [quote]) := by decide
    rw [memoryLine_shadowed (by decide)]
    exact extractString_joined fieldName_address (List.append_ne_nil_of_right_ne_nil _ (List.cons_ne_nil _ _))
      (inert_runtimePcKey fieldName_address (by decide) (hrid.inert (by decide))) hgap 64 _ _
  · refine extract_address id pcSeq (hrid.inert (by decide)) ⟨?_, ?_⟩ size 64 rest
    · rw [escape_plain hpc]
      exact not_mem_quote_of_plain hpc
    · rw [escape_plain hpc]
      exact fun heq => hname (String.toList_inj.mp heq)

/-- A runtime PC that reads `size` hides the size. -/
theorem extract_size_shadowed (hrid : RequestId requestId) :
    extractJsonUnsignedField (memoryLine id pcSeq requestId "size" address size rest) "size" = none := by
  have hgap : ':' ∉ ',' :: quote :: ("address".toList ++ [quote]) := by decide
  rw [memoryLine_shadowed (by decide), extractJsonUnsignedField,
    fieldValue_joined fieldName_size (List.append_ne_nil_of_right_ne_nil _ (List.cons_ne_nil _ _))
      (inert_runtimePcKey fieldName_size (by decide) (hrid.inert (by decide))) hgap, Option.bind_some]
  rfl

theorem plain_formatHex (n : Int) : Plain (formatHex n).toList := by
  have htext : (formatHex n).toList = "0x".toList ++ ((if n < 0 then ['-'] else []) ++ Nat.toDigits 16 n.natAbs) := by
    simp [formatHex]
  rw [htext]
  refine plain_append (by decide) (plain_append ?_ (plain_hexDigits n.natAbs))
  split <;> decide

theorem inert_formatHex (n : Int) : Inert "size" (escape (formatHex n).toList) := by
  refine inert_of_mem (c := '0') (plain_formatHex n) ?_ (by decide)
  simp [formatHex]

end lookup

section fields
variable {id pcSeq : Int} {requestId runtimePc : String} {address : Int} {size : Nat} {rest : List Char}

theorem memRequestId_toList (pcSeq : Int) (name : String) :
    (memRequestId pcSeq name).toList = "mem-".toList ++ encodeInt pcSeq ++ "-".toList ++ name.toList := by
  rw [memRequestId, String.toList_append, String.toList_append, String.toList_append, toList_toString]

theorem requestId_mem (pcSeq : Int) {name : String} (h : Plain name.toList) : RequestId (memRequestId pcSeq name) := by
  constructor
  · rw [memRequestId_toList]
    exact plain_append (plain_append (plain_append (by decide) (plain_encodeInt pcSeq)) (by decide)) h
  · rw [memRequestId_toList]
    exact List.mem_append_left _ (List.mem_append_right _ (by decide))

theorem plain_of_memRequestId {name : String} (h : Plain (memRequestId pcSeq name).toList) : Plain name.toList := by
  rw [memRequestId_toList] at h
  exact (List.forall_mem_append.mp h).2

/-- What the handler finds in the line of a request that needs no escape. -/
theorem memRequestFields_unescaped {name : String}
    (h : Unescaped pcSeq name runtimePc (formatHex address)) (hshort : (memRequestId pcSeq name).toList.length < 128)
    (hsize : size < 2 ^ 32) :
    memRequestFields (memoryLine id pcSeq (memRequestId pcSeq name) runtimePc (formatHex address) size rest) =
      some ⟨pcSeq.toNat, (memRequestId pcSeq name).toList, runtimePc.toList, (formatHex address).toList, size⟩ := by
  have hrid := requestId_mem pcSeq h.plainName
  refine (memRequestFields_eq_some_iff _).mpr ⟨?_, ?_, ?_, ?_, ?_⟩
  · obtain ⟨tail, htail⟩ := extract_pcSeq .memRequest id pcSeq (memRequestId pcSeq name) runtimePc _
    exact htail.trans (scanUnsigned_encodeInt h.seqRange.1 h.seqRange.2 tail)
  · rw [memoryLine, extract_requestId, cut_plain hrid.plain, fit_eq_some hshort]
  · rw [memoryLine, extract_runtimePc _ _ _ _ _ _ (hrid.inert (by decide)), cut_plain h.plainPc,
      fit_eq_some h.pcFits]
  · rw [extract_address_plain hrid h.plainPc, cut_plain (plain_formatHex address), fit_eq_some h.addressFits]
  · have hpc : Inert "size" (escape runtimePc.toList) := by
      rw [escape_plain h.plainPc]
      exact ⟨not_mem_quote_of_plain h.plainPc, fun heq => h.notSize (String.toList_inj.mp heq)⟩
    obtain ⟨tail, htail⟩ := extract_size id pcSeq (hrid.inert (by decide)) hpc (inert_formatHex address) size rest
    refine htail.trans ?_
    rw [scanUnsigned_encodeInt (by omega) (by omega)]
    rfl

/-- A request whose fields the handler finds as they were written needs no escape. -/
theorem unescaped_of_memRequestFields {name : String} {f : MemRequestFields}
    (hfound : memRequestFields (memoryLine id pcSeq (memRequestId pcSeq name) runtimePc (formatHex address) size
      rest) = some f)
    (hseq : (f.pcSeq : Int) = pcSeq) (hid : String.ofList f.requestId = memRequestId pcSeq name)
    (hpc : String.ofList f.runtimePc = runtimePc) (haddress : String.ofList f.addressText = formatHex address) :
    Unescaped pcSeq name runtimePc (formatHex address) := by
  obtain ⟨hf, hfid, hfpc, hfaddress, hfsize⟩ := (memRequestFields_eq_some_iff f).mp hfound
  rw [memoryLine, extract_requestId] at hfid
  have hcut := (fit_inv hfid).1
  rw [← String.toList_inj, String.toList_ofList, hcut, cut_escape_eq_iff] at hid
  have hrid : RequestId (memRequestId pcSeq name) := requestId_mem pcSeq (plain_of_memRequestId hid)
  rw [memoryLine, extract_runtimePc _ _ _ _ _ _ (hrid.inert (by decide))] at hfpc
  obtain ⟨hpccut, -⟩ := fit_inv hfpc
  have hpcplain : Plain runtimePc.toList := by
    rw [← String.toList_inj, String.toList_ofList, hpccut, cut_escape_eq_iff] at hpc
    exact hpc
  refine ⟨plain_of_memRequestId hid, ⟨by omega, ?_⟩, hpcplain, ?_, ?_, ?_⟩
  · have hlt := extractUnsigned_lt hf
    omega
  · rw [← cut_plain hpcplain]
    exact (fit_inv hfpc).2
  · rintro rfl
    rw [extract_size_shadowed hrid] at hfsize
    cases hfsize
  · rw [← haddress, String.toList_ofList]
    exact extractString_length hfaddress

end fields

section answers
variable {f : MemRequestFields} {payload : Payload}

/-- IDA decodes an answer to the payload it was written from. -/
theorem responsePayload_encode {messageId : UInt32} (h : WellFormed (memResponseJson messageId payload)) :
    responsePayload (encode (memResponseJson messageId payload) ++ [Char.ofNat 10]) = some payload := by
  rw [responsePayload, decode_encode h (List.forall_mem_singleton.mpr (by decide))]
  rfl

/-- The correlation fields of an answer's payload. -/
theorem EchoesFields.get (h : EchoesFields f payload) :
    payload.get "pc_seq" = .int f.pcSeq ∧ payload.get "request_id" = .str (String.ofList f.requestId) ∧
      payload.get "runtime_pc" = .str (String.ofList f.runtimePc) ∧
      payload.get "address" = .str (String.ofList f.addressText) := by
  obtain ⟨ok, more, rfl⟩ := h
  exact ⟨rfl, rfl, rfl, rfl⟩

/-- A response with the current correlation fields finds its request. -/
theorem applyMemResponse_accepted {core : DayVarCore} {context : PcContext} (hcurrent : core.currentPc = some context)
    (hseq : payload.get "pc_seq" = .int context.pcSeq) (hpc : payload.get "runtime_pc" = .str context.runtimePc)
    {id : String} (hid : payload.get "request_id" = .str id) {q : PendingRequest}
    (hq : core.pendingRequests.get? id = some q) (hkind : q.kind = .mem) :
    (core.applyMemResponse payload).accepted = true := by
  have htake : core.takePendingResponse payload .mem =
      .ok (q, { core with pendingRequests := core.pendingRequests.pop id }) := by
    rw [DayVarCore.takePendingResponse, hcurrent]
    dsimp only
    rw [hseq, hpc, hid]
    simp [Json.asStr, hq, hkind]
  rw [DayVarCore.applyMemResponse, htake]

/-- The fields a stack argument's request ends with. -/
def stackArgFields (name : String) : Payload := [("reason", .str "stack_arg"), ("variable", .str name)]

/-- The line of a memory request as the extension takes it from the broker. -/
theorem answerPayload_eq (client : DebugClient) (messageId : UInt32) (id pcSeq : Int)
    (requestId runtimePc address : String)
    (size : Nat) (name : String) :
    ∃ rest, Printable (memoryLine id pcSeq requestId runtimePc address size rest) ∧
      answerPayload client messageId ⟨id, .memRequest, memoryPayload pcSeq requestId runtimePc address size
        (stackArgFields name)⟩ =
        (handleMemRequest client messageId (memoryLine id pcSeq requestId runtimePc address size rest)).bind
          responsePayload := by
  have hkeys : ["pc_seq", "request_id", "runtime_pc", "address", "size", "reason", "variable"].Nodup := by decide
  have hwf : WellFormed
    (envelopeJson ⟨id, .memRequest, memoryPayload pcSeq requestId runtimePc address size (stackArgFields name)⟩) :=
    wellFormed_envelope hkeys ⟨trivial, trivial, trivial, trivial, trivial, trivial, trivial, trivial⟩
  have hmore : stackArgFields name ≠ [] := List.cons_ne_nil _ _
  have hne : [("address", Json.str address), ("size", Json.int size)] ++ stackArgFields name ≠ [] :=
    List.cons_ne_nil _ _
  obtain ⟨rest, hrest⟩ := encodeFields_memory address size hmore
  have htext : encode (envelopeJson ⟨id, .memRequest, memoryPayload pcSeq requestId runtimePc address size
    (stackArgFields name)⟩) =
      memoryLine id pcSeq requestId runtimePc address size rest := by
    rw [memoryPayload, encode_request _ _ _ _ _ hne, hrest]
    rfl
  obtain ⟨hrelay, hreceived⟩ := relay_encodeMessage hwf
  refine ⟨rest, htext ▸ printable_encode _ hwf.floatFree, ?_⟩
  rw [answerPayload, hrelay, Option.bind_some, hreceived, htext]

/-- Correlation survives for a stack argument's request exactly when nothing in it needs an escape. -/
theorem correlates_iff (client : DebugClient) (messageId : UInt32) {core : DayVarCore} {context : PcContext}
    (hcurrent : core.currentPc = some context) (id address : Int) {size : Nat} (hsize : size < 2 ^ 32) {name : String}
    {q : PendingRequest} (hq : core.pendingRequests.get? (memRequestId context.pcSeq name) = some q)
    (hkind : q.kind = .mem)
    (hshort : (escape (memRequestId context.pcSeq name).toList).length < 128) :
    Correlates client messageId core ⟨id, .memRequest, memoryPayload context.pcSeq (memRequestId context.pcSeq name)
        context.runtimePc (formatHex address) size (stackArgFields name)⟩ ↔
      Unescaped context.pcSeq name context.runtimePc (formatHex address) := by
  obtain ⟨rest, hprintable, hanswer⟩ := answerPayload_eq client messageId id context.pcSeq
    (memRequestId context.pcSeq name) context.runtimePc (formatHex address) size name
  constructor
  · rintro ⟨answer, hpayload, hsame, -⟩
    obtain ⟨response, hhandled, hdecoded⟩ := Option.bind_eq_some_iff.mp (hanswer.symm.trans hpayload)
    obtain ⟨f, hf⟩ : ∃ f, memRequestFields (memoryLine id context.pcSeq (memRequestId context.pcSeq name)
        context.runtimePc (formatHex address) size rest) = some f := by
      rw [handleMemRequest] at hhandled
      split at hhandled
      · cases hhandled
      · exact ⟨_, ‹_›⟩
    obtain ⟨payload, hechoes, hwf, hwritten⟩ := handleMemRequest_answers messageId client hprintable hf
    have hresponse : responsePayload response = some payload := by
      rw [hhandled] at hwritten
      rw [Option.some.inj hwritten, responsePayload_encode hwf]
    obtain rfl := Option.some.inj (hdecoded.symm.trans hresponse)
    obtain ⟨hseq, hid, hpc, haddress⟩ := hechoes.get
    simp only [List.forall_mem_cons] at hsame
    obtain ⟨hsameid, hsamepc, hsameseq, hsameaddress, -⟩ := hsame
    exact unescaped_of_memRequestFields hf (Json.int.inj (hseq.symm.trans hsameseq))
      (Json.str.inj (hid.symm.trans hsameid)) (Json.str.inj (hpc.symm.trans hsamepc))
      (Json.str.inj (haddress.symm.trans hsameaddress))
  · intro h
    have hrid := requestId_mem context.pcSeq h.plainName
    rw [escape_plain hrid.plain] at hshort
    obtain ⟨payload, hechoes, hwf, hwritten⟩ := handleMemRequest_answers messageId client hprintable
      (memRequestFields_unescaped h hshort hsize)
    obtain ⟨hseq, hid, hpc, haddress⟩ := hechoes.get
    rw [Int.toNat_of_nonneg h.seqRange.1] at hseq
    rw [String.ofList_toList] at hid hpc haddress
    refine ⟨payload, ?_, ?_, applyMemResponse_accepted hcurrent hseq hpc hid hq hkind⟩
    · rw [hanswer, hwritten, Option.bind_some, responsePayload_encode hwf]
    · simp only [List.forall_mem_cons]
      exact ⟨hid, hpc, hseq, haddress, by rintro _ ⟨⟩⟩

end answers

/-- For every memory request the planner builds for a stack argument whose encoded id is shorter than
128 bytes, correlation survives the way to the extension and back exactly when no text of the
request needs an escape and its numbers fit the extension's. -/
theorem stack_argument_correlation (ops : List DayVarCore.Op) (payload : Payload) (client : DebugClient)
    (messageId : UInt32) (message : Envelope)
    (hmessage : message ∈ ((({} : DayVarCore).run ops).applyRegResponse payload).memRequests)
    (hshort : ∀ requestId, message.payload.get "request_id" = .str requestId → (escape requestId.toList).length < 128) :
    Correlates client messageId ((({} : DayVarCore).run ops).applyRegResponse payload).core message ↔
      ∃ pcSeq name runtimePc address, message.payload.get "pc_seq" = .int pcSeq ∧
        message.payload.get "variable" = .str name ∧ message.payload.get "runtime_pc" = .str runtimePc ∧
        message.payload.get "address" = .str address ∧ Unescaped pcSeq name runtimePc address := by
  have hstart : DayVarCore.CurrentRequests {} := DayVarCore.currentRequests_of_empty rfl
  have hcurrent := DayVarCore.run_currentRequests hstart ops
  obtain ⟨-, hreads⟩ := DayVarCore.applyRegResponse_reads hcurrent payload
  obtain ⟨context, hcontext, ⟨id, address, width, name, hwidth, rfl, q, hq, hkind⟩⟩ := hreads message hmessage
  have hwidths : ∀ width ∈ supportedWidths, width ≤ 8 := by decide
  have hsmall := hwidths width hwidth
  have hiff := correlates_iff client messageId hcontext id address (by omega : width < 2 ^ 32) hq hkind (hshort _ rfl)
  refine hiff.trans ⟨fun h => ⟨_, _, _, _, rfl, rfl, rfl, rfl, h⟩, ?_⟩
  rintro ⟨_, _, _, _, ⟨⟩, ⟨⟩, ⟨⟩, ⟨⟩, h⟩
  exact h

/-- A fifth argument of this name at function entry. -/
def fifthArgument (name : String) : DayVarCore.Op :=
  .buildEntryPlan [{ lvarIndex := 0, name := name, size := 8, isArg := true, argIndex := some 4 }]
    { pcSeq := 1, runtimePc := "0x401000", idaEa := "0x401000", atFunctionEntry := true }

def entryRegistersReply : Payload :=
  [("pc_seq", .int 1), ("request_id", .str "reg-1-entry"), ("ok", .bool true),
    ("registers", .obj [("rsp", .str "0x2000")])]

/-- The request of the fifth argument. -/
def fifthArgumentRequest (name : String) : Envelope :=
  ⟨2, .memRequest, memoryPayload 1 (memRequestId 1 name) "0x401000" (formatHex 0x2028) 8 (stackArgFields name)⟩

theorem stack_argument_correlation_fifth :
    Correlates (some fun _ size => .actual (List.replicate size 0)) 7
      ((({} : DayVarCore).run [fifthArgument "a5"]).applyRegResponse entryRegistersReply).core
      (fifthArgumentRequest "a5") := by
  refine (stack_argument_correlation [fifthArgument "a5"] entryRegistersReply _ 7 _ (List.mem_singleton.mpr rfl) ?_).mpr
    ⟨1, "a5", "0x401000", formatHex 0x2028, rfl, rfl, rfl, rfl,
      ⟨by decide, by decide, by decide, by decide, by decide, by decide⟩⟩
  rintro _ ⟨⟩
  decide

/-- A name with a letter beyond ASCII comes back with its escapes in it. -/
theorem accented_name_not_correlated :
    ¬ ∀ (ops : List DayVarCore.Op) (payload : Payload) (client : DebugClient) (messageId : UInt32) (message : Envelope),
      message ∈ ((({} : DayVarCore).run ops).applyRegResponse payload).memRequests →
      (∀ requestId, message.payload.get "request_id" = .str requestId → (escape requestId.toList).length < 128) →
      Correlates client messageId ((({} : DayVarCore).run ops).applyRegResponse payload).core message := by
  intro h
  have hshort : (escape (memRequestId 1 "größe").toList).length < 128 := by decide
  have hcorrelates := h [fifthArgument "größe"] entryRegistersReply none 7 (fifthArgumentRequest "größe")
    (List.mem_singleton.mpr rfl) (by rintro _ ⟨⟩; exact hshort)
  have hcurrent : ((({} : DayVarCore).run [fifthArgument "größe"]).applyRegResponse
    entryRegistersReply).core.currentPc =
      some { pcSeq := 1, runtimePc := "0x401000", idaEa := "0x401000", atFunctionEntry := true } := rfl
  have hiff := correlates_iff none 7 hcurrent 2 0x2028 (by decide : 8 < 2 ^ 32) rfl rfl hshort
  exact absurd (hiff.mp hcorrelates).plainName (by decide)

end DynvarSync.Windbg
