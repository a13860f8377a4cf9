import DynvarSync.Ida.VRecoveryMachine
import DynvarSync.Session.Freshness
import DynvarSync.Windbg.RequestDecoding
import DynvarSync.Windbg.ResponseBuffers

/-! The extension over a debuggee whose registers and memory are those of a machine:
a request of the recovery engine comes back to IDA as the answer of the machine. -/
namespace DynvarSync.Session
open Lib PyText CText JsonText Ida Windbg VVariableRecovery

/-- The debugger engine reads the registers and the memory of this machine. -/
structure Shows (d : Debuggee) (m : Machine) : Prop where
  registers : ∃ read, d.registers = some (.values read) ∧ ∀ name ∈ fullRegisterOrder, ∃ value,
    read name.toList = some value ∧ (debugValueToU64 value).toBitVec = m.registers name
  memory : ∃ engine, d.memory = some engine ∧ ∀ address size, engine address size = .actual (m.readMemory address size)

/-- What the machine answers to a request of the recovery engine. -/
def machineReply (m : Machine) (request : Request) : Payload :=
  if request.type = .regRequest then m.regResponse request.payload else m.memResponse request.payload

/-- The type of the answer. -/
def replyType (request : Request) : String := if request.type = .regRequest then "reg_response" else "mem_response"

/-- The line a request is sent in. -/
def requestLineOf (id : Int) (request : Request) : List Char :=
  encodeMessage (envelopeJson ⟨id, request.type, request.payload⟩)

/-- A request of the recovery engine whose numbers and texts the extension has room for. -/
inductive Askable : Request → Prop
  | reg {pcSeq : Int} {runtimePc : String} {registers : List String} (reason : String) (hlow : 0 ≤ pcSeq)
      (hhigh : pcSeq < 2 ^ 32) (hpc : HexText runtimePc) (hregisters : RequestRegisters registers) :
      Askable ⟨.regRequest, correlationFields pcSeq (vRegRequestId pcSeq) runtimePc ++
        [("registers", .arr (registers.map .str)), ("reason", .str reason)]⟩
  | mem {pcSeq i : Int} {runtimePc : String} {address width : Nat} (reason name : String) (hlow : 0 ≤ pcSeq)
      (hhigh : pcSeq < 2 ^ 32) (hpc : HexText runtimePc) (haddress : address < 2 ^ 64)
      (hwidth : width ∈ supportedWidths) (hshort : (vMemRequestId pcSeq i).toList.length < 128) :
      Askable ⟨.memRequest, memoryPayload pcSeq (vMemRequestId pcSeq i) runtimePc (formatHex address) width
        [("reason", .str reason), ("variable", .str name), ("lvar_index", .int i)]⟩

/-- A line that IDA reads as the machine's answer to a request. -/
def Replies (m : Machine) (line : List UInt8) (request : Request) : Prop :=
  ∃ message, readMessage line = some message ∧ message.get "type" = .str (replyType request) ∧
    message.getD "payload" (.obj []) = .obj (machineReply m request)

/-- The broker hands on what it was sent. -/
theorem delivered_received {message : Envelope} (h : WellFormed (envelopeJson message)) {P : List Char → Prop}
    (hdelivered : Delivered message P) : P (receivedText (encodeMessage (envelopeJson message))) := by
  obtain ⟨line, hrelay, hP⟩ := hdelivered
  rw [(relay_encodeMessage h).1] at hrelay
  rwa [Option.some.inj hrelay]

section registers
variable {m : Machine} {read : List Char → Option DebugValue}

theorem supported_of_known {register : String} (h : register ∈ fullRegisterOrder) :
    isSupportedRegisterName register.toList = true := by
  have hall : ∀ register ∈ fullRegisterOrder, isSupportedRegisterName register.toList = true := by decide
  exact hall register h

/-- The values read are the machine's. -/
theorem registerFields_machine
    (hread : ∀ name ∈ fullRegisterOrder, ∃ value, read name.toList = some value ∧
      (debugValueToU64 value).toBitVec = m.registers name)
    {names : List String} (hknown : ∀ name ∈ names, name ∈ fullRegisterOrder) :
    registerFields ((names.map String.toList).map (readRegister read)) = m.registerTexts names := by
  induction names with
  | nil => rfl
  | cons name names ih =>
    obtain ⟨hname, hmore⟩ := List.forall_mem_cons.mp hknown
    obtain ⟨value, hvalue, hbits⟩ := hread name hname
    have hturn : readRegister read name.toList =
        { name := name.toList, value := debugValueToU64 value, ok := true } := by
      rw [readRegister, supported_of_known hname, hvalue]
      rfl
    have htext : (debugValueToU64 value).toNat = (m.registers name).toNat := congrArg BitVec.toNat hbits
    rw [List.map_cons, List.map_cons, hturn, registerFields_cons rfl, ih hmore]
    dsimp only
    rw [String.ofList_toList, htext]
    rfl

end registers

section answers
variable {d : Debuggee} {m : Machine}

/-- The extension answers a register request as the machine does. -/
theorem regRequest_replied (hshows : Shows d m) (id : Int) (messageId : UInt32) {pcSeq : Int} {runtimePc : String}
    {registers : List String} (reason : String) (hlow : 0 ≤ pcSeq) (hhigh : pcSeq < 2 ^ 32) (hpc : HexText runtimePc)
    (hregisters : RequestRegisters registers) :
    let request : Request := ⟨.regRequest, correlationFields pcSeq (vRegRequestId pcSeq) runtimePc ++
      [("registers", .arr (registers.map .str)), ("reason", .str reason)]⟩
    ∃ answer, handleIncomingMessage d messageId (receivedText (requestLineOf id request)) = some answer ∧
      Replies m (toBytes answer) request := by
  intro request
  have hwf : WellFormed (envelopeJson ⟨id, request.type, request.payload⟩) :=
    wellFormed_envelope (by simp [request, correlationFields])
      ⟨trivial, trivial, trivial, wellFormedItems_str registers, trivial, trivial⟩
  have hreads := delivered_received hwf (regRequest_read id hlow hhigh (requestId_vReg pcSeq)
    (length_regRequestIds hlow hhigh).2 hpc hregisters reason)
  rw [requestLineOf]
  generalize receivedText (encodeMessage (envelopeJson ⟨id, request.type, request.payload⟩)) = text at hreads ⊢
  obtain ⟨n, hn, hseq⟩ := hreads.pcSeq
  obtain ⟨requestId, hidText, hid⟩ := hreads.requestId
  obtain ⟨pcText, hpcText, hruntime⟩ := hreads.runtimePc
  obtain ⟨names, hnamesText, hnames⟩ := hreads.registers
  cases hn
  cases hidText
  cases hpcText
  obtain rfl : names = registers := by
    have hitems : names.map Json.str = registers.map Json.str := (Json.arr.inj hnamesText).symm
    exact List.map_injective_iff.mpr (fun _ _ h => Json.str.inj h) hitems
  have htype : requestType text = some .reg := by
    rw [requestType, hreads.type]
    rfl
  have hfields : regRequestFields text =
      some ⟨n, (vRegRequestId n).toList, runtimePc.toList, names.map String.toList⟩ :=
    (regRequestFields_eq_some_iff _).mpr ⟨hseq, hid, hruntime, hnames⟩
  obtain ⟨read, hread, hmachine⟩ := hshows.registers
  have hroom : names.length ≤ maxRegisterValues := Nat.le_trans hregisters.length_le (by decide)
  have hvalues : readRegisters d.registers (names.map String.toList) =
      .ok ((names.map String.toList).map (readRegister read)) := by
    rw [hread, readRegisters, List.take_of_length_le (by rwa [List.length_map])]
  have htexts := registerFields_machine hmachine hregisters.known
  have hplain := readRegisters_plain hvalues
  obtain ⟨answer, hanswer⟩ := handleRegRequest_fits messageId hfields hvalues
  refine ⟨answer, ?_, ?_⟩
  · rw [handleIncomingMessage, htype]
    exact hanswer
  · rw [handleRegRequest, hfields] at hanswer
    simp only [hvalues] at hanswer
    rw [writeRegResponse_eq messageId n (requestId_vReg n).plain.printable hpc.plain.printable hplain] at hanswer
    rw [(fit_inv hanswer).1]
    have hformed : WellFormed (regResponseJson messageId (regResponsePayload n (vRegRequestId n).toList
        runtimePc.toList ((names.map String.toList).map (readRegister read)))) := by
      have hkeys : ["protocol", "id", "type", "role", "payload"].Nodup := by decide
      have hpayload : ["pc_seq", "request_id", "runtime_pc", "ok", "registers"].Nodup := by decide
      refine ⟨hkeys, trivial, trivial, trivial, trivial, ⟨hpayload, trivial, trivial, trivial, trivial, ⟨?_, ?_⟩,
        trivial⟩, trivial⟩
      · rw [htexts, Machine.registerTexts, List.map_map]
        exact (List.map_id' names).symm ▸ hregisters.nodup
      · exact wellFormed_registerFields _
    refine ⟨_, readMessage_encode hformed.floatFree hformed.normalize_eq, rfl, ?_⟩
    have hreply : machineReply m request = regResponsePayload n (vRegRequestId n).toList runtimePc.toList
        ((names.map String.toList).map (readRegister read)) := by
      have hasked : Machine.requestedRegisters request.payload = names := by
        rw [Machine.requestedRegisters]
        exact Machine.filterMap_asStr_map names
      rw [machineReply, if_pos rfl, Machine.regResponse, hasked, regResponsePayload, htexts, String.ofList_toList,
        String.ofList_toList]
      rfl
    rw [hreply]
    rfl

/-- The extension answers a memory request as the machine does. -/
theorem memRequest_replied (hshows : Shows d m) (id : Int) (messageId : UInt32) {pcSeq i : Int} {runtimePc : String}
    {address width : Nat} (reason name : String) (hlow : 0 ≤ pcSeq) (hhigh : pcSeq < 2 ^ 32) (hpc : HexText runtimePc)
    (haddress : address < 2 ^ 64) (hwidth : width ∈ supportedWidths)
    (hshort : (vMemRequestId pcSeq i).toList.length < 128) :
    let request : Request := ⟨.memRequest, memoryPayload pcSeq (vMemRequestId pcSeq i) runtimePc (formatHex address)
      width [("reason", .str reason), ("variable", .str name), ("lvar_index", .int i)]⟩
    ∃ answer, handleIncomingMessage d messageId (receivedText (requestLineOf id request)) = some answer ∧
      Replies m (toBytes answer) request := by
  intro request
  have hkeys : (["pc_seq", "request_id", "runtime_pc", "address", "size"] ++
    ["reason", "variable", "lvar_index"]).Nodup := by decide
  have hmore : WellFormedFields [("reason", .str reason), ("variable", .str name), ("lvar_index", .int i)] :=
    ⟨trivial, trivial, trivial, trivial⟩
  have hwf : WellFormed (envelopeJson ⟨id, request.type, request.payload⟩) :=
    wellFormed_envelope hkeys ⟨trivial, trivial, trivial, trivial, trivial, hmore⟩
  have hreads := delivered_received hwf (memRequest_read id hlow hhigh (requestId_vMem pcSeq i) hshort hpc haddress
    hwidth (List.cons_ne_nil _ _) hmore hkeys)
  rw [requestLineOf]
  have hprintable : Printable (receivedText (encodeMessage (envelopeJson ⟨id, request.type, request.payload⟩))) := by
    rw [(relay_encodeMessage hwf).2]
    exact printable_encode _ hwf.floatFree
  generalize receivedText (encodeMessage (envelopeJson ⟨id, request.type, request.payload⟩)) = text
    at hreads hprintable ⊢
  obtain ⟨n, hn, hseq⟩ := hreads.pcSeq
  obtain ⟨requestId, hidText, hid⟩ := hreads.requestId
  obtain ⟨pcText, hpcText, hruntime⟩ := hreads.runtimePc
  obtain ⟨addressText, number, haddressText, hnumber, hextracted, hscanned⟩ := hreads.address
  obtain ⟨size, hsizeText, hsize⟩ := hreads.size
  cases hn
  cases hidText
  cases hpcText
  cases haddressText
  obtain rfl : width = size := Int.ofNat.inj (Json.int.inj hsizeText)
  obtain rfl : address = number := by
    rw [intAuto_formatHex] at hnumber
    exact Int.ofNat.inj (Option.some.inj hnumber)
  have hwidths : ∀ width ∈ supportedWidths, 0 < width ∧ width ≤ maxMemoryReadSize := by decide
  obtain ⟨hpositive, hsmall⟩ := hwidths width hwidth
  have htype : requestType text = some .mem := by
    rw [requestType, hreads.type]
    rfl
  have hfields : memRequestFields text = some ⟨n, (vMemRequestId n i).toList, runtimePc.toList,
      (formatHex address).toList, width⟩ :=
    (memRequestFields_eq_some_iff _).mpr ⟨hseq, hid, hruntime, hextracted, hsize⟩
  obtain ⟨engine, hengine, hmachine⟩ := hshows.memory
  have hread : readVirtualMemory d.memory address width = .ok (m.readMemory address width) := by
    rw [hengine, readVirtualMemory, if_neg (by omega), hmachine]
    dsimp only
    rw [if_neg (fun hne => hne (m.readMemory_length address width))]
  have hbounded := memRequestFields_bounded hprintable hfields
  have hlength : (m.readMemory address width).length ≤ 4096 := by
    rw [m.readMemory_length]
    exact hsmall
  have hhandled : handleMemRequest d.memory messageId text = writeMemResponse messageId n (vMemRequestId n i).toList
      runtimePc.toList (formatHex address).toList width (m.readMemory address width) := by
    rw [handleMemRequest, hfields]
    dsimp only
    rw [hscanned]
    dsimp only
    rw [if_neg (by omega), hread]
  obtain ⟨answer, hanswer⟩ := memResponse_fits messageId hbounded.pcSeq hbounded.size hbounded.requestId.2
    hbounded.runtimePc.2 hbounded.addressText.2 hlength
  refine ⟨answer, ?_, ?_⟩
  · rw [handleIncomingMessage, htype]
    exact hhandled.trans hanswer
  · rw [writeMemResponse_eq messageId n width (requestId_vMem n i).plain.printable hpc.plain.printable
      (hexText_formatHex haddress).plain.printable] at hanswer
    rw [(fit_inv hanswer).1]
    have hformed : WellFormed (memResponseJson messageId (echoedFields n (vMemRequestId n i).toList runtimePc.toList
        true (formatHex address).toList width ++ [("bytes_hex", .str (toHex (m.readMemory address width)))])) :=
      wellFormed_memResponse messageId (f := ⟨n, (vMemRequestId n i).toList, runtimePc.toList,
        (formatHex address).toList, width⟩) (by decide) trivial
    refine ⟨_, readMessage_encode hformed.floatFree hformed.normalize_eq, rfl, ?_⟩
    have hreply : machineReply m request = echoedFields n (vMemRequestId n i).toList runtimePc.toList true
        (formatHex address).toList width ++ [("bytes_hex", .str (toHex (m.readMemory address width)))] := by
      have haddressAsked : Machine.requestedAddress request.payload = address := by
        have htext : request.payload.get "address" = .str (formatHex address) := rfl
        rw [Machine.requestedAddress, htext, Json.asStr, Option.bind_some, intAuto_formatHex]
        rfl
      have hsizeAsked : Machine.requestedSize request.payload = width := rfl
      have htypes : MessageType.memRequest ≠ MessageType.regRequest := by decide
      rw [machineReply, if_neg htypes, Machine.memResponse, haddressAsked, hsizeAsked, echoedFields,
        String.ofList_toList, String.ofList_toList, String.ofList_toList]
      rfl
    rw [hreply]
    rfl

end answers

/-- The extension answers every request of the recovery engine as the machine does. -/
theorem askable_replied {d : Debuggee} {m : Machine} (hshows : Shows d m) (id : Int) (messageId : UInt32)
    {request : Request} (h : Askable request) :
    ∃ answer, handleIncomingMessage d messageId (receivedText (requestLineOf id request)) = some answer ∧
      Replies m (toBytes answer) request := by
  cases h with
  | reg reason hlow hhigh hpc hregisters => exact regRequest_replied hshows id messageId reason hlow hhigh hpc hregisters
  | mem reason name hlow hhigh hpc haddress hwidth hshort =>
    exact memRequest_replied hshows id messageId reason name hlow hhigh hpc haddress hwidth hshort

end DynvarSync.Session
