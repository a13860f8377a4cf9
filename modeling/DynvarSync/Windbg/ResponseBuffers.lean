import DynvarSync.Windbg.RegisterHandler

/-! The sizes of the buffers the handlers write their answers into: whatever bytes the fields
of a request are, its answer fits. -/
namespace DynvarSync.Windbg
open Lib PyText CText JsonText

/-- `DvsHandleMemRequest`, over the result of its read. -/
def answerMemRequest (read : Nat → Nat → Except String (List UInt8)) (messageId : UInt32) (line : List Char) :
    Option (List Char) :=
  match memRequestFields line with
  | none => none
  | some f =>
    match extractJsonU64StringField line "address" with
    | none => sendMemErrorResponse messageId f "invalid_address" "invalid memory read address"
    | some address =>
      if f.size = 0 ∨ maxMemoryReadSize < f.size then
        sendMemErrorResponse messageId f "invalid_size" "invalid memory read size"
      else match read address f.size with
        | .error message => sendMemErrorResponse messageId f "read_failed" message
        | .ok bytes => writeMemResponse messageId f.pcSeq f.requestId f.runtimePc f.addressText f.size bytes

theorem handleMemRequest_eq (client : DebugClient) (messageId : UInt32) (line : List Char) :
    handleMemRequest client messageId line = answerMemRequest (readVirtualMemory client) messageId line := rfl

section lengths

theorem length_formatHexPadded (n : UInt64) : (formatHexPadded 16 n.toNat).toList.length = 18 := by
  have hdigits : (Nat.toDigits 16 n.toNat).length ≤ 16 :=
    (Nat.length_toDigits_le_iff (by decide) (by decide)).mpr n.toNat_lt
  simp [formatHexPadded]
  omega

/-- A register that was read has a name of three characters at most. -/
theorem length_supportedName {name : List Char} (h : isSupportedRegisterName name = true) : name.length ≤ 3 := by
  have hsupported : ∀ supported ∈ supportedRegisters, supported.toList.length ≤ 3 := by decide
  obtain ⟨supported, hmem, hequal⟩ := List.any_eq_true.mp h
  rw [asciiEqualNoCase, decide_eq_true_eq] at hequal
  have hlength := congrArg List.length hequal
  rw [List.length_map, List.length_map] at hlength
  rw [hlength]
  exact hsupported supported hmem

theorem length_registerPieces {values : List RegisterValue} (h : ∀ v ∈ values, v.ok = true → v.name.length ≤ 3)
    (first : Bool) : (registerPieces first values).flatten.length ≤ 27 * values.length := by
  induction values generalizing first with
  | nil => exact le_rfl
  | cons v values ih =>
    obtain ⟨hv, hmore⟩ := List.forall_mem_cons.mp h
    rw [registerPieces, List.length_cons]
    cases hok : v.ok with
    | false =>
      have hrest := ih hmore first
      rw [Bool.not_false, if_pos rfl]
      omega
    | true =>
      have hrest := ih hmore false
      have hname := hv hok
      have hvalue := length_formatHexPadded v.value
      have hcomma : (if first = true then ([] : List Char) else [',']).length ≤ 1 := by cases first <;> decide
      rw [Bool.not_true, if_neg (by decide), List.flatten_cons]
      simp only [List.length_append, List.length_cons, List.length_nil]
      omega

/-- Every name that was asked for has one value, and the values that were read have short names. -/
theorem readRegisters_short {client : Option EngineRegisters} {names : List (List Char)} {values : List RegisterValue}
    (h : readRegisters client names = .ok values) :
    values.length ≤ maxRegisterValues ∧ ∀ v ∈ values, v.ok = true → v.name.length ≤ 3 := by
  refine ⟨?_, fun v hv hok => length_supportedName (readRegisters_supported h v hv hok)⟩
  rw [readRegisters.eq_def] at h
  split at h
  · cases h
  · cases h
  · cases h
    rw [List.length_map]
    exact List.length_take_le ..

end lengths

section buffers
variable (messageId : UInt32) {pcSeq size : Nat} {requestId runtimePc address : List Char}

theorem regResponse_fits (hseq : pcSeq < 2 ^ 32) (hid : requestId.length < 128) (hpc : runtimePc.length < 64)
    {values : List RegisterValue} (hcount : values.length ≤ maxRegisterValues)
    (hnames : ∀ v ∈ values, v.ok = true → v.name.length ≤ 3) :
    ∃ text, writeRegResponse messageId pcSeq requestId runtimePc values = some text := by
  have hidlength := length_escapedPieces (takes_six requestId)
  have hpclength := length_escapedPieces (takes_six runtimePc)
  have hmessage := length_unsignedText_le messageId.toNat_lt
  have hseqlength := length_unsignedText_le hseq
  have hregisters := length_registerPieces hnames true
  have hopening : "\x7b\"protocol\":1,\"id\":".toList.length = 19 := by decide
  have hheader : ",\"type\":\"reg_response\",\"role\":\"windbg\",\"payload\":\x7b\"pc_seq\":".toList.length = 59 := by
    decide
  have hrid : ",\"request_id\":".toList.length = 14 := by decide
  have hrpc : ",\"runtime_pc\":".toList.length = 14 := by decide
  have hok : ",\"ok\":true,\"registers\":\x7b".toList.length = 24 := by decide
  have hclose : "\x7d\x7d\x7d".toList.length = 3 := by decide
  rw [maxRegisterValues] at hcount
  refine appendAll_fits ?_
  simp only [List.flatten_append, List.flatten_cons, List.flatten_nil, List.length_append, List.length_nil,
    List.length_cons, regJsonBufferSize]
  omega

end buffers

section handlers

/-- What a read may come back with: no more bytes than a read may have, or a plain text. -/
structure PlainReads (read : Nat → Nat → Except String (List UInt8)) : Prop where
  bytes : ∀ address size bytes, read address size = .ok bytes → bytes.length ≤ maxMemoryReadSize
  message : ∀ address size message, read address size = .error message →
    Plain message.toList ∧ message.toList.length ≤ 255

theorem plainReads_readVirtualMemory (client : DebugClient) : PlainReads (readVirtualMemory client) :=
  ⟨fun _ _ _ h => readVirtualMemory_ok h, fun _ _ _ h => readVirtualMemory_error h⟩

theorem handleRegRequest_fits (messageId : UInt32) {line : List Char} {f : RegRequestFields}
    {client : Option EngineRegisters} {values : List RegisterValue} (hf : regRequestFields line = some f)
    (hvalues : readRegisters client f.names = .ok values) :
    ∃ text, handleRegRequest client messageId line = some text := by
  obtain ⟨hseq, hid, hpc, -⟩ := (regRequestFields_eq_some_iff f).mp hf
  obtain ⟨hcount, hnames⟩ := readRegisters_short hvalues
  rw [handleRegRequest, hf]
  simp only [hvalues]
  exact regResponse_fits messageId (extractUnsigned_lt hseq) (extractString_length hid) (extractString_length hpc)
    hcount hnames

theorem answerMemRequest_fits (messageId : UInt32) {line : List Char} {f : MemRequestFields}
    {read : Nat → Nat → Except String (List UInt8)} (hf : memRequestFields line = some f) (hread : PlainReads read) :
    ∃ text, answerMemRequest read messageId line = some text := by
  obtain ⟨hseq, hid, hpc, haddress, hsize⟩ := (memRequestFields_eq_some_iff f).mp hf
  have hidlength := extractString_length hid
  have hpclength := extractString_length hpc
  have haddresslength := extractString_length haddress
  have herror (code message : String) (hcode : Plain code.toList ∧ code.toList.length ≤ 15)
      (hmessage : Plain message.toList ∧ message.toList.length ≤ 255) :
      ∃ text, sendMemErrorResponse messageId f code message = some text :=
    memErrorResponse_fits messageId (extractUnsigned_lt hseq) (extractUnsigned_lt hsize) (takes_six _) (takes_six _)
      (takes_six _) hcode.1 hcode.2 (takes_one hmessage.1) (by omega)
  have hcodes : (Plain "invalid_address".toList ∧ "invalid_address".toList.length ≤ 15) ∧
      (Plain "invalid_size".toList ∧ "invalid_size".toList.length ≤ 15) ∧
      (Plain "read_failed".toList ∧ "read_failed".toList.length ≤ 15) := by decide
  rw [answerMemRequest, hf]
  dsimp only
  split
  · exact herror _ _ hcodes.1 (by decide)
  · rename_i address _
    split
    · exact herror _ _ hcodes.2.1 (by decide)
    · cases hresult : read address f.size with
      | error message => exact herror _ _ hcodes.2.2 (hread.message address f.size message hresult)
      | ok bytes =>
        exact memResponse_fits messageId (extractUnsigned_lt hseq) (extractUnsigned_lt hsize) hidlength hpclength
          haddresslength (hread.bytes address f.size bytes hresult)

/-- A request whose fields are extracted is answered, whatever its bytes and whatever the read comes back with. -/
theorem accepted_requests_fit (messageId : UInt32) (line : List Char) :
    (∀ f client values, regRequestFields line = some f → readRegisters client f.names = .ok values →
      ∃ text, handleRegRequest client messageId line = some text) ∧
    (∀ f read, memRequestFields line = some f → PlainReads read →
      ∃ text, answerMemRequest read messageId line = some text) ∧
    (∀ f client, memRequestFields line = some f → ∃ text, handleMemRequest client messageId line = some text) := by
  refine ⟨fun f client values hf hvalues => handleRegRequest_fits messageId hf hvalues,
    fun f read hf hread => answerMemRequest_fits messageId hf hread, fun f client hf => ?_⟩
  rw [handleMemRequest_eq]
  exact answerMemRequest_fits messageId hf (plainReads_readVirtualMemory client)

theorem accepted_requests_fit_short : ∃ text, handleMemRequest (some fun _ _ => .actual [1, 2, 3, 4]) 7
    "\x7b\"pc_seq\":1,\"request_id\":\"r\",\"runtime_pc\":\"0\",\"address\":\"0x10\",\"size\":4\x7d".toList = some
    text :=
  (accepted_requests_fit 7 _).2.2 ⟨1, ['r'], ['0'], "0x10".toList, 4⟩ _ (by rfl)

end handlers
end DynvarSync.Windbg
