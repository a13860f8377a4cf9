import DynvarSync.Windbg.JsonWriter

/-! The extension's handler of a memory request: the fields it takes out of the line, the
read it makes of the debugged process, and the answer it writes. -/
namespace DynvarSync.Windbg
open Lib PyText CText JsonText

/-- `DVS_MAX_MEMORY_READ_SIZE`. -/
def maxMemoryReadSize : Nat := 4096

/-- What the debugger engine does on a read of an address and a size. -/
inductive EngineRead where
  | noDataSpaces (hr : UInt32)
  | failed (hr : UInt32)
  | actual (bytes : List UInt8)

/-- The engine behind a client pointer; a null pointer has none. -/
abbrev DebugClient := Option (Nat → Nat → EngineRead)

/-- `DvsSetDbgEngLastError`. -/
def lastErrorText (message : String) (hr : UInt32) : String := message ++ " hr=" ++ formatHexPadded 8 hr.toNat

/-- The bytes read, or the text of `DvsDbgEngLastError`. -/
def readVirtualMemory (client : DebugClient) (address size : Nat) : Except String (List UInt8) :=
  match client with
  | none => .error "invalid memory read arguments"
  | some engine =>
    if size = 0 ∨ maxMemoryReadSize < size then .error "invalid memory read size"
    else match engine address size with
      | .noDataSpaces hr => .error (lastErrorText "QueryInterface(IDebugDataSpaces) failed" hr)
      | .failed hr => .error (lastErrorText "IDebugDataSpaces::ReadVirtual failed" hr)
      | .actual bytes => if bytes.length ≠ size then .error "partial memory read" else .ok bytes

/-- The fields `DvsHandleMemRequest` takes out of its line. -/
structure MemRequestFields where
  pcSeq : Nat
  requestId : List Char
  runtimePc : List Char
  addressText : List Char
  size : Nat

def memRequestFields (line : List Char) : Option MemRequestFields :=
  (extractJsonUnsignedField line "pc_seq").bind fun pcSeq =>
  (extractJsonStringField line "request_id" 128).bind fun requestId =>
  (extractJsonStringField line "runtime_pc" 64).bind fun runtimePc =>
  (extractJsonStringField line "address" 64).bind fun addressText =>
  (extractJsonUnsignedField line "size").map fun size => ⟨pcSeq, requestId, runtimePc, addressText, size⟩

/-- `DvsSendMemErrorResponse`. -/
def sendMemErrorResponse (messageId : UInt32) (f : MemRequestFields) (code message : String) : Option (List Char) :=
  writeMemErrorResponse messageId f.pcSeq f.requestId f.runtimePc f.addressText f.size code message

/-- The answer sent for a memory request, if one is sent. -/
def handleMemRequest (client : DebugClient) (messageId : UInt32) (line : List Char) : Option (List Char) :=
  match memRequestFields line with
  | none => none
  | some f =>
    match extractJsonU64StringField line "address" with
    | none => sendMemErrorResponse messageId f "invalid_address" "invalid memory read address"
    | some address =>
      if f.size = 0 ∨ maxMemoryReadSize < f.size then
        sendMemErrorResponse messageId f "invalid_size" "invalid memory read size"
      else match readVirtualMemory client address f.size with
        | .error message => sendMemErrorResponse messageId f "read_failed" message
        | .ok bytes => writeMemResponse messageId f.pcSeq f.requestId f.runtimePc f.addressText f.size bytes

section extraction
variable {line : List Char} {field : String}

theorem extractString_printable (h : Printable line) {outSize : Nat} {text : List Char}
    (htext : extractJsonStringField line field outSize = some text) : Printable text := by
  rw [extractJsonStringField] at htext
  split at htext
  · rename_i c start hvalue
    obtain ⟨pos, hpos, hcolon⟩ := Option.bind_eq_some_iff.mp hvalue
    obtain ⟨colon, hchr, hstart⟩ := Option.map_eq_some_iff.mp hcolon
    have hsuffix : c :: start <:+ line := by
      have hskip : c :: start <:+ colon.tail := hstart ▸ List.dropWhile_suffix _
      exact hskip.trans ((List.tail_suffix _).trans ((strchr_suffix hchr).trans
        ((List.drop_suffix _ _).trans (strstr_suffix hpos))))
    split at htext
    · obtain ⟨rfl, -⟩ := fit_inv htext
      intro d hd
      exact h d (hsuffix.subset (List.mem_cons_of_mem _ ((List.takeWhile_prefix _).subset hd)))
    · cases htext
  · cases htext

theorem extractString_length {outSize : Nat} {text : List Char}
    (htext : extractJsonStringField line field outSize = some text) : text.length < outSize := by
  rw [extractJsonStringField] at htext
  split at htext
  · split at htext
    · obtain ⟨rfl, hlength⟩ := fit_inv htext
      exact hlength
    · cases htext
  · cases htext

theorem extractUnsigned_lt {n : Nat} (h : extractJsonUnsignedField line field = some n) : n < 2 ^ 32 := by
  obtain ⟨value, -, hn⟩ := Option.bind_eq_some_iff.mp h
  exact scanUnsigned_lt hn

/-- Fields that the answer's buffer has room for. -/
structure MemRequestFields.Bounded (f : MemRequestFields) : Prop where
  pcSeq : f.pcSeq < 2 ^ 32
  size : f.size < 2 ^ 32
  requestId : Printable f.requestId ∧ f.requestId.length < 128
  runtimePc : Printable f.runtimePc ∧ f.runtimePc.length < 64
  addressText : Printable f.addressText ∧ f.addressText.length < 64

/-- The handler's fields, one by one. -/
theorem memRequestFields_eq_some_iff (f : MemRequestFields) :
    memRequestFields line = some f ↔
      extractJsonUnsignedField line "pc_seq" = some f.pcSeq ∧
      extractJsonStringField line "request_id" 128 = some f.requestId ∧
      extractJsonStringField line "runtime_pc" 64 = some f.runtimePc ∧
      extractJsonStringField line "address" 64 = some f.addressText ∧
      extractJsonUnsignedField line "size" = some f.size := by
  constructor
  · intro h
    obtain ⟨pcSeq, hseq, h⟩ := Option.bind_eq_some_iff.mp h
    obtain ⟨requestId, hid, h⟩ := Option.bind_eq_some_iff.mp h
    obtain ⟨runtimePc, hpc, h⟩ := Option.bind_eq_some_iff.mp h
    obtain ⟨addressText, haddress, h⟩ := Option.bind_eq_some_iff.mp h
    obtain ⟨size, hsize, rfl⟩ := Option.map_eq_some_iff.mp h
    exact ⟨hseq, hid, hpc, haddress, hsize⟩
  · rintro ⟨hseq, hid, hpc, haddress, hsize⟩
    rw [memRequestFields, hseq, hid, hpc, haddress, hsize]
    rfl

theorem memRequestFields_bounded (h : Printable line) {f : MemRequestFields} (hf : memRequestFields line = some f) :
    f.Bounded := by
  obtain ⟨hseq, hid, hpc, haddress, hsize⟩ := (memRequestFields_eq_some_iff f).mp hf
  exact ⟨extractUnsigned_lt hseq, extractUnsigned_lt hsize, ⟨extractString_printable h hid, extractString_length hid⟩,
    ⟨extractString_printable h hpc, extractString_length hpc⟩,
    ⟨extractString_printable h haddress, extractString_length haddress⟩⟩

end extraction

section answers

/-- An answer's payload with the request's fields in it. -/
def EchoesFields (f : MemRequestFields) (payload : Payload) : Prop :=
  ∃ ok more, payload = echoedFields f.pcSeq f.requestId f.runtimePc ok f.addressText f.size ++ more

/-- The written form of a message with such a payload. -/
def Answers (messageId : UInt32) (f : MemRequestFields) (answer : Option (List Char)) : Prop :=
  ∃ payload, EchoesFields f payload ∧ WellFormed (memResponseJson messageId payload) ∧
    answer = some (encode (memResponseJson messageId payload) ++ [Char.ofNat 10])

theorem wellFormed_memResponse (messageId : UInt32) {f : MemRequestFields} {ok : Bool} {key : String} {x : Json}
    (hkey : key ∉ ["pc_seq", "request_id", "runtime_pc", "ok", "address", "size"]) (hx : WellFormed x) :
    WellFormed (memResponseJson messageId
      (echoedFields f.pcSeq f.requestId f.runtimePc ok f.addressText f.size ++ [(key, x)])) := by
  have hnames : ["protocol", "id", "type", "role", "payload"].Nodup := by decide
  have hfields : ["pc_seq", "request_id", "runtime_pc", "ok", "address", "size"].Nodup := by decide
  have hkeys : (["pc_seq", "request_id", "runtime_pc", "ok", "address", "size"] ++ [key]).Nodup := by
    refine List.nodup_append.mpr ⟨hfields, List.nodup_singleton _, ?_⟩
    rintro name hname other hother rfl
    exact hkey (List.mem_singleton.mp hother ▸ hname)
  refine ⟨hnames, trivial, trivial, trivial, trivial, ⟨hkeys, ?_⟩, trivial⟩
  exact ⟨trivial, trivial, trivial, trivial, trivial, trivial, hx, trivial⟩

variable {f : MemRequestFields} (messageId : UInt32)

theorem sendMemErrorResponse_answers (hf : f.Bounded) {code message : String}
    (hcode : Plain code.toList ∧ code.toList.length ≤ 15)
    (hmessage : Printable message.toList ∧ message.toList.length < 256) :
    Answers messageId f (sendMemErrorResponse messageId f code message) := by
  have hkeys : ["code", "message"].Nodup := by decide
  refine ⟨_, ⟨false, [("error", .obj [("code", .str code), ("message", .str message)])], rfl⟩,
    wellFormed_memResponse messageId (by decide) ⟨hkeys, trivial, trivial, trivial⟩, ?_⟩
  have hroom : 2 * f.requestId.length + 2 * f.runtimePc.length + 2 * f.addressText.length +
      2 * message.toList.length ≤ 1800 := by
    have hid := hf.requestId.2
    have hpc := hf.runtimePc.2
    have haddress := hf.addressText.2
    omega
  obtain ⟨text, htext⟩ := memErrorResponse_fits messageId hf.pcSeq hf.size (takes_two hf.requestId.1)
    (takes_two hf.runtimePc.1) (takes_two hf.addressText.1) hcode.1 hcode.2 (takes_two hmessage.1) hroom
  have hwritten := writeMemErrorResponse_eq messageId f.pcSeq f.size hf.requestId.1 hf.runtimePc.1 hf.addressText.1
    hcode.1.printable hmessage.1
  rw [sendMemErrorResponse, htext]
  exact congrArg some (fit_inv (hwritten.symm.trans htext)).1

theorem writeMemResponse_answers (hf : f.Bounded) {bytes : List UInt8} (hbytes : bytes.length ≤ 4096) :
    Answers messageId f
      (writeMemResponse messageId f.pcSeq f.requestId f.runtimePc f.addressText f.size bytes) := by
  refine ⟨_, ⟨true, [("bytes_hex", .str (toHex bytes))], rfl⟩, wellFormed_memResponse messageId (by decide) trivial, ?_⟩
  obtain ⟨text, htext⟩ := memResponse_fits messageId hf.pcSeq hf.size hf.requestId.2 hf.runtimePc.2
    hf.addressText.2 hbytes
  have hwritten := writeMemResponse_eq messageId f.pcSeq f.size hf.requestId.1 hf.runtimePc.1 hf.addressText.1 bytes
  rw [htext]
  exact congrArg some (fit_inv (hwritten.symm.trans htext)).1

/-- A text for the error answer of a failed read. -/
def ErrorText (message : String) : Prop := Printable message.toList ∧ message.toList.length < 256

instance (message : String) : Decidable (ErrorText message) := instDecidableAnd

theorem plain_lastErrorText {message : String} (h : Plain message.toList) (hlength : message.toList.length ≤ 241)
    (hr : UInt32) : Plain (lastErrorText message hr).toList ∧ (lastErrorText message hr).toList.length ≤ 255 := by
  have htext : (lastErrorText message hr).toList =
      message.toList ++ " hr=".toList ++ (formatHexPadded 8 hr.toNat).toList := by
    rw [lastErrorText, String.toList_append, String.toList_append]
  have hdigits : (Nat.toDigits 16 hr.toNat).length ≤ 8 :=
    (Nat.length_toDigits_le_iff (by decide) (by decide)).mpr hr.toNat_lt
  have hspace : " hr=".toList.length = 4 := by decide
  have hpadded : (formatHexPadded 8 hr.toNat).toList.length = 10 := by
    simp [formatHexPadded]
    omega
  rw [htext, List.length_append, List.length_append]
  exact ⟨plain_append (plain_append h (by decide)) (plain_formatHexPadded 8 hr.toNat), by omega⟩

variable {client : DebugClient} {address size : Nat}

/-- A successful read has as many bytes as were asked for. -/
theorem readVirtualMemory_ok {bytes : List UInt8} (h : readVirtualMemory client address size = .ok bytes) :
    bytes.length ≤ maxMemoryReadSize := by
  rw [readVirtualMemory.eq_def] at h
  split at h
  · cases h
  · split at h
    · cases h
    · split at h
      · cases h
      · cases h
      · split at h
        · cases h
        · cases h
          omega

/-- A failed read has a text. -/
theorem readVirtualMemory_error {message : String} (h : readVirtualMemory client address size = .error message) :
    Plain message.toList ∧ message.toList.length ≤ 255 := by
  have hfixed : (Plain "invalid memory read arguments".toList ∧ "invalid memory read arguments".toList.length ≤ 255) ∧
      (Plain "invalid memory read size".toList ∧ "invalid memory read size".toList.length ≤ 255) ∧
      (Plain "partial memory read".toList ∧ "partial memory read".toList.length ≤ 255) := by decide
  rw [readVirtualMemory.eq_def] at h
  split at h
  · cases h
    exact hfixed.1
  · split at h
    · cases h
      exact hfixed.2.1
    · split at h
      · cases h
        exact plain_lastErrorText (by decide) (by decide) _
      · cases h
        exact plain_lastErrorText (by decide) (by decide) _
      · split at h
        · cases h
          exact hfixed.2.2
        · cases h

/-- Whatever the engine does, a request whose fields are found is answered with these fields. -/
theorem handleMemRequest_answers (client : DebugClient) {line : List Char} (hline : Printable line)
    (hfields : memRequestFields line = some f) : Answers messageId f (handleMemRequest client messageId line) := by
  have hf := memRequestFields_bounded hline hfields
  have hcodes : (Plain "invalid_address".toList ∧ "invalid_address".toList.length ≤ 15) ∧
      (Plain "invalid_size".toList ∧ "invalid_size".toList.length ≤ 15) ∧
      (Plain "read_failed".toList ∧ "read_failed".toList.length ≤ 15) := by decide
  have hmessages : ErrorText "invalid memory read address" ∧ ErrorText "invalid memory read size" := by decide
  rw [handleMemRequest, hfields]
  dsimp only
  split
  · exact sendMemErrorResponse_answers messageId hf hcodes.1 hmessages.1
  · rename_i address _
    split
    · exact sendMemErrorResponse_answers messageId hf hcodes.2.1 hmessages.2
    · cases hread : readVirtualMemory client address f.size with
      | error message =>
        obtain ⟨hplain, hlength⟩ := readVirtualMemory_error hread
        exact sendMemErrorResponse_answers messageId hf hcodes.2.2 ⟨hplain.printable, Nat.lt_succ_of_le hlength⟩
      | ok bytes => exact writeMemResponse_answers messageId hf (readVirtualMemory_ok hread)

end answers
end DynvarSync.Windbg
