import DynvarSync.Windbg.MemoryHandler

/-! The extension's handler of a register request: the names it takes out of the line, the
values it reads of the debugged thread, and the answer it writes. -/
namespace DynvarSync.Windbg
open Lib PyText CText JsonText

/-- A `DEBUG_VALUE`, by its type. -/
inductive DebugValue where
  | int8 (n : UInt8)
  | int16 (n : UInt16)
  | int32 (n : UInt32)
  | int64 (n : UInt64)
  | other

def debugValueToU64 : DebugValue → UInt64
  | .int8 n => n.toUInt64
  | .int16 n => n.toUInt64
  | .int32 n => n.toUInt64
  | .int64 n => n
  | .other => 0

/-- What the debugger engine does on register reads: a name has a value or fails. -/
inductive EngineRegisters where
  | noRegisters (hr : UInt32)
  | values (read : List Char → Option DebugValue)

/-- `DVS_REGISTER_VALUE`. -/
structure RegisterValue where
  name : List Char
  value : UInt64 := 0
  ok : Bool := false

def asciiEqualNoCase (left right : List Char) : Bool := left.map Char.toLower = right.map Char.toLower

def supportedRegisters : List String :=
  ["rax", "rbx", "rcx", "rdx", "rsi", "rdi", "rsp", "rbp", "r8", "r9", "r10", "r11", "r12", "r13", "r14", "r15", "rip"]

def isSupportedRegisterName (name : List Char) : Bool :=
  supportedRegisters.any fun supported => asciiEqualNoCase name supported.toList

/-- One turn of the reading loop. -/
def readRegister (read : List Char → Option DebugValue) (name : List Char) : RegisterValue :=
  if !isSupportedRegisterName name then { name := name }
  else match read name with
    | none => { name := name }
    | some value => { name := name, value := debugValueToU64 value, ok := true }

/-- The values read, or the text of `DvsDbgEngLastError`. -/
def readRegisters (client : Option EngineRegisters) (names : List (List Char)) : Except String (List RegisterValue) :=
  match client with
  | none => .error "invalid register read arguments"
  | some (.noRegisters hr) => .error (lastErrorText "QueryInterface(IDebugRegisters) failed" hr)
  | some (.values read) => .ok ((names.take maxRegisterValues).map (readRegister read))

/-- The buffer of a register answer, `DVS_JSON_BUFFER_SIZE * 4`. -/
def regJsonBufferSize : Nat := 4096

/-- The appends of the values that were read. -/
def registerPieces (first : Bool) : List RegisterValue → List (List Char)
  | [] => []
  | v :: values =>
    if !v.ok then registerPieces first values
    else ((if first then [] else [',']) ++ quote :: (v.name ++ quote :: ':' :: quote ::
      ((formatHexPadded 16 v.value.toNat).toList ++ [quote]))) :: registerPieces false values

def writeRegResponse (messageId : UInt32) (pcSeq : Nat) (requestId runtimePc : List Char)
    (values : List RegisterValue) :
    Option (List Char) :=
  appendAll regJsonBufferSize (["\x7b\"protocol\":1,\"id\":".toList ++ unsignedText messageId.toNat ++
      ",\"type\":\"reg_response\",\"role\":\"windbg\",\"payload\":\x7b\"pc_seq\":".toList ++ unsignedText pcSeq ++
      ",\"request_id\":".toList] ++ escapedPieces requestId ++ [",\"runtime_pc\":".toList] ++ escapedPieces runtimePc ++
    [",\"ok\":true,\"registers\":\x7b".toList] ++ registerPieces true values ++
    ["\x7d\x7d\x7d".toList ++ [Char.ofNat 10]])

/-- The fields `DvsHandleRegRequest` takes out of its line. -/
structure RegRequestFields where
  pcSeq : Nat
  requestId : List Char
  runtimePc : List Char
  names : List (List Char)

def regRequestFields (line : List Char) : Option RegRequestFields :=
  (extractJsonUnsignedField line "pc_seq").bind fun pcSeq =>
  (extractJsonStringField line "request_id" 128).bind fun requestId =>
  (extractJsonStringField line "runtime_pc" 64).bind fun runtimePc =>
  (parseRegisterList line).map fun names => ⟨pcSeq, requestId, runtimePc, names⟩

/-- The answer sent for a register request, if one is sent. -/
def handleRegRequest (client : Option EngineRegisters) (messageId : UInt32) (line : List Char) : Option (List Char) :=
  match regRequestFields line with
  | none => none
  | some f =>
    match readRegisters client f.names with
    | .error _ => none
    | .ok values => writeRegResponse messageId f.pcSeq f.requestId f.runtimePc values

section names

theorem plainChar_of_toLower {c : Char} (h : plainChar c.toLower = true) : plainChar c = true := by
  by_cases hupper : c.isUpper = true
  · have hrange : c.val ≥ 'A'.val ∧ c.val ≤ 'Z'.val := of_decide_eq_true hupper
    rw [ge_iff_le, UInt32.le_iff_toNat_le, UInt32.le_iff_toNat_le] at hrange
    have hlow : 65 ≤ c.toNat := hrange.1
    have hhigh : c.toNat ≤ 90 := hrange.2
    refine (plainChar_iff c).mpr ⟨by omega, by omega, ?_, ?_⟩
    · rintro rfl
      exact absurd hlow (by decide)
    · rintro rfl
      exact absurd hhigh (by decide)
  · have hsame : c.toLower = c := dif_neg fun hrange => hupper (decide_eq_true hrange)
    rwa [hsame] at h

theorem plain_of_supported {name : List Char} (h : isSupportedRegisterName name = true) : Plain name := by
  have hsupported : ∀ supported ∈ supportedRegisters, Plain (supported.toList.map Char.toLower) := by decide
  obtain ⟨supported, hmem, hequal⟩ := List.any_eq_true.mp h
  rw [asciiEqualNoCase, decide_eq_true_eq] at hequal
  intro c hc
  refine plainChar_of_toLower (hsupported supported hmem _ ?_)
  rw [← hequal]
  exact List.mem_map_of_mem hc

theorem readRegister_supported {read : List Char → Option DebugValue} {name : List Char}
    (h : (readRegister read name).ok = true) : isSupportedRegisterName (readRegister read name).name = true := by
  rw [readRegister] at h ⊢
  split at h
  · cases h
  · rename_i hsupported
    rw [if_neg hsupported]
    rw [Bool.not_eq_true, Bool.not_eq_false'] at hsupported
    cases hread : read name with
    | none => exact hsupported
    | some value => exact hsupported

/-- Every value that was read is of a supported register. -/
theorem readRegisters_supported {client : Option EngineRegisters} {names : List (List Char)}
    {values : List RegisterValue} (h : readRegisters client names = .ok values) :
    ∀ v ∈ values, v.ok = true → isSupportedRegisterName v.name = true := by
  rw [readRegisters.eq_def] at h
  split at h
  · cases h
  · cases h
  · cases h
    intro v hv hok
    obtain ⟨name, -, rfl⟩ := List.mem_map.mp hv
    exact readRegister_supported hok

/-- Every value that is written has a name that needs no escape. -/
theorem readRegisters_plain {client : Option EngineRegisters} {names : List (List Char)} {values : List RegisterValue}
    (h : readRegisters client names = .ok values) : ∀ v ∈ values, v.ok = true → Plain v.name :=
  fun v hv hok => plain_of_supported (readRegisters_supported h v hv hok)

end names

/-- The handler's fields, one by one. -/
theorem regRequestFields_eq_some_iff {line : List Char} (f : RegRequestFields) :
    regRequestFields line = some f ↔
      extractJsonUnsignedField line "pc_seq" = some f.pcSeq ∧
      extractJsonStringField line "request_id" 128 = some f.requestId ∧
      extractJsonStringField line "runtime_pc" 64 = some f.runtimePc ∧ parseRegisterList line = some f.names := by
  constructor
  · intro h
    obtain ⟨pcSeq, hseq, h⟩ := Option.bind_eq_some_iff.mp h
    obtain ⟨requestId, hid, h⟩ := Option.bind_eq_some_iff.mp h
    obtain ⟨runtimePc, hpc, h⟩ := Option.bind_eq_some_iff.mp h
    obtain ⟨names, hnames, rfl⟩ := Option.map_eq_some_iff.mp h
    exact ⟨hseq, hid, hpc, hnames⟩
  · rintro ⟨hseq, hid, hpc, hnames⟩
    rw [regRequestFields, hseq, hid, hpc, hnames]
    rfl

section answers
variable (messageId : UInt32) (pcSeq : Nat) {requestId runtimePc : List Char} {values : List RegisterValue}

/-- The fields of the values that were read. -/
def registerFields (values : List RegisterValue) : Payload :=
  (values.filter RegisterValue.ok).map fun v => (String.ofList v.name, .str (formatHexPadded 16 v.value.toNat))

def regResponsePayload (pcSeq : Nat) (requestId runtimePc : List Char) (values : List RegisterValue) : Payload :=
  [("pc_seq", .int pcSeq), ("request_id", .str (String.ofList requestId)),
    ("runtime_pc", .str (String.ofList runtimePc)),
   ("ok", .bool true), ("registers", .obj (registerFields values))]

/-- The message around a register answer's payload. -/
def regResponseJson (messageId : UInt32) (payload : Payload) : Json :=
  .obj [("protocol", .int 1), ("id", .int messageId.toNat), ("type", .str "reg_response"), ("role", .str "windbg"),
    ("payload", .obj payload)]

theorem registerFields_cons {v : RegisterValue} (hok : v.ok = true) (values : List RegisterValue) :
    registerFields (v :: values) =
      (String.ofList v.name, .str (formatHexPadded 16 v.value.toNat)) :: registerFields values := by
  rw [registerFields, List.filter_cons_of_pos hok]
  rfl

theorem registerFields_cons_failed {v : RegisterValue} (hok : v.ok = false) (values : List RegisterValue) :
    registerFields (v :: values) = registerFields values := by
  rw [registerFields, List.filter_cons_of_neg (by rw [hok]; decide)]
  rfl

/-- The text of one value that was read. -/
theorem encode_registerField {v : RegisterValue} (h : Plain v.name) :
    encodeString (String.ofList v.name) ++ ':' :: encode (.str (formatHexPadded 16 v.value.toNat)) =
      quote :: (v.name ++ quote :: ':' :: quote :: ((formatHexPadded 16 v.value.toNat).toList ++ [quote])) := by
  have hname : Plain (String.ofList v.name).toList := by rwa [String.toList_ofList]
  rw [encode, encodeString_plain hname, encodeString_plain (plain_formatHexPadded 16 v.value.toNat),
    String.toList_ofList,
    List.cons_append, List.append_assoc]
  rfl

/-- The appends after a first value. -/
theorem flatten_registerPieces_next (h : ∀ v ∈ values, v.ok = true → Plain v.name) :
    (registerPieces false values).flatten =
      if registerFields values = [] then [] else ',' :: encodeFields (registerFields values) := by
  induction values with
  | nil => rfl
  | cons v values ih =>
    obtain ⟨hv, hmore⟩ := List.forall_mem_cons.mp h
    cases hok : v.ok with
    | false =>
      rw [registerFields_cons_failed hok, registerPieces, hok]
      exact ih hmore
    | true =>
      rw [registerFields_cons hok, registerPieces, hok, if_neg (List.cons_ne_nil _ _), if_neg (by decide)]
      rw [List.flatten_cons, ih hmore, ← encode_registerField (hv hok)]
      by_cases hlast : registerFields values = []
      · rw [if_pos hlast, hlast, encodeFields, List.append_nil]
        rfl
      · rw [if_neg hlast, encodeFields_cons _ _ hlast, List.append_assoc, List.append_assoc]
        rfl

theorem flatten_registerPieces (h : ∀ v ∈ values, v.ok = true → Plain v.name) :
    (registerPieces true values).flatten = encodeFields (registerFields values) := by
  induction values with
  | nil => rfl
  | cons v values ih =>
    obtain ⟨hv, hmore⟩ := List.forall_mem_cons.mp h
    cases hok : v.ok with
    | false =>
      rw [registerFields_cons_failed hok, registerPieces, hok]
      exact ih hmore
    | true =>
      rw [registerFields_cons hok, registerPieces, hok, if_neg (by decide)]
      rw [List.flatten_cons, flatten_registerPieces_next hmore, ← encode_registerField (hv hok)]
      by_cases hlast : registerFields values = []
      · rw [if_pos hlast, hlast, encodeFields, List.append_nil]
        rfl
      · rw [if_neg hlast, encodeFields_cons _ _ hlast, if_pos rfl, List.nil_append, List.append_assoc]
        rfl

/-- The answer is the written form of its message. -/
theorem writeRegResponse_eq (hid : Printable requestId) (hpc : Printable runtimePc)
    (hvalues : ∀ v ∈ values, v.ok = true → Plain v.name) :
    writeRegResponse messageId pcSeq requestId runtimePc values =
      fit regJsonBufferSize
        (encode (regResponseJson messageId (regResponsePayload pcSeq requestId runtimePc values)) ++
          [Char.ofNat 10]) := by
  have hheader : ",\"type\":\"reg_response\",\"role\":\"windbg\",\"payload\":\x7b\"pc_seq\":".toList =
      ',' :: (encodeString "type" ++ ':' :: (encodeString "reg_response" ++ ',' :: (encodeString "role" ++
        ':' :: (encodeString "windbg" ++ ',' :: (encodeString "payload" ++ ':' :: '{' ::
          (encodeString "pc_seq" ++ [':'])))))) := by decide
  rw [writeRegResponse, appendAll_eq (by decide)]
  refine congrArg (fit regJsonBufferSize) ?_
  simp only [regResponseJson, regResponsePayload, List.flatten_append, List.flatten_cons, List.flatten_nil,
    flatten_escapedPieces hid, flatten_escapedPieces hpc, flatten_registerPieces hvalues, opening_text, hheader,
    requestId_text, runtimePc_text, okRegisters_text, closing_text, encodeInt_one, encode, encodeFields,
    encodeInt_natCast, List.append_assoc, List.cons_append, List.nil_append]

/-- A request that is answered is answered with its own correlation fields. -/
theorem handleRegRequest_answers {client : Option EngineRegisters} {line answer : List Char} (hline : Printable line)
    (h : handleRegRequest client messageId line = some answer) :
    ∃ f values, regRequestFields line = some f ∧ answer = encode (regResponseJson messageId
      (regResponsePayload f.pcSeq f.requestId f.runtimePc values)) ++ [Char.ofNat 10] := by
  rw [handleRegRequest] at h
  cases hf : regRequestFields line with
  | none =>
    rw [hf] at h
    cases h
  | some f =>
    rw [hf] at h
    cases hvalues : readRegisters client f.names with
    | error message =>
      simp only [hvalues] at h
      cases h
    | ok values =>
      obtain ⟨-, hid, hpc, -⟩ := (regRequestFields_eq_some_iff f).mp hf
      simp only [hvalues] at h
      rw [writeRegResponse_eq messageId f.pcSeq (extractString_printable hline hid) (extractString_printable hline hpc)
        (readRegisters_plain hvalues)] at h
      exact ⟨f, values, rfl, (fit_inv h).1⟩

end answers
end DynvarSync.Windbg
