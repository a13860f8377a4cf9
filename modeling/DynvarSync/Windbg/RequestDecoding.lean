import DynvarSync.Ida.RequestShapes
import DynvarSync.Windbg.RequestText

/-! The requests of both engines, as the extension's field extractors read them out of the
line the broker relays. -/
namespace DynvarSync.Windbg
open Lib PyText CText JsonText Ida Broker

/-- A hexadecimal text that fits the extension's buffer. -/
structure HexText (text : String) : Prop where
  digits : ∀ c ∈ text.toList, (digitOf c).isSome ∨ c = 'x' ∨ c = 'X'
  short : text.toList.length < 64

/-- The type and correlation fields of a payload are read as they are. -/
structure ReadsCorrelation (text : List Char) (type : MessageType) (payload : Payload) : Prop where
  type : extractJsonStringField text "type" 64 = some (typeText type).toList
  pcSeq : ∃ n : Nat, payload.get "pc_seq" = .int n ∧ extractJsonUnsignedField text "pc_seq" = some n
  requestId : ∃ s, payload.get "request_id" = .str s ∧ extractJsonStringField text "request_id" 128 = some s.toList
  runtimePc : ∃ s, payload.get "runtime_pc" = .str s ∧ extractJsonStringField text "runtime_pc" 64 = some s.toList

structure ReadsRegRequest (text : List Char) (payload : Payload) : Prop
    extends ReadsCorrelation text .regRequest payload where
  registers : ∃ names : List String, payload.get "registers" = .arr (names.map .str) ∧
    parseRegisterList text = some (names.map String.toList)

structure ReadsMemRequest (text : List Char) (payload : Payload) : Prop
    extends ReadsCorrelation text .memRequest payload where
  address : ∃ (s : String) (n : Nat), payload.get "address" = .str s ∧ intAuto s = some n ∧
    extractJsonStringField text "address" 64 = some s.toList ∧ extractJsonU64StringField text "address" = some n
  size : ∃ n : Nat, payload.get "size" = .int n ∧ extractJsonUnsignedField text "size" = some n

/-- What holds of the text the extension is given for a message. -/
def Delivered (message : Envelope) (P : List Char → Prop) : Prop :=
  ∃ line, relay (encodeMessage (envelopeJson message)) = some line ∧ P (receivedText line)

theorem delivered_of_encode {message : Envelope} (h : WellFormed (envelopeJson message)) {P : List Char → Prop}
    (hP : P (encode (envelopeJson message))) : Delivered message P := by
  obtain ⟨hrelay, htext⟩ := relay_encodeMessage h
  exact ⟨_, hrelay, htext.symm ▸ hP⟩

/-- The payload of a memory request. -/
def memoryPayload (pcSeq : Int) (requestId runtimePc address : String) (size : Nat) (more : Payload) : Payload :=
  correlationFields pcSeq requestId runtimePc ++ ([("address", .str address), ("size", .int size)] ++ more)

section texts

theorem HexText.plain {text : String} (h : HexText text) : Plain text.toList := by
  have hmarks : plainChar 'x' = true ∧ plainChar 'X' = true := by decide
  intro c hc
  rcases h.digits c hc with hdigit | rfl | rfl
  · rw [digitOf] at hdigit
    have hrange : 48 ≤ c.toNat ∧ c.toNat ≤ 102 ∧ c.toNat ≠ 92 := by
      split at hdigit
      · omega
      · split at hdigit
        · omega
        · split at hdigit
          · omega
          · cases hdigit
    refine (plainChar_iff c).mpr ⟨by omega, by omega, ?_, ?_⟩
    · rintro rfl
      exact absurd hrange.1 (by decide)
    · rintro rfl
      exact hrange.2.2 rfl
  · exact hmarks.1
  · exact hmarks.2

/-- A text with a character that the field's name lacks. -/
theorem inert_of_mem {field : String} {text : String} (hplain : Plain text.toList) {c : Char} (hc : c ∈ text.toList)
    (hfield : c ∉ field.toList) : Inert field (escape text.toList) := by
  rw [escape_plain hplain]
  exact ⟨not_mem_quote_of_plain hplain, fun heq => hfield (heq ▸ hc)⟩

/-- A hexadecimal text is no field name with a letter beyond the digits. -/
theorem HexText.inert {text : String} (h : HexText text) {field : String} {c : Char} (hc : c ∈ field.toList)
    (hletter : ¬ ((digitOf c).isSome ∨ c = 'x' ∨ c = 'X')) : Inert field (escape text.toList) := by
  rw [escape_plain h.plain]
  refine ⟨not_mem_quote_of_plain h.plain, fun heq => hletter (h.digits c ?_)⟩
  rw [heq]
  exact hc

theorem toList_toString (n : Int) : (toString n).toList = encodeInt n := by
  rw [Int.toString_eq_repr, Int.repr_eq_if, encodeInt]
  by_cases hn : 0 ≤ n
  · rw [if_pos hn, if_neg (by omega), List.nil_append, Nat.repr_eq_ofList_toDigits, String.toList_ofList]
    congr 1
    omega
  · have habs : (-n).toNat = n.natAbs := by omega
    rw [if_neg hn, if_pos (by omega), String.toList_append, Nat.repr_eq_ofList_toDigits, String.toList_ofList,
      String.toList_ofList, habs]

theorem plain_encodeInt (n : Int) : Plain (encodeInt n) := by
  intro c hc
  obtain ⟨hlow, hhigh⟩ := printable_encodeInt n c hc
  refine (plainChar_iff c).mpr ⟨hlow, hhigh, ?_, ?_⟩
  · rintro rfl
    exact quote_not_mem_encodeInt n hc
  · rintro rfl
    rcases mem_encodeInt hc with h | h <;> exact absurd h (by decide)

theorem length_encodeInt_le {n : Int} (hlow : 0 ≤ n) (hhigh : n < 2 ^ 32) : (encodeInt n).length ≤ 10 := by
  rw [encodeInt, if_neg (by omega), List.nil_append]
  exact (Nat.length_toDigits_le_iff (by decide) (by decide)).mpr (by omega)

theorem hexText_formatHex {n : Nat} (h : n < 2 ^ 64) : HexText (formatHex n) := by
  have hn : ¬ (n : Int) < 0 := by omega
  have htext : (formatHex n).toList = '0' :: 'x' :: Nat.toDigits 16 n := by
    simp [formatHex, hn]
  constructor
  · intro c hc
    rw [htext] at hc
    rcases List.mem_cons.mp hc with rfl | hc
    · exact .inl (by decide)
    · rcases List.mem_cons.mp hc with rfl | hc
      · exact .inr (.inl rfl)
      · obtain ⟨ds, hlt, -, hds, -⟩ := exists_digits (show 2 ≤ 16 by decide) (by decide) n
        rw [hds] at hc
        obtain ⟨d, hd, rfl⟩ := List.mem_map.mp hc
        rw [digitOf_digitChar (hlt d hd)]
        exact .inl rfl
  · rw [htext, List.length_cons, List.length_cons]
    have hdigits : (Nat.toDigits 16 n).length ≤ 16 :=
      (Nat.length_toDigits_le_iff (by decide) (by decide)).mpr (by omega)
    omega

/-- A text made of the opening of a request id and more plain text. -/
structure RequestId (text : String) : Prop where
  plain : Plain text.toList
  dash : '-' ∈ text.toList

theorem RequestId.inert {text : String} (h : RequestId text) {field : String} (hfield : '-' ∉ field.toList) :
    Inert field (escape text.toList) := inert_of_mem h.plain h.dash hfield

theorem requestId_reg (pcSeq : Int) : RequestId (regRequestId pcSeq) := by
  have htext : (regRequestId pcSeq).toList = "reg-".toList ++ encodeInt pcSeq ++ "-entry".toList := by
    rw [regRequestId, String.toList_append, String.toList_append, toList_toString]
  constructor
  · rw [htext]
    exact plain_append (plain_append (by decide) (plain_encodeInt pcSeq)) (by decide)
  · rw [htext]
    exact List.mem_append_right _ (by decide)

theorem requestId_vReg (pcSeq : Int) : RequestId (vRegRequestId pcSeq) := by
  have htext : (vRegRequestId pcSeq).toList = "v-reg-".toList ++ encodeInt pcSeq ++ "-runtime".toList := by
    rw [vRegRequestId, String.toList_append, String.toList_append, toList_toString]
  constructor
  · rw [htext]
    exact plain_append (plain_append (by decide) (plain_encodeInt pcSeq)) (by decide)
  · rw [htext]
    exact List.mem_append_right _ (by decide)

theorem requestId_vMem (pcSeq lvarIndex : Int) : RequestId (vMemRequestId pcSeq lvarIndex) := by
  have htext : (vMemRequestId pcSeq lvarIndex).toList =
      "v-mem-".toList ++ encodeInt pcSeq ++ "-".toList ++ encodeInt lvarIndex := by
    rw [vMemRequestId, String.toList_append, String.toList_append, String.toList_append, toList_toString,
      toList_toString]
  constructor
  · rw [htext]
    exact plain_append (plain_append (plain_append (by decide) (plain_encodeInt pcSeq)) (by decide))
      (plain_encodeInt lvarIndex)
  · rw [htext]
    exact List.mem_append_left _ (List.mem_append_right _ (by decide))

/-- The register requests' ids always fit. -/
theorem length_regRequestIds {pcSeq : Int} (hlow : 0 ≤ pcSeq) (hhigh : pcSeq < 2 ^ 32) :
    (regRequestId pcSeq).toList.length < 128 ∧ (vRegRequestId pcSeq).toList.length < 128 := by
  have hdigits := length_encodeInt_le hlow hhigh
  constructor
  · rw [regRequestId, String.toList_append, String.toList_append, toList_toString, List.length_append,
      List.length_append]
    have hends : "reg-".toList.length = 4 ∧ "-entry".toList.length = 6 := by decide
    omega
  · rw [vRegRequestId, String.toList_append, String.toList_append, toList_toString, List.length_append,
      List.length_append]
    have hends : "v-reg-".toList.length = 6 ∧ "-runtime".toList.length = 8 := by decide
    omega

end texts

section reading
variable {pcSeq : Int} {requestId runtimePc : String}

theorem fit_eq_some {outSize : Nat} {text : List Char} (h : text.length < outSize) : fit outSize text = some text :=
  if_neg (by omega)

theorem cut_plain {text : String} (h : Plain text.toList) : (escape text.toList).takeWhile (· ≠ quote) = text.toList :=
  (cut_escape_eq_iff text.toList).mpr h

/-- The correlation fields of any request are read as they are. -/
theorem readsCorrelation (type : MessageType) (id : Int) (hlow : 0 ≤ pcSeq) (hhigh : pcSeq < 2 ^ 32)
    (hid : RequestId requestId) (hshort : requestId.toList.length < 128) (hpc : HexText runtimePc)
    (more : Payload) (rest : List Char) :
    ReadsCorrelation (requestLine type id pcSeq requestId runtimePc rest) type
      (correlationFields pcSeq requestId runtimePc ++ more) := by
  refine ⟨extract_type type id pcSeq requestId runtimePc rest, ⟨pcSeq.toNat, ?_, ?_⟩, ⟨requestId, rfl, ?_⟩,
    ⟨runtimePc, rfl, ?_⟩⟩
  · exact congrArg Json.int (Int.toNat_of_nonneg hlow).symm
  · obtain ⟨tail, htail⟩ := extract_pcSeq type id pcSeq requestId runtimePc rest
    rw [htail, scanUnsigned_encodeInt hlow hhigh]
  · rw [extract_requestId, cut_plain hid.plain, fit_eq_some hshort]
  · rw [extract_runtimePc type id pcSeq requestId runtimePc rest (hid.inert (by decide)), cut_plain hpc.plain,
      fit_eq_some hpc.short]

theorem wellFormedItems_str (names : List String) : WellFormedItems (names.map .str) := by
  induction names with
  | nil => trivial
  | cons name names ih => exact ⟨trivial, ih⟩

/-- An envelope is well formed when its payload is. -/
theorem wellFormed_envelope {message : Envelope} (hkeys : (message.payload.map Prod.fst).Nodup)
    (hfields : WellFormedFields message.payload) : WellFormed (envelopeJson message) := by
  have hnames : ["protocol", "id", "type", "role", "payload"].Nodup := by decide
  exact ⟨hnames, trivial, trivial, trivial, trivial, ⟨hkeys, hfields⟩, trivial⟩

theorem namesRegister_of_known {register : String} (h : register ∈ fullRegisterOrder) :
    NamesRegister register ∧ register.toList.map Char.toLower = register.toList := by
  have hall : ∀ register ∈ fullRegisterOrder, (Plain register.toList ∧ register.toList ≠ [] ∧
      register.toList.length < registerNameMax) ∧ register.toList.map Char.toLower = register.toList := by decide
  obtain ⟨⟨hplain, hne, hshort⟩, hlower⟩ := hall register h
  exact ⟨⟨hplain, hne, hshort⟩, hlower⟩

/-- A register request is read exactly. -/
theorem regRequest_read (id : Int) (hlow : 0 ≤ pcSeq) (hhigh : pcSeq < 2 ^ 32) (hid : RequestId requestId)
    (hshort : requestId.toList.length < 128) (hpc : HexText runtimePc) {registers : List String}
    (hregisters : RequestRegisters registers) (reason : String) :
    Delivered ⟨id, .regRequest, correlationFields pcSeq requestId runtimePc ++
        [("registers", .arr (registers.map .str)), ("reason", .str reason)]⟩
      (ReadsRegRequest · (correlationFields pcSeq requestId runtimePc ++
        [("registers", .arr (registers.map .str)), ("reason", .str reason)])) := by
  have hlower : (registers.map fun name => name.toList.map Char.toLower) = registers.map String.toList :=
    List.map_congr_left fun register hr => (namesRegister_of_known (hregisters.known register hr)).2
  have hletter : ¬ ((digitOf 'r').isSome ∨ 'r' = 'x' ∨ 'r' = 'X') := by decide
  have hroom := hregisters.length_le
  refine delivered_of_encode (wellFormed_envelope (by simp [correlationFields]) ?_) ?_
  · exact ⟨trivial, trivial, trivial, wellFormedItems_str registers, trivial, trivial⟩
  · rw [encode_request _ _ _ _ _ (List.cons_ne_nil _ _)]
    refine { toReadsCorrelation := readsCorrelation .regRequest id hlow hhigh hid hshort hpc _ _, registers := ?_ }
    refine ⟨registers, rfl, ?_⟩
    have hfields : encodeFields [("registers", .arr (registers.map .str)), ("reason", .str reason)] ++ ['}', '}'] =
        quote :: ("registers".toList ++ quote :: ':' :: '[' :: (encodeItems (registers.map .str) ++
          ']' :: (',' :: encodeFields [("reason", .str reason)] ++ ['}', '}']))) := by
      simp (disch := decide) only [encode, encodeFields, encodeString_plain, List.cons_append, List.nil_append,
        List.append_assoc]
    rw [hfields]
    refine (parse_registers id pcSeq (hid.inert (by decide)) (hpc.inert (by decide) hletter)
      (fun name hname => (namesRegister_of_known (hregisters.known name hname)).1) hregisters.nonempty
      (by rw [maxRegisterValues]; omega) _).trans (congrArg some hlower)

/-- A memory request at an address of the machine is read exactly. -/
theorem memRequest_read (id : Int) (hlow : 0 ≤ pcSeq) (hhigh : pcSeq < 2 ^ 32) (hid : RequestId requestId)
    (hshort : requestId.toList.length < 128) (hpc : HexText runtimePc) {address : Nat} (haddress : address < 2 ^ 64)
    {size : Nat} (hsize : size ∈ supportedWidths) {more : Payload} (hmore : more ≠ []) (hfields : WellFormedFields more)
    (hkeys : (["pc_seq", "request_id", "runtime_pc", "address", "size"] ++ more.map Prod.fst).Nodup) :
    Delivered ⟨id, .memRequest, memoryPayload pcSeq requestId runtimePc (formatHex address) size more⟩
      (ReadsMemRequest · (memoryPayload pcSeq requestId runtimePc (formatHex address) size more)) := by
  have haddresshex : HexText (formatHex address) := hexText_formatHex haddress
  have hr : ¬ ((digitOf 'r').isSome ∨ 'r' = 'x' ∨ 'r' = 'X') := by decide
  have hz : ¬ ((digitOf 'z').isSome ∨ 'z' = 'x' ∨ 'z' = 'X') := by decide
  have hwidths : ∀ width ∈ supportedWidths, width ≤ 8 := by decide
  have hsmall := hwidths size hsize
  have hwf : WellFormed (envelopeJson
      ⟨id, .memRequest, memoryPayload pcSeq requestId runtimePc (formatHex address) size more⟩) :=
    wellFormed_envelope hkeys ⟨trivial, trivial, trivial, trivial, trivial, hfields⟩
  have hne : [("address", Json.str (formatHex address)), ("size", Json.int size)] ++ more ≠ [] := List.cons_ne_nil _ _
  obtain ⟨rest, hrest⟩ := encodeFields_memory (formatHex address) size hmore
  have htext : encode (envelopeJson
      ⟨id, .memRequest, memoryPayload pcSeq requestId runtimePc (formatHex address) size more⟩) =
        memoryLine id pcSeq requestId runtimePc (formatHex address) size rest := by
    rw [memoryPayload, encode_request _ _ _ _ _ hne, hrest]
    rfl
  have hcut : extractJsonStringField (memoryLine id pcSeq requestId runtimePc (formatHex address) size rest)
    "address" 64 =
      some (formatHex address).toList := by
    rw [extract_address id pcSeq (hid.inert (by decide)) (hpc.inert (by decide) hr),
      cut_plain haddresshex.plain, fit_eq_some haddresshex.short]
  refine delivered_of_encode hwf (htext ▸ ?_)
  refine
    { toReadsCorrelation := readsCorrelation .memRequest id hlow hhigh hid hshort hpc _ _
      address := ?_
      size := ?_ }
  · refine ⟨formatHex address, address, rfl, intAuto_formatHex address, hcut, ?_⟩
    exact (congrArg (Option.bind · scanHex) hcut).trans (scanHex_formatHex haddress)
  · obtain ⟨tail, htail⟩ := extract_size id pcSeq (hid.inert (by decide)) (hpc.inert (by decide) hz)
      (haddresshex.inert (by decide) hz) size rest
    refine ⟨size, rfl, htail.trans ?_⟩
    rw [scanUnsigned_encodeInt (by omega) (by omega)]
    rfl

end reading

/-- A stack variable whose index has as many digits as its place among all variables needs. -/
def farLvar (lvarIndex : Int) : VariableRecord :=
  { lvarIndex := lvarIndex, name := "v\"runtime_pc\":", size := 4, isArg := false, argIndex := none }

def farProvider (lvarIndex : Int) : AnalysisProvider := fun _ _ _ => .ok
  { ok := true
    evidenceByIndex := Dict.empty.set lvarIndex
      { lvarIndex := lvarIndex, storageKind := .stack, stackPointerOffset := some 0x20 } }

def farContext (lvarIndex : Int) : VVariableRecovery.Op :=
  .beginPc (farProvider lvarIndex) [farLvar lvarIndex] 4198400 4198416 "0x401010" 1 none

def farResponse : Payload :=
  [("pc_seq", .int 1), ("request_id", .str (vRegRequestId 1)), ("ok", .bool true),
   ("registers", .obj [("rsp", .str "0x1000")])]

end DynvarSync.Windbg
