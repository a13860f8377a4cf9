import DynvarSync.Broker.Protocol
import DynvarSync.Ida.Core
import DynvarSync.Windbg.FieldExtractors

/-! The line of a request on its way from IDA over the broker to the extension, cut at its
quotes, and what the field extractors find in it. -/
namespace DynvarSync.Windbg
open Lib PyText CText JsonText Ida Broker

/-- The message an envelope stands for; protocol and role are constants. -/
def envelopeJson (message : Envelope) : Json :=
  .obj (makeEnvelope message.type .ida message.payload (.int message.id))

def newline : Char := Char.ofNat 10

/-- `encode_message(message)`. -/
def encodeMessage (message : Json) : List Char := encode message ++ [newline]

/-- The line the broker writes for a line it was sent. -/
def relay (line : List Char) : Option (List Char) := (decode line).map encodeMessage

/-- The text the extension takes from the first line. -/
def receivedText (line : List Char) : List Char := line.takeWhile (· ≠ newline)

/-- A message passes the broker unchanged, and the extension gets it without its newline. -/
theorem relay_encodeMessage {message : Json} (h : WellFormed message) :
    relay (encodeMessage message) = some (encodeMessage message) ∧
    receivedText (encodeMessage message) = encode message := by
  have hclean : newline ∉ encode message :=
    fun hmem => absurd (printable_encode message h.floatFree newline hmem).1 (by decide)
  refine ⟨?_, ?_⟩
  · rw [relay, encodeMessage, decode_encode h (List.forall_mem_singleton.mpr (by decide))]
    rfl
  · rw [receivedText, encodeMessage, takeWhile_delimited, takeWhile_of_not_mem hclean]

/-- The correlation fields every request starts with. -/
def correlationFields (pcSeq : Int) (requestId runtimePc : String) : Payload :=
  [("pc_seq", .int pcSeq), ("request_id", .str requestId), ("runtime_pc", .str runtimePc)]

/-- The pieces of a request line before its type. -/
def openingPieces (id : Int) : List (List Char) :=
  [['{'], "protocol".toList, [':', '1', ','], "id".toList] ++ [numberPiece id]

/-- The pieces from the type to the payload. -/
def typePieces (type : MessageType) : List (List Char) :=
  ["type".toList, [':'], (typeText type).toList, [','], "role".toList, [':'], "ida".toList, [','], "payload".toList,
   [':', '{']]

def beforePcSeq (type : MessageType) (id : Int) : List (List Char) := openingPieces id ++ typePieces type

def beforeRequestId (type : MessageType) (id pcSeq : Int) : List (List Char) :=
  beforePcSeq type id ++ ["pc_seq".toList, numberPiece pcSeq]

def beforeRuntimePc (type : MessageType) (id pcSeq : Int) (requestId : String) : List (List Char) :=
  beforeRequestId type id pcSeq ++ ["request_id".toList, [':'], escape requestId.toList] ++ [[',']]

/-- The pieces of a request line up to its runtime PC. -/
def requestPieces (type : MessageType) (id pcSeq : Int) (requestId runtimePc : String) : List (List Char) :=
  beforeRuntimePc type id pcSeq requestId ++ ["runtime_pc".toList, [':'], escape runtimePc.toList]

theorem plain_typeText (type : MessageType) : Plain (typeText type).toList := by
  cases type <;> decide

/-- A request line, cut at its quotes. -/
theorem encode_request (type : MessageType) (id pcSeq : Int) (requestId runtimePc : String) {rest : Payload}
    (hrest : rest ≠ []) :
    encode (envelopeJson ⟨id, type, correlationFields pcSeq requestId runtimePc ++ rest⟩) =
      joined quote (requestPieces type id pcSeq requestId runtimePc) (',' :: (encodeFields rest ++ ['}', '}'])) := by
  have hone : encodeInt 1 = ['1'] := by decide
  obtain ⟨field, rest, rfl⟩ := List.exists_cons_of_ne_nil hrest
  simp (disch := decide) only [envelopeJson, makeEnvelope, correlationFields, encode, encodeFields, encodeString_plain,
    hone, List.cons_append, List.nil_append, List.append_assoc, Role.text]
  rw [encodeString_plain (plain_typeText type), encodeString, encodeString]
  simp only [requestPieces, beforeRuntimePc, beforeRequestId, beforePcSeq, openingPieces, typePieces, numberPiece,
    joined_cons, joined_nil, List.cons_append, List.nil_append, List.append_assoc]

section lookup
variable {field : String}

/-- The constant pieces of every request line. -/
def constantPieces (type : MessageType) : List (List Char) :=
  [['{'], "protocol".toList, [':', '1', ','], "id".toList] ++ typePieces type

theorem inert_beforePcSeq {type : MessageType} (h : FieldName field)
    (hkeys : ∀ piece ∈ constantPieces type, Inert field piece)
    (id : Int) : ∀ piece ∈ beforePcSeq type id, Inert field piece := by
  obtain ⟨hopening, htype⟩ := List.forall_mem_append.mp hkeys
  exact List.forall_mem_append.mpr
    ⟨List.forall_mem_append.mpr ⟨hopening, List.forall_mem_singleton.mpr (inert_number h id)⟩, htype⟩

theorem inert_beforeRequestId {type : MessageType} (h : FieldName field)
    (hkeys : ∀ piece ∈ constantPieces type ++ ["pc_seq".toList], Inert field piece) (id pcSeq : Int) :
    ∀ piece ∈ beforeRequestId type id pcSeq, Inert field piece := by
  obtain ⟨hconstant, hkey⟩ := List.forall_mem_append.mp hkeys
  exact List.forall_mem_append.mpr ⟨inert_beforePcSeq h hconstant id,
    List.forall_mem_cons.mpr ⟨hkey _ (List.mem_singleton_self _), List.forall_mem_singleton.mpr (inert_number h pcSeq)⟩⟩

theorem inert_beforeRuntimePc {type : MessageType} (h : FieldName field)
    (hkeys : ∀ piece ∈ constantPieces type ++ ["pc_seq".toList] ++ ["request_id".toList, [':'], [',']],
      Inert field piece)
    (id pcSeq : Int) {requestId : String} (hrid : Inert field (escape requestId.toList)) :
    ∀ piece ∈ beforeRuntimePc type id pcSeq requestId, Inert field piece := by
  obtain ⟨hbefore, hkey⟩ := List.forall_mem_append.mp hkeys
  simp only [List.forall_mem_cons] at hkey
  obtain ⟨hname, hcolon, hcomma, -⟩ := hkey
  refine List.forall_mem_append.mpr ⟨List.forall_mem_append.mpr ⟨inert_beforeRequestId h hbefore id pcSeq, ?_⟩,
    List.forall_mem_singleton.mpr hcomma⟩
  exact List.forall_mem_cons.mpr ⟨hname, List.forall_mem_cons.mpr ⟨hcolon, List.forall_mem_singleton.mpr hrid⟩⟩

/-- The pieces before a field behind the runtime PC. -/
theorem inert_request {type : MessageType} (h : FieldName field)
    (hkeys : ∀ piece ∈ constantPieces type ++ ["pc_seq".toList] ++ ["request_id".toList, [':'], [',']] ++
      ["runtime_pc".toList], Inert field piece)
    (id pcSeq : Int) {requestId runtimePc : String} (hrid : Inert field (escape requestId.toList))
    (hrpc : Inert field (escape runtimePc.toList)) :
    ∀ piece ∈ requestPieces type id pcSeq requestId runtimePc, Inert field piece := by
  obtain ⟨hbefore, hkey⟩ := List.forall_mem_append.mp hkeys
  have hcolon : Inert field [':'] :=
    hbefore _ (List.mem_append_right _ (List.mem_cons_of_mem _ (List.mem_cons_self ..)))
  refine List.forall_mem_append.mpr ⟨inert_beforeRuntimePc h hbefore id pcSeq hrid, ?_⟩
  exact List.forall_mem_cons.mpr ⟨hkey _ (List.mem_singleton_self _),
    List.forall_mem_cons.mpr ⟨hcolon, List.forall_mem_singleton.mpr hrpc⟩⟩

theorem fieldName_type : FieldName "type" := ⟨by decide, by decide, by rintro c ⟨⟩; decide⟩
theorem fieldName_pcSeq : FieldName "pc_seq" := ⟨by decide, by decide, by rintro c ⟨⟩; decide⟩
theorem fieldName_requestId : FieldName "request_id" := ⟨by decide, by decide, by rintro c ⟨⟩; decide⟩
theorem fieldName_runtimePc : FieldName "runtime_pc" := ⟨by decide, by decide, by rintro c ⟨⟩; decide⟩

variable (type : MessageType) (id pcSeq : Int) (requestId runtimePc : String) (rest : List Char)

/-- The text of a request line with anything behind its runtime PC. -/
def requestLine : List Char := joined quote (requestPieces type id pcSeq requestId runtimePc) rest

theorem extract_type : extractJsonStringField (requestLine type id pcSeq requestId runtimePc rest) "type" 64 =
    some (typeText type).toList := by
  have hopening : ∀ piece ∈ openingPieces id, Inert "type" piece :=
    List.forall_mem_append.mpr ⟨by decide, List.forall_mem_singleton.mpr (inert_number fieldName_type id)⟩
  have hcut : fit 64 ((typeText type).toList.takeWhile (· ≠ quote)) = some (typeText type).toList := by
    rw [takeWhile_of_not_mem (not_mem_quote_of_plain (plain_typeText type))]
    cases type <;> decide
  have hline : requestLine type id pcSeq requestId runtimePc rest =
      joined quote (openingPieces id ++ (["type".toList, [':'], (typeText type).toList] ++
        ([[','], "role".toList, [':'], "ida".toList, [','], "payload".toList, [':', '{']] ++
          (["pc_seq".toList, numberPiece pcSeq] ++ (["request_id".toList, [':'], escape requestId.toList] ++
            ([[',']] ++ ["runtime_pc".toList, [':'], escape runtimePc.toList])))))) rest := by
    simp only [requestLine, requestPieces, beforeRuntimePc, beforeRequestId, beforePcSeq, typePieces, List.append_assoc]
    rfl
  rw [hline, extractString_pieces fieldName_type hopening (List.cons_ne_nil _ _), hcut]

theorem extract_pcSeq : ∃ more, extractJsonUnsignedField (requestLine type id pcSeq requestId runtimePc rest) "pc_seq" =
    scanUnsigned (encodeInt pcSeq ++ ',' :: more) := by
  have hkeys : ∀ piece ∈ constantPieces type, Inert "pc_seq" piece := by cases type <;> decide
  have hline : requestLine type id pcSeq requestId runtimePc rest =
      joined quote (beforePcSeq type id ++ (["pc_seq".toList, numberPiece pcSeq] ++
        (["request_id".toList, [':'], escape requestId.toList] ++
          ([[',']] ++ ["runtime_pc".toList, [':'], escape runtimePc.toList])))) rest := by
    simp only [requestLine, requestPieces, beforeRuntimePc, beforeRequestId, List.append_assoc]
  rw [hline, extractUnsigned_pieces fieldName_pcSeq (inert_beforePcSeq fieldName_pcSeq hkeys id)
    (List.cons_ne_nil _ _)]
  exact ⟨_, rfl⟩

theorem extract_requestId (outSize : Nat) :
    extractJsonStringField (requestLine type id pcSeq requestId runtimePc rest) "request_id" outSize =
      fit outSize ((escape requestId.toList).takeWhile (· ≠ quote)) := by
  have hkeys : ∀ piece ∈ constantPieces type ++ ["pc_seq".toList], Inert "request_id" piece := by cases type <;> decide
  have hline : requestLine type id pcSeq requestId runtimePc rest =
      joined quote (beforeRequestId type id pcSeq ++ (["request_id".toList, [':'], escape requestId.toList] ++
        ([[',']] ++ ["runtime_pc".toList, [':'], escape runtimePc.toList]))) rest := by
    simp only [requestLine, requestPieces, beforeRuntimePc, List.append_assoc]
  rw [hline, extractString_pieces fieldName_requestId
    (inert_beforeRequestId fieldName_requestId hkeys id pcSeq) (List.cons_ne_nil _ _)]

theorem extract_runtimePc (hrid : Inert "runtime_pc" (escape requestId.toList)) (outSize : Nat) :
    extractJsonStringField (requestLine type id pcSeq requestId runtimePc rest) "runtime_pc" outSize =
      fit outSize ((escape runtimePc.toList).takeWhile (· ≠ quote)) := by
  have hkeys : ∀ piece ∈ constantPieces type ++ ["pc_seq".toList] ++ ["request_id".toList, [':'], [',']],
      Inert "runtime_pc" piece := by cases type <;> decide
  have hline : requestLine type id pcSeq requestId runtimePc rest =
      joined quote (beforeRuntimePc type id pcSeq requestId ++
        (["runtime_pc".toList, [':'], escape runtimePc.toList] ++ [])) rest := by
    rw [requestLine, requestPieces, List.append_nil]
  rw [hline, extractString_pieces fieldName_runtimePc
    (inert_beforeRuntimePc fieldName_runtimePc hkeys id pcSeq hrid) (List.cons_ne_nil _ _)]

end lookup

section registers

theorem fieldName_registers : FieldName "registers" := ⟨by decide, by decide, by rintro c ⟨⟩; decide⟩

/-- A register name that the extension takes over as it is. -/
structure NamesRegister (name : String) : Prop where
  plain : Plain name.toList
  nonempty : name.toList ≠ []
  short : name.toList.length < registerNameMax

theorem scanRegisterNames_close (names : List (List Char)) (rest : List Char) :
    scanRegisterNames names (']' :: rest) = some names := by
  rw [scanRegisterNames, if_pos (.inr rfl)]

/-- One turn of the loop takes one name, behind the comma if there is one. -/
theorem scanRegisterNames_name {names : List (List Char)} (hroom : names.length < maxRegisterValues) {name : String}
    (h : NamesRegister name) {lead : List Char} (hlead : lead = [] ∨ lead = [',']) (rest : List Char) :
    scanRegisterNames names (lead ++ (encodeString name ++ rest)) =
      scanRegisterNames (names ++ [name.toList.map Char.toLower]) rest := by
  have htext : encodeString name ++ rest = quote :: (name.toList ++ quote :: rest) := by
    rw [encodeString_plain h.plain, List.cons_append, List.append_assoc, List.singleton_append]
  have hstart : ¬ (lead ++ (encodeString name ++ rest) = [] ∨
    (lead ++ (encodeString name ++ rest)).head? = some ']') := by
    rw [htext]
    rcases hlead with rfl | rfl <;> rintro (h | h) <;> cases h
  have hdrop : (lead ++ (encodeString name ++ rest)).dropWhile (fun c => decide (c ≠ ']' ∧ c ≠ quote)) =
      quote :: (name.toList ++ quote :: rest) := by
    rw [htext]
    rcases hlead with rfl | rfl
    · rw [List.nil_append, List.dropWhile_cons_of_neg (by decide)]
    · rw [List.singleton_append, List.dropWhile_cons_of_pos (by decide), List.dropWhile_cons_of_neg (by decide)]
  have hname : (name.toList ++ quote :: rest).takeWhile (· ≠ quote) = name.toList := by
    rw [takeWhile_delimited, takeWhile_of_not_mem (not_mem_quote_of_plain h.plain)]
  have hmore : (name.toList ++ quote :: rest).drop (name.toList.length + 1) = rest := by
    rw [← List.drop_drop, List.drop_left]
    rfl
  have hfits : ¬ (name.toList = [] ∨ registerNameMax ≤ name.toList.length ∨ maxRegisterValues ≤ names.length) := by
    rintro (hnil | hlong | hfull)
    · exact h.nonempty hnil
    · exact absurd h.short (by omega)
    · omega
  rw [scanRegisterNames, if_neg hstart]
  split
  · rename_i hnil
    rw [hdrop] at hnil
    cases hnil
  · rename_i c start hcons
    rw [hdrop] at hcons
    obtain ⟨rfl, rfl⟩ := List.cons.inj hcons
    rw [if_neg (by decide), if_neg (fun hno => hno (List.mem_append_right _ (List.mem_cons_self ..)))]
    dsimp only
    rw [hname, if_neg hfits, hmore]

/-- The names of a written list are found, in order. -/
theorem scanRegisterNames_encode (registers : List String) (h : ∀ name ∈ registers, NamesRegister name)
    (names : List (List Char)) (hroom : names.length + registers.length ≤ maxRegisterValues) {lead : List Char}
    (hlead : lead = [] ∨ lead = [',']) (hne : registers ≠ []) (rest : List Char) :
    scanRegisterNames names (lead ++ (encodeItems (registers.map .str) ++ ']' :: rest)) =
      some (names ++ registers.map fun name => name.toList.map Char.toLower) := by
  induction registers generalizing names lead with
  | nil => exact absurd rfl hne
  | cons name registers ih =>
    obtain ⟨hname, hmore⟩ := List.forall_mem_cons.mp h
    rw [List.length_cons] at hroom
    cases registers with
    | nil =>
      rw [List.map_singleton, encodeItems, encode, scanRegisterNames_name (by omega) hname hlead,
        scanRegisterNames_close]
      rfl
    | cons other registers =>
      have hitems : encodeItems ((name :: other :: registers).map .str) =
          encodeString name ++ ',' :: encodeItems ((other :: registers).map .str) := by
        rw [List.map_cons, List.map_cons, encodeItems_cons _ (List.cons_ne_nil _ _), encode]
      have hturn := ih hmore (names ++ [name.toList.map Char.toLower])
        (by rw [List.length_append, List.length_singleton]; omega) (.inr rfl : [','] = [] ∨ [','] = [','])
        (List.cons_ne_nil _ _)
      rw [hitems, List.append_assoc, scanRegisterNames_name (by omega) hname hlead, List.cons_append]
      refine hturn.trans (congrArg some ?_)
      rw [List.append_assoc]
      rfl

variable {type : MessageType} {requestId runtimePc : String}

/-- The constant pieces before a field behind the runtime PC. -/
def keyPieces (type : MessageType) : List (List Char) :=
  constantPieces type ++ ["pc_seq".toList] ++ ["request_id".toList, [':'], [',']] ++ ["runtime_pc".toList]

theorem inert_requestComma {field : String} (h : FieldName field) (hkeys : ∀ piece ∈ keyPieces type, Inert field piece)
    (id pcSeq : Int) (hrid : Inert field (escape requestId.toList)) (hrpc : Inert field (escape runtimePc.toList)) :
    ∀ piece ∈ requestPieces type id pcSeq requestId runtimePc ++ [[',']], Inert field piece := by
  have hcomma : Inert field [','] := by
    refine hkeys _ (List.mem_append_left _ (List.mem_append_right _ ?_))
    exact List.mem_cons_of_mem _ (List.mem_cons_of_mem _ (List.mem_cons_self ..))
  exact List.forall_mem_append.mpr ⟨inert_request h hkeys id pcSeq hrid hrpc, List.forall_mem_singleton.mpr hcomma⟩

/-- The register list of a request is found, in order and in lower case. -/
theorem parse_registers (id pcSeq : Int) (hrid : Inert "registers" (escape requestId.toList))
    (hrpc : Inert "registers" (escape runtimePc.toList)) {registers : List String}
    (h : ∀ name ∈ registers, NamesRegister name) (hne : registers ≠ []) (hroom : registers.length ≤ maxRegisterValues)
    (rest : List Char) :
    parseRegisterList (requestLine type id pcSeq requestId runtimePc (',' :: quote :: ("registers".toList ++
      quote :: ':' :: '[' :: (encodeItems (registers.map .str) ++ ']' :: rest)))) =
        some (registers.map fun name => name.toList.map Char.toLower) := by
  have hkeys : ∀ piece ∈ keyPieces type, Inert "registers" piece := by cases type <;> decide
  have hinert := inert_requestComma fieldName_registers hkeys id pcSeq hrid hrpc
  have hline (text : List Char) : requestLine type id pcSeq requestId runtimePc (',' :: quote :: text) =
      joined quote (requestPieces type id pcSeq requestId runtimePc ++ [[',']]) text := by
    rw [joined_append]
    rfl
  have hgap : '[' ∉ quote :: ("registers".toList ++ [quote, ':']) := by decide
  have hsplit (text : List Char) : quote :: ("registers".toList ++ quote :: ':' :: '[' :: text) =
      quote :: ("registers".toList ++ [quote, ':']) ++ '[' :: text := by
    rw [List.cons_append, List.append_assoc]
    rfl
  have hscan := scanRegisterNames_encode registers h [] (by rw [List.length_nil]; omega) (.inl rfl) hne rest
  rw [List.nil_append, List.nil_append] at hscan
  rw [hline, parseRegisterList,
    strstr_field fieldName_registers (List.append_ne_nil_of_right_ne_nil _ (List.cons_ne_nil _ _)) hinert,
    Option.bind_some, hsplit, strchr_skip hgap, Option.bind_some, List.tail_cons, hscan, Option.filter_some,
    if_pos (by simp [hne])]

end registers

section memory
variable {type : MessageType} {requestId runtimePc address : String}

theorem fieldName_address : FieldName "address" := ⟨by decide, by decide, by rintro c ⟨⟩; decide⟩
theorem fieldName_size : FieldName "size" := ⟨by decide, by decide, by rintro c ⟨⟩; decide⟩

/-- The text of a memory request with anything behind its size. -/
def memoryLine (id pcSeq : Int) (requestId runtimePc address : String) (size : Int) (rest : List Char) : List Char :=
  requestLine .memRequest id pcSeq requestId runtimePc
    (joined quote ([[',']] ++ ["address".toList, [':'], escape address.toList] ++ [[',']] ++
      ["size".toList, numberPiece size]) rest)

theorem encodeFields_memory (address : String) (size : Int) {more : Payload} (hmore : more ≠ []) :
    ∃ rest, ',' :: (encodeFields ([("address", .str address), ("size", .int size)] ++ more) ++ ['}', '}']) =
      joined quote ([[',']] ++ ["address".toList, [':'], escape address.toList] ++ [[',']] ++
        ["size".toList, numberPiece size]) rest := by
  obtain ⟨tail, htail⟩ := encodeFields_head hmore
  obtain ⟨field, more, rfl⟩ := List.exists_cons_of_ne_nil hmore
  refine ⟨tail ++ ['}', '}'], ?_⟩
  simp (disch := decide) only [encode, encodeFields, encodeString_plain, List.cons_append, List.nil_append,
    List.append_assoc]
  rw [htail, encodeString]
  simp only [numberPiece, joined_cons, joined_nil, List.cons_append, List.nil_append, List.append_assoc]

theorem extract_address (id pcSeq : Int) (hrid : Inert "address" (escape requestId.toList))
    (hrpc : Inert "address" (escape runtimePc.toList)) (size : Int) (outSize : Nat) (rest : List Char) :
    extractJsonStringField (memoryLine id pcSeq requestId runtimePc address size rest) "address" outSize =
      fit outSize ((escape address.toList).takeWhile (· ≠ quote)) := by
  have hkeys : ∀ piece ∈ keyPieces .memRequest, Inert "address" piece := by decide
  have hinert := inert_requestComma fieldName_address hkeys id pcSeq hrid hrpc
  have hline : memoryLine id pcSeq requestId runtimePc address size rest =
      joined quote ((requestPieces .memRequest id pcSeq requestId runtimePc ++ [[',']]) ++
        (["address".toList, [':'], escape address.toList] ++ ([[',']] ++ ["size".toList, numberPiece size]))) rest := by
    rw [memoryLine, requestLine, ← joined_append]
    simp only [List.append_assoc]
  rw [hline, extractString_pieces fieldName_address hinert
    (List.append_ne_nil_of_right_ne_nil _ (List.cons_ne_nil _ _))]

theorem extract_size (id pcSeq : Int) (hrid : Inert "size" (escape requestId.toList))
    (hrpc : Inert "size" (escape runtimePc.toList)) (haddress : Inert "size" (escape address.toList)) (size : Int)
    (rest : List Char) :
    ∃ more, extractJsonUnsignedField (memoryLine id pcSeq requestId runtimePc address size rest) "size" =
      scanUnsigned (encodeInt size ++ ',' :: more) := by
  have hkeys : ∀ piece ∈ keyPieces .memRequest, Inert "size" piece := by decide
  have hinert := inert_requestComma fieldName_size hkeys id pcSeq hrid hrpc
  have hline : memoryLine id pcSeq requestId runtimePc address size rest =
      joined quote ((requestPieces .memRequest id pcSeq requestId runtimePc ++ [[',']] ++
        (["address".toList, [':'], escape address.toList] ++ [[',']])) ++
        (["size".toList, numberPiece size] ++ [])) rest := by
    rw [memoryLine, requestLine, ← joined_append]
    simp only [List.append_assoc, List.append_nil]
  have hbefore : ∀ piece ∈ ["address".toList, [':'], escape address.toList] ++ [[',']], Inert "size" piece := by
    refine List.forall_mem_append.mpr ⟨?_, by decide⟩
    exact List.forall_mem_cons.mpr
      ⟨by decide, List.forall_mem_cons.mpr ⟨by decide, List.forall_mem_singleton.mpr haddress⟩⟩
  rw [hline, extractUnsigned_pieces fieldName_size (List.forall_mem_append.mpr ⟨hinert, hbefore⟩)
    (List.append_ne_nil_of_right_ne_nil _ (List.cons_ne_nil _ _))]
  exact ⟨_, rfl⟩

end memory
end DynvarSync.Windbg
