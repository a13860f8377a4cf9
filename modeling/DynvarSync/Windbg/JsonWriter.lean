import DynvarSync.Windbg.FieldExtractors
import Mathlib.Algebra.Order.BigOperators.Group.List
import Mathlib.Algebra.Group.Action.Defs

/-! The extension's answers to memory requests, appended piece by piece to a buffer, and the
JSON values they are the written form of. -/
namespace DynvarSync.Windbg
open Lib PyText CText JsonText

/-- `DVS_MEM_JSON_BUFFER_SIZE`. -/
def memJsonBufferSize : Nat := 12288

/-- The buffer of an error answer, `DVS_JSON_BUFFER_SIZE * 2`. -/
def errorJsonBufferSize : Nat := 2048

/-- One append; the terminator needs a byte too. -/
def appendJson (bufferSize : Nat) (text piece : List Char) : Option (List Char) :=
  if bufferSize ≤ text.length ∨ bufferSize - text.length ≤ piece.length then none else some (text ++ piece)

/-- The appends of one answer, in order. -/
def appendAll (bufferSize : Nat) (pieces : List (List Char)) : Option (List Char) :=
  pieces.foldlM (appendJson bufferSize) []

/-- One character of a string; bytes from 0x20 on are not escaped. -/
def writerEscapeChar (c : Char) : List Char :=
  match shortEscapes.find? fun entry => entry.2 = c with
  | some entry => [backslash, entry.1]
  | none => if c.toNat < 32 then unicodeEscape c.toNat else [c]

/-- The appends of `DvsAppendJsonEscapedString`. -/
def escapedPieces (text : List Char) : List (List Char) := [quote] :: (text.map writerEscapeChar ++ [[quote]])

def unsignedText (n : Nat) : List Char := Nat.toDigits 10 n

/-- What both answers begin with. -/
def memResponseHead (messageId : UInt32) (pcSeq : Nat) (requestId runtimePc : List Char) (ok : String)
    (address : List Char) : List (List Char) :=
  ["\x7b\"protocol\":1,\"id\":".toList ++ unsignedText messageId.toNat ++
      ",\"type\":\"mem_response\",\"role\":\"windbg\",\"payload\":\x7b\"pc_seq\":".toList ++ unsignedText pcSeq ++
      ",\"request_id\":".toList] ++ escapedPieces requestId ++ [",\"runtime_pc\":".toList] ++ escapedPieces runtimePc ++
    [",\"ok\":".toList ++ ok.toList ++ ",\"address\":".toList] ++ escapedPieces address

/-- The answer to a read that succeeded. -/
def writeMemResponse (messageId : UInt32) (pcSeq : Nat) (requestId runtimePc address : List Char) (size : Nat)
    (bytes : List UInt8) : Option (List Char) :=
  appendAll memJsonBufferSize (memResponseHead messageId pcSeq requestId runtimePc "true" address ++
    [",\"size\":".toList ++ unsignedText size ++ ",\"bytes_hex\":\"".toList] ++ bytes.map hexPair ++
    ["\"\x7d\x7d".toList ++ [Char.ofNat 10]])

/-- The answer to a read that failed. -/
def writeMemErrorResponse (messageId : UInt32) (pcSeq : Nat) (requestId runtimePc address : List Char) (size : Nat)
    (code message : String) : Option (List Char) :=
  appendAll errorJsonBufferSize (memResponseHead messageId pcSeq requestId runtimePc "false" address ++
    [",\"size\":".toList ++ unsignedText size ++ ",\"error\":\x7b\"code\":".toList] ++ escapedPieces code.toList ++
    [",\"message\":".toList] ++
    escapedPieces message.toList ++ ["\x7d\x7d\x7d".toList ++ [Char.ofNat 10]])

section appends

/-- The appends succeed exactly when the whole text fits. -/
theorem appendAll_from (bufferSize : Nat) (pieces : List (List Char)) (text : List Char)
    (h : text.length < bufferSize) :
    pieces.foldlM (appendJson bufferSize) text = fit bufferSize (text ++ pieces.flatten) := by
  induction pieces generalizing text with
  | nil =>
    rw [List.flatten_nil, List.append_nil, fit, if_neg (by omega)]
    rfl
  | cons piece pieces ih =>
    rw [List.foldlM_cons, appendJson, List.flatten_cons, ← List.append_assoc]
    by_cases hfits : text.length + piece.length < bufferSize
    · have hlength : (text ++ piece).length < bufferSize := by rwa [List.length_append]
      rw [if_neg (by omega)]
      exact ih (text ++ piece) hlength
    · rw [if_pos (by omega), fit, if_pos (by rw [List.length_append, List.length_append]; omega)]
      rfl

theorem appendAll_eq {bufferSize : Nat} (h : 0 < bufferSize) (pieces : List (List Char)) :
    appendAll bufferSize pieces = fit bufferSize pieces.flatten := appendAll_from bufferSize pieces [] h

/-- On printable text the writer escapes as Python does. -/
theorem writerEscapeChar_eq {c : Char} (h : 32 ≤ c.toNat ∧ c.toNat < 127) : writerEscapeChar c = escapeChar c := by
  rw [writerEscapeChar, escapeChar]
  cases shortEscapes.find? fun entry => entry.2 = c with
  | some entry => rfl
  | none =>
    dsimp only
    rw [if_neg (by omega), if_pos h]

theorem flatten_escapedPieces {text : List Char} (h : Printable text) :
    (escapedPieces text).flatten = encodeString (String.ofList text) := by
  have hmap : text.map writerEscapeChar = text.map escapeChar :=
    List.map_congr_left fun c hc => writerEscapeChar_eq (h c hc)
  rw [escapedPieces, hmap, encodeString, String.toList_ofList, escape, List.flatten_cons, List.flatten_append,
    List.flatMap_def]
  rfl

end appends

section labels

theorem opening_text : "\x7b\"protocol\":1,\"id\":".toList =
    '{' :: (encodeString "protocol" ++ ':' :: '1' :: ',' :: (encodeString "id" ++ [':'])) := by decide

theorem requestId_text : ",\"request_id\":".toList = ',' :: (encodeString "request_id" ++ [':']) := by decide

theorem runtimePc_text : ",\"runtime_pc\":".toList = ',' :: (encodeString "runtime_pc" ++ [':']) := by decide

theorem ok_text : ",\"ok\":".toList = ',' :: (encodeString "ok" ++ [':']) := by decide

theorem okRegisters_text : ",\"ok\":true,\"registers\":\x7b".toList =
    ',' :: (encodeString "ok" ++ ':' :: 't' :: 'r' :: 'u' :: 'e' :: ',' ::
      (encodeString "registers" ++ [':', '{'])) := by
  decide

theorem address_text : ",\"address\":".toList = ',' :: (encodeString "address" ++ [':']) := by decide

theorem size_text : ",\"size\":".toList = ',' :: (encodeString "size" ++ [':']) := by decide

theorem closing_text : "\x7d\x7d\x7d".toList = ['}', '}', '}'] := by decide

theorem hexClosing_text : "\"\x7d\x7d".toList = [quote, '}', '}'] := by decide

theorem encodeInt_one : encodeInt 1 = ['1'] := by decide

end labels

section answers
variable (messageId : UInt32) (pcSeq : Nat) {requestId runtimePc address : List Char} (size : Nat)

/-- The message around an answer's payload. -/
def memResponseJson (messageId : UInt32) (payload : Payload) : Json :=
  .obj [("protocol", .int 1), ("id", .int messageId.toNat), ("type", .str "mem_response"), ("role", .str "windbg"),
    ("payload", .obj payload)]

/-- The fields both answers begin with. -/
def echoedFields (pcSeq : Nat) (requestId runtimePc : List Char) (ok : Bool) (address : List Char) (size : Nat) :
    Payload :=
  [("pc_seq", .int pcSeq), ("request_id", .str (String.ofList requestId)),
    ("runtime_pc", .str (String.ofList runtimePc)),
   ("ok", .bool ok), ("address", .str (String.ofList address)), ("size", .int size)]

theorem encodeInt_natCast (n : Nat) : encodeInt n = unsignedText n := by
  rw [encodeInt, if_neg (by omega), List.nil_append, Int.natAbs_natCast]
  rfl

theorem flatten_memResponseHead (hid : Printable requestId) (hpc : Printable runtimePc) (haddress : Printable address)
    (ok : Bool) {more : Payload} (hmore : more ≠ []) :
    encode (memResponseJson messageId (echoedFields pcSeq requestId runtimePc ok address size ++ more)) =
      (memResponseHead messageId pcSeq requestId runtimePc (if ok then "true" else "false") address).flatten ++
        ",\"size\":".toList ++ unsignedText size ++ ',' :: (encodeFields more ++ ['}', '}']) := by
  have hheader : ",\"type\":\"mem_response\",\"role\":\"windbg\",\"payload\":\x7b\"pc_seq\":".toList =
      ',' :: (encodeString "type" ++ ':' :: (encodeString "mem_response" ++ ',' :: (encodeString "role" ++
        ':' :: (encodeString "windbg" ++ ',' :: (encodeString "payload" ++ ':' :: '{' ::
          (encodeString "pc_seq" ++ [':'])))))) := by decide
  have htrue : "true".toList = ['t', 'r', 'u', 'e'] := by decide
  have hfalse : "false".toList = ['f', 'a', 'l', 's', 'e'] := by decide
  obtain ⟨field, more, rfl⟩ := List.exists_cons_of_ne_nil hmore
  cases ok <;>
    simp only [memResponseJson, echoedFields, memResponseHead, List.flatten_append, List.flatten_cons,
      flatten_escapedPieces hid, flatten_escapedPieces hpc, flatten_escapedPieces haddress, opening_text, hheader,
      requestId_text, runtimePc_text, ok_text, address_text, size_text, htrue, hfalse, encodeInt_one, encode,
      encodeFields, encodeInt_natCast, Bool.false_eq_true, if_true, if_false, List.append_assoc, List.cons_append,
      List.nil_append]

theorem plain_hexPairs (bytes : List UInt8) : Plain (bytes.flatMap hexPair) := by
  have hdigit : ∀ d < 16, plainChar (Nat.digitChar d) = true := by decide
  intro c hc
  obtain ⟨b, -, hb⟩ := List.mem_flatMap.mp hc
  have hbyte := b.toNat_lt
  simp only [hexPair, List.mem_cons, List.not_mem_nil, or_false] at hb
  rcases hb with rfl | rfl
  · exact hdigit _ (by omega)
  · exact hdigit _ (by omega)

/-- The answer to a successful read is the written form of its message. -/
theorem writeMemResponse_eq (hid : Printable requestId) (hpc : Printable runtimePc) (haddress : Printable address)
    (bytes : List UInt8) :
    writeMemResponse messageId pcSeq requestId runtimePc address size bytes =
      fit memJsonBufferSize
      (encode (memResponseJson messageId (echoedFields pcSeq requestId runtimePc true address size ++
        [("bytes_hex", .str (toHex bytes))])) ++ [Char.ofNat 10]) := by
  have hname : ",\"bytes_hex\":\"".toList = ',' :: (encodeString "bytes_hex" ++ [':', quote]) := by decide
  have hhex : encodeString (toHex bytes) = quote :: (bytes.flatMap hexPair ++ [quote]) := by
    rw [encodeString, toHex, String.toList_ofList, escape_plain (plain_hexPairs bytes)]
  rw [writeMemResponse, appendAll_eq (by decide),
    flatten_memResponseHead messageId pcSeq size hid hpc haddress true (List.cons_ne_nil _ _)]
  refine congrArg (fit memJsonBufferSize) ?_
  simp only [List.flatten_append, List.flatten_cons, List.flatten_nil, hname, hexClosing_text,
    encodeFields, encode, hhex, List.flatMap_def, if_true, List.append_assoc, List.cons_append, List.nil_append]

/-- The answer to a failed read is the written form of its message. -/
theorem writeMemErrorResponse_eq (hid : Printable requestId) (hpc : Printable runtimePc) (haddress : Printable address)
    {code message : String} (hcode : Printable code.toList) (hmessage : Printable message.toList) :
    writeMemErrorResponse messageId pcSeq requestId runtimePc address size code message =
      fit errorJsonBufferSize
      (encode (memResponseJson messageId (echoedFields pcSeq requestId runtimePc false address size ++
        [("error", .obj [("code", .str code), ("message", .str message)])])) ++ [Char.ofNat 10]) := by
  have hname : ",\"error\":\x7b\"code\":".toList =
      ',' :: (encodeString "error" ++ ':' :: '{' :: (encodeString "code" ++ [':'])) := by decide
  have hnext : ",\"message\":".toList = ',' :: (encodeString "message" ++ [':']) := by decide
  rw [writeMemErrorResponse, appendAll_eq (by decide),
    flatten_memResponseHead messageId pcSeq size hid hpc haddress false (List.cons_ne_nil _ _)]
  refine congrArg (fit errorJsonBufferSize) ?_
  simp only [List.flatten_append, List.flatten_cons, List.flatten_nil, flatten_escapedPieces hcode,
    flatten_escapedPieces hmessage, String.ofList_toList, hname, hnext, closing_text, encodeFields, encode,
    Bool.false_eq_true,
    if_false, List.append_assoc, List.cons_append, List.nil_append]

end answers

section lengths

theorem length_flatten_map_le {α β : Type} (f : α → List β) {n : Nat} {xs : List α} (h : ∀ x ∈ xs, (f x).length ≤ n) :
    (xs.map f).flatten.length ≤ n * xs.length := by
  have hsum := List.sum_le_card_nsmul (xs.map fun x => (f x).length) n (List.forall_mem_map.mpr h)
  rw [List.length_map, smul_eq_mul, Nat.mul_comm] at hsum
  rwa [List.length_flatten, List.map_map]

/-- A text whose characters take no more than so many characters each. -/
def Takes (n : Nat) (text : List Char) : Prop := ∀ c ∈ text, (writerEscapeChar c).length ≤ n

/-- A byte takes six characters at most. -/
theorem takes_six (text : List Char) : Takes 6 text := by
  intro c _
  rw [writerEscapeChar]
  cases shortEscapes.find? fun entry => entry.2 = c with
  | some entry => exact (by decide : 2 ≤ 6)
  | none =>
    dsimp only
    split
    · exact le_rfl
    · exact (by decide : 1 ≤ 6)

theorem takes_two {text : List Char} (h : Printable text) : Takes 2 text := by
  intro c hc
  rw [writerEscapeChar]
  cases shortEscapes.find? fun entry => entry.2 = c with
  | some entry => exact le_rfl
  | none =>
    dsimp only
    rw [if_neg (by have := h c hc; omega), List.length_singleton]
    omega

theorem takes_one {text : List Char} (h : Plain text) : Takes 1 text := by
  intro c hc
  obtain ⟨hlow, hhigh, -⟩ := (plainChar_iff c).mp (h c hc)
  rw [writerEscapeChar_eq ⟨hlow, hhigh⟩, escapeChar_plain (h c hc)]
  exact le_rfl

theorem length_escapedPieces {n : Nat} {text : List Char} (h : Takes n text) :
    (escapedPieces text).flatten.length ≤ n * text.length + 2 := by
  have hbody := length_flatten_map_le writerEscapeChar h
  rw [escapedPieces, List.flatten_cons, List.flatten_append, List.length_append, List.length_append]
  exact (by omega : 1 + ((text.map writerEscapeChar).flatten.length + 1) ≤ n * text.length + 2)

theorem length_unsignedText_le {n : Nat} (h : n < 2 ^ 32) : (unsignedText n).length ≤ 10 :=
  (Nat.length_toDigits_le_iff (by decide) (by decide)).mpr (by omega)

theorem length_hexPairs (bytes : List UInt8) : (bytes.map hexPair).flatten.length ≤ 2 * bytes.length :=
  length_flatten_map_le hexPair fun _ _ => le_rfl

variable (messageId : UInt32) {pcSeq size n : Nat} {requestId runtimePc address : List Char}

theorem length_memResponseHead (hseq : pcSeq < 2 ^ 32) (hid : Takes n requestId) (hpc : Takes n runtimePc)
    (haddress : Takes n address) {ok : String} (hok : ok.toList.length ≤ 5) :
    (memResponseHead messageId pcSeq requestId runtimePc ok address).flatten.length ≤
      154 + (n * requestId.length + n * runtimePc.length + n * address.length) := by
  have hidlength := length_escapedPieces hid
  have hpclength := length_escapedPieces hpc
  have haddresslength := length_escapedPieces haddress
  have hmessage := length_unsignedText_le messageId.toNat_lt
  have hseqlength := length_unsignedText_le hseq
  have hopening : "\x7b\"protocol\":1,\"id\":".toList.length = 19 := by decide
  have hheader : ",\"type\":\"mem_response\",\"role\":\"windbg\",\"payload\":\x7b\"pc_seq\":".toList.length = 59 := by
    decide
  have hrid : ",\"request_id\":".toList.length = 14 := by decide
  have hrpc : ",\"runtime_pc\":".toList.length = 14 := by decide
  have hflag : ",\"ok\":".toList.length = 6 := by decide
  have haddr : ",\"address\":".toList.length = 11 := by decide
  simp only [memResponseHead, List.flatten_append, List.flatten_cons, List.flatten_nil, List.length_append,
    List.length_nil]
  omega

theorem appendAll_fits {bufferSize : Nat} {pieces : List (List Char)} (h : pieces.flatten.length < bufferSize) :
    ∃ text, appendAll bufferSize pieces = some text := by
  rw [appendAll_eq (Nat.zero_lt_of_lt h), fit, if_neg (by omega)]
  exact ⟨_, rfl⟩

/-- An answer to a read of at most `DVS_MAX_MEMORY_READ_SIZE` bytes fits its buffer. -/
theorem memResponse_fits (hseq : pcSeq < 2 ^ 32) (hsize : size < 2 ^ 32) (hid : requestId.length < 128)
    (hpc : runtimePc.length < 64) (haddress : address.length < 64) {bytes : List UInt8} (hbytes : bytes.length ≤ 4096) :
    ∃ text, writeMemResponse messageId pcSeq requestId runtimePc address size bytes = some text := by
  have hhead := length_memResponseHead messageId hseq (takes_six requestId) (takes_six runtimePc) (takes_six address)
    (by decide : "true".toList.length ≤ 5)
  have hsizelength := length_unsignedText_le hsize
  have hhex := length_hexPairs bytes
  have hname : ",\"size\":".toList.length = 8 ∧ ",\"bytes_hex\":\"".toList.length = 14 ∧
      "\"\x7d\x7d".toList.length = 3 := by decide
  refine appendAll_fits ?_
  simp only [List.flatten_append, List.flatten_cons, List.flatten_nil, List.length_append, List.length_nil,
    List.length_cons, memJsonBufferSize]
  omega

/-- An error answer fits its buffer where the fields of the request and the message together leave room. -/
theorem memErrorResponse_fits {m : Nat} (hseq : pcSeq < 2 ^ 32) (hsize : size < 2 ^ 32) (hid : Takes n requestId)
    (hpc : Takes n runtimePc) (haddress : Takes n address) {code message : String} (hcode : Plain code.toList)
    (hcodelength : code.toList.length ≤ 15) (hmessage : Takes m message.toList)
    (hroom : n * requestId.length + n * runtimePc.length + n * address.length + m * message.toList.length ≤ 1800) :
    ∃ text, writeMemErrorResponse messageId pcSeq requestId runtimePc address size code message = some text := by
  have hhead := length_memResponseHead messageId hseq hid hpc haddress (by decide : "false".toList.length ≤ 5)
  have hsizelength := length_unsignedText_le hsize
  have hcodepieces := length_escapedPieces (takes_one hcode)
  have hmessagepieces := length_escapedPieces hmessage
  have hname : ",\"size\":".toList.length = 8 ∧ ",\"error\":\x7b\"code\":".toList.length = 17 ∧
      ",\"message\":".toList.length = 11 ∧ "\x7d\x7d\x7d".toList.length = 3 := by decide
  refine appendAll_fits ?_
  simp only [List.flatten_append, List.flatten_cons, List.flatten_nil, List.length_append, List.length_nil,
    List.length_cons, errorJsonBufferSize]
  omega

end lengths
end DynvarSync.Windbg
