import DynvarSync.Windbg.RegisterHandler
import DynvarSync.Lib.JsonPieces
import DynvarSync.Lib.Utf8

/-! The response writers on buffers of any size, for strings of any UTF-8 text: what they
write, when it fits, and what it is read as. -/
namespace DynvarSync.Windbg
open Lib PyText CText JsonText

/-- Bytes, each as the character of its code, and back. -/
def latin (bs : List UInt8) : List Char := bs.map fun b => Char.ofNat b.toNat

def toBytes (text : List Char) : List UInt8 := text.map fun c => UInt8.ofNat c.toNat

def lineFeed : Char := Char.ofNat 10

section pieces

def regResponsePieces (messageId : UInt32) (pcSeq : Nat) (requestId runtimePc : List Char)
    (values : List RegisterValue) : List (List Char) :=
  ["\x7b\"protocol\":1,\"id\":".toList ++ unsignedText messageId.toNat ++
      ",\"type\":\"reg_response\",\"role\":\"windbg\",\"payload\":\x7b\"pc_seq\":".toList ++ unsignedText pcSeq ++
      ",\"request_id\":".toList] ++ escapedPieces requestId ++ [",\"runtime_pc\":".toList] ++ escapedPieces runtimePc ++
    [",\"ok\":true,\"registers\":\x7b".toList] ++ registerPieces true values ++ ["\x7d\x7d\x7d".toList ++ [lineFeed]]

def memResponsePieces (messageId : UInt32) (pcSeq : Nat) (requestId runtimePc address : List Char) (size : Nat)
    (bytes : List UInt8) : List (List Char) :=
  memResponseHead messageId pcSeq requestId runtimePc "true" address ++
    [",\"size\":".toList ++ unsignedText size ++ ",\"bytes_hex\":\"".toList] ++ bytes.map hexPair ++
    ["\"\x7d\x7d".toList ++ [lineFeed]]

def memErrorPieces (messageId : UInt32) (pcSeq : Nat) (requestId runtimePc address : List Char) (size : Nat)
    (code message : List Char) : List (List Char) :=
  memResponseHead messageId pcSeq requestId runtimePc "false" address ++
    [",\"size\":".toList ++ unsignedText size ++ ",\"error\":\x7b\"code\":".toList] ++ escapedPieces code ++
    [",\"message\":".toList] ++
    escapedPieces message ++ ["\x7d\x7d\x7d".toList ++ [lineFeed]]

/-- `DvsWriteRegResponse` on any buffer. -/
def writeRegResponseIn (bufferSize : Nat) (messageId : UInt32) (pcSeq : Nat) (requestId runtimePc : List UInt8)
    (values : List RegisterValue) : Option (List UInt8) :=
  (appendAll bufferSize (regResponsePieces messageId pcSeq (latin requestId) (latin runtimePc) values)).map toBytes

/-- `DvsWriteMemResponse` on any buffer. -/
def writeMemResponseIn (bufferSize : Nat) (messageId : UInt32) (pcSeq : Nat) (requestId runtimePc address : List UInt8)
    (size : Nat) (bytes : List UInt8) : Option (List UInt8) :=
  (appendAll bufferSize
    (memResponsePieces messageId pcSeq (latin requestId) (latin runtimePc) (latin address) size bytes)).map toBytes

/-- `DvsWriteMemErrorResponse` on any buffer. -/
def writeMemErrorResponseIn (bufferSize : Nat) (messageId : UInt32) (pcSeq : Nat)
    (requestId runtimePc address : List UInt8) (size : Nat) (code message : List UInt8) : Option (List UInt8) :=
  (appendAll bufferSize (memErrorPieces messageId pcSeq (latin requestId) (latin runtimePc) (latin address) size
    (latin code) (latin message))).map toBytes

end pieces

section bytes

def Ascii (cs : List Char) : Prop := ∀ c ∈ cs, c.toNat < 128

instance (cs : List Char) : Decidable (Ascii cs) := List.decidableBAll (fun c : Char => c.toNat < 128) cs

theorem toBytes_append (cs ds : List Char) : toBytes (cs ++ ds) = toBytes cs ++ toBytes ds := List.map_append

theorem toBytes_ascii {cs : List Char} (h : Ascii cs) : toBytes cs = Utf8.bytes cs := by
  induction cs with
  | nil => rfl
  | cons c cs ih =>
    obtain ⟨hc, hcs⟩ := List.forall_mem_cons.mp h
    rw [Utf8.bytes_cons, Utf8.utf8EncodeChar_ascii hc, ← ih hcs]
    rfl

theorem toNat_latin (b : UInt8) : (Char.ofNat b.toNat).toNat = b.toNat := by
  have hlt := b.toNat_lt
  have hvalid : b.toNat.isValidChar := .inl (by omega)
  rw [Char.ofNat, dif_pos hvalid]
  rfl

theorem toBytes_latin (bs : List UInt8) : toBytes (latin bs) = bs := by
  rw [toBytes, latin, List.map_map]
  refine (List.map_congr_left fun b _ => ?_).trans (List.map_id bs)
  rw [Function.comp_apply, toNat_latin, UInt8.ofNat_toNat]
  rfl

theorem length_toBytes (cs : List Char) : (toBytes cs).length = cs.length := List.length_map ..

theorem length_latin (bs : List UInt8) : (latin bs).length = bs.length := List.length_map ..

theorem ascii_unicodeEscape (n : Nat) : Ascii (unicodeEscape n) := fun c hc =>
  Nat.lt_of_lt_of_le (printable_unicodeEscape n c hc).2 (by decide)

theorem ascii_writerEscapeChar {c : Char} (h : c.toNat < 128) : Ascii (writerEscapeChar c) := by
  have hletters : ∀ entry ∈ shortEscapes, Ascii [backslash, entry.1] := by decide
  rw [writerEscapeChar]
  cases hfind : shortEscapes.find? fun entry => entry.2 = c with
  | some entry => exact hletters entry (List.mem_of_find?_eq_some hfind)
  | none =>
    dsimp only
    split
    · exact ascii_unicodeEscape c.toNat
    · exact List.forall_mem_singleton.mpr h

/-- A character from 0x80 on is written as it is. -/
theorem writerEscapeChar_wide {c : Char} (h : 128 ≤ c.toNat) : writerEscapeChar c = [c] := by
  have hcodes : ∀ entry ∈ shortEscapes, entry.2.toNat < 128 := by decide
  have hnone : shortEscapes.find? (fun entry => entry.2 = c) = none := by
    refine List.find?_eq_none.mpr fun entry hentry heq => ?_
    have hlow := hcodes entry hentry
    rw [of_decide_eq_true heq] at hlow
    omega
  rw [writerEscapeChar, hnone]
  exact if_neg (by omega)

/-- Escaping the bytes of a text gives the bytes of the escaped text. -/
theorem toBytes_escape (text : List Char) :
    toBytes ((latin (Utf8.bytes text)).flatMap writerEscapeChar) = Utf8.bytes (text.flatMap writerEscapeChar) := by
  induction text with
  | nil => rfl
  | cons c text ih =>
    have hfirst : toBytes ((latin (String.utf8EncodeChar c)).flatMap writerEscapeChar) =
        Utf8.bytes (writerEscapeChar c) := by
      rcases Nat.lt_or_ge c.toNat 128 with hascii | hwide
      · have hbyte : latin (String.utf8EncodeChar c) = [c] := by
          rw [Utf8.utf8EncodeChar_ascii hascii, latin, List.map_singleton,
            UInt8.toNat_ofNat_of_lt' (by rw [UInt8.size]; omega),
            Char.ofNat_toNat]
        rw [hbyte, List.flatMap_singleton, toBytes_ascii (ascii_writerEscapeChar hascii)]
      · have hbytes : (latin (String.utf8EncodeChar c)).flatMap writerEscapeChar = latin (String.utf8EncodeChar c) := by
          rw [latin, List.flatMap_map, List.map_eq_flatMap]
          refine List.flatMap_congr fun b hb => writerEscapeChar_wide ?_
          rw [toNat_latin]
          exact Utf8.utf8EncodeChar_wide hwide b hb
        rw [hbytes, toBytes_latin, writerEscapeChar_wide hwide, Utf8.bytes, List.flatMap_singleton]
    rw [Utf8.bytes_cons, latin, List.map_append, List.flatMap_append, List.flatMap_cons, toBytes_append,
      Utf8.bytes_append]
    exact congrArg₂ (· ++ ·) hfirst ih

theorem flatten_escaped (text : List Char) :
    (escapedPieces text).flatten = quote :: (text.flatMap writerEscapeChar ++ [quote]) := by
  rw [escapedPieces, List.flatten_cons, List.flatten_append, List.flatMap_def]
  rfl

theorem toBytes_escapedPieces (text : List Char) :
    toBytes (escapedPieces (latin (Utf8.bytes text))).flatten = Utf8.bytes (escapedPieces text).flatten := by
  have hquote : toBytes [quote] = Utf8.bytes [quote] := toBytes_ascii (by decide)
  have hcons (cs : List Char) : quote :: (cs ++ [quote]) = [quote] ++ (cs ++ [quote]) := rfl
  rw [flatten_escaped, flatten_escaped, hcons, hcons, toBytes_append, toBytes_append, Utf8.bytes_append,
    Utf8.bytes_append,
    toBytes_escape, hquote]

/-- Pieces written from a text's bytes and the same pieces written from the text. -/
def SameBytes (written pieces : List (List Char)) : Prop := toBytes written.flatten = Utf8.bytes pieces.flatten

theorem SameBytes.append {written pieces more others : List (List Char)} (h : SameBytes written pieces)
    (hmore : SameBytes more others) : SameBytes (written ++ more) (pieces ++ others) := by
  rw [SameBytes, List.flatten_append, List.flatten_append, toBytes_append, Utf8.bytes_append, h, hmore]

theorem sameBytes_escaped (text : List Char) :
    SameBytes (escapedPieces (latin (Utf8.bytes text))) (escapedPieces text) := toBytes_escapedPieces text

theorem sameBytes_ascii {pieces : List (List Char)} (h : Ascii pieces.flatten) : SameBytes pieces pieces :=
  toBytes_ascii h

theorem sameBytes_piece {piece : List Char} (h : Ascii piece) : SameBytes [piece] [piece] :=
  sameBytes_ascii (by rwa [List.flatten_singleton])

theorem ascii_append {cs ds : List Char} (hcs : Ascii cs) (hds : Ascii ds) : Ascii (cs ++ ds) :=
  List.forall_mem_append.mpr ⟨hcs, hds⟩

theorem ascii_of_printable {cs : List Char} (h : Printable cs) : Ascii cs :=
  fun c hc => Nat.lt_of_lt_of_le (h c hc).2 (by decide)

theorem ascii_unsignedText (n : Nat) : Ascii (unsignedText n) :=
  encodeInt_natCast n ▸ ascii_of_printable (printable_encodeInt n)

theorem wellFormed_registerFields (values : List RegisterValue) : WellFormedFields (registerFields values) := by
  induction values with
  | nil => trivial
  | cons v values ih =>
    cases hok : v.ok with
    | false => rwa [registerFields_cons_failed hok]
    | true =>
      rw [registerFields_cons hok]
      exact ⟨trivial, ih⟩

theorem ascii_registerPieces {values : List RegisterValue} (h : ∀ v ∈ values, v.ok = true → Plain v.name) :
    Ascii (registerPieces true values).flatten := by
  rw [flatten_registerPieces h]
  exact ascii_of_printable (printable_encodeFields _ (wellFormed_registerFields values).floatFree)

theorem ascii_hexPairs (bytes : List UInt8) : Ascii (bytes.map hexPair).flatten := by
  rw [← List.flatMap_def]
  exact ascii_of_printable (plain_hexPairs bytes).printable

variable (messageId : UInt32) (pcSeq size : Nat) (requestId runtimePc address : List Char)

theorem sameBytes_opening (type : String) (htype : Ascii type.toList) :
    SameBytes ["\x7b\"protocol\":1,\"id\":".toList ++ unsignedText messageId.toNat ++
      type.toList ++ unsignedText pcSeq ++
        ",\"request_id\":".toList]
      ["\x7b\"protocol\":1,\"id\":".toList ++ unsignedText messageId.toNat ++ type.toList ++ unsignedText pcSeq ++
        ",\"request_id\":".toList] :=
  sameBytes_piece (ascii_append (ascii_append (ascii_append (ascii_append (by decide) (ascii_unsignedText _)) htype)
    (ascii_unsignedText _)) (by decide))

theorem sameBytes_regResponse {values : List RegisterValue} (h : ∀ v ∈ values, v.ok = true → Plain v.name) :
    SameBytes (regResponsePieces messageId pcSeq (latin (Utf8.bytes requestId)) (latin (Utf8.bytes runtimePc)) values)
      (regResponsePieces messageId pcSeq requestId runtimePc values) :=
  (((((sameBytes_opening messageId pcSeq _ (by decide)).append (sameBytes_escaped requestId)).append
    (sameBytes_piece (by decide))).append (sameBytes_escaped runtimePc)).append (sameBytes_piece (by decide))).append
    (sameBytes_ascii (ascii_registerPieces h)) |>.append (sameBytes_piece (by decide))

theorem sameBytes_memResponseHead (ok : String) (hok : Ascii ok.toList) :
    SameBytes (memResponseHead messageId pcSeq (latin (Utf8.bytes requestId)) (latin (Utf8.bytes runtimePc)) ok
        (latin (Utf8.bytes address)))
      (memResponseHead messageId pcSeq requestId runtimePc ok address) :=
  ((((sameBytes_opening messageId pcSeq _ (by decide)).append (sameBytes_escaped requestId)).append
    (sameBytes_piece (by decide))).append (sameBytes_escaped runtimePc)).append
    (sameBytes_piece (ascii_append (ascii_append (by decide) hok) (by decide))) |>.append (sameBytes_escaped address)

theorem sameBytes_memResponse (bytes : List UInt8) :
    SameBytes (memResponsePieces messageId pcSeq (latin (Utf8.bytes requestId)) (latin (Utf8.bytes runtimePc))
        (latin (Utf8.bytes address)) size bytes)
      (memResponsePieces messageId pcSeq requestId runtimePc address size bytes) :=
  (((sameBytes_memResponseHead messageId pcSeq requestId runtimePc address "true" (by decide)).append
    (sameBytes_piece (ascii_append (ascii_append (by decide) (ascii_unsignedText size)) (by decide)))).append
    (sameBytes_ascii (ascii_hexPairs bytes))).append (sameBytes_piece (by decide))

theorem sameBytes_memError (code message : List Char) :
    SameBytes (memErrorPieces messageId pcSeq (latin (Utf8.bytes requestId)) (latin (Utf8.bytes runtimePc))
        (latin (Utf8.bytes address)) size (latin (Utf8.bytes code)) (latin (Utf8.bytes message)))
      (memErrorPieces messageId pcSeq requestId runtimePc address size code message) :=
  (((((sameBytes_memResponseHead messageId pcSeq requestId runtimePc address "false" (by decide)).append
    (sameBytes_piece (ascii_append (ascii_append (by decide) (ascii_unsignedText size)) (by decide)))).append
    (sameBytes_escaped code)).append (sameBytes_piece (by decide))).append (sameBytes_escaped message)).append
    (sameBytes_piece (by decide))

end bytes

section reading

/-- A character of a string is read back as itself. -/
theorem readString_writerEscapeChar (c : Char) (rest : List Char) :
    readString (writerEscapeChar c ++ rest) = (readString rest).map fun p => (c :: p.1, p.2) := by
  rw [writerEscapeChar]
  cases hfind : shortEscapes.find? (fun entry => entry.2 = c) with
  | some entry =>
    have hc : entry.2 = c := by simpa using List.find?_some hfind
    dsimp only [List.cons_append, List.nil_append]
    rw [readString_short (List.mem_of_find?_eq_some hfind), hc]
  | none =>
    have hother : ∀ entry ∈ shortEscapes, entry.2 ≠ c := by simpa using List.find?_eq_none.mp hfind
    dsimp only
    split
    · rename_i hcontrol
      have hlow : isLowSurrogate c.toNat = false := by simp [isLowSurrogate]; omega
      have hhigh : isHighSurrogate c.toNat = false := by simp [isHighSurrogate]; omega
      rw [readString_unicode (by omega) hlow hhigh, Char.ofNat_toNat]
    · rename_i hvisible
      have hquote : c ≠ quote := (hother (quote, quote) (by decide)).symm
      have hbackslash : c ≠ backslash := (hother (backslash, backslash) (by decide)).symm
      exact readString_plain hquote hbackslash (by omega) rest

theorem spells_writer (text : List Char) : Spells text (text.flatMap writerEscapeChar) := by
  intro rest
  induction text with
  | nil => exact readString_quote rest
  | cons c text ih =>
    rw [List.flatMap_cons, List.append_assoc, readString_writerEscapeChar, ih]
    rfl

theorem writes_escaped (text : List Char) : Writes (.str (String.ofList text)) (escapedPieces text).flatten := by
  rw [flatten_escaped]
  exact writes_string (by rw [String.toList_ofList]; exact spells_writer text)

/-- No control characters. -/
def Visible (cs : List Char) : Prop := ∀ c ∈ cs, 32 ≤ c.toNat

instance (cs : List Char) : Decidable (Visible cs) := List.decidableBAll (fun c : Char => 32 ≤ c.toNat) cs

theorem visible_append {cs ds : List Char} (hcs : Visible cs) (hds : Visible ds) : Visible (cs ++ ds) :=
  List.forall_mem_append.mpr ⟨hcs, hds⟩

theorem visible_of_printable {cs : List Char} (h : Printable cs) : Visible cs := fun c hc => (h c hc).1

theorem visible_writerEscapeChar (c : Char) : Visible (writerEscapeChar c) := by
  have hletters : ∀ entry ∈ shortEscapes, Visible [backslash, entry.1] := by decide
  rw [writerEscapeChar]
  cases hfind : shortEscapes.find? fun entry => entry.2 = c with
  | some entry => exact hletters entry (List.mem_of_find?_eq_some hfind)
  | none =>
    dsimp only
    split
    · exact visible_of_printable (printable_unicodeEscape c.toNat)
    · exact List.forall_mem_singleton.mpr (by omega)

theorem visible_escaped (text : List Char) : Visible (escapedPieces text).flatten := by
  rw [flatten_escaped]
  refine List.forall_mem_cons.mpr ⟨by decide, visible_append (fun c hc => ?_) (by decide)⟩
  obtain ⟨d, -, hd⟩ := List.mem_flatMap.mp hc
  exact visible_writerEscapeChar d c hd

theorem visible_flatten_append {pieces more : List (List Char)} (h : Visible pieces.flatten)
    (hmore : Visible more.flatten) : Visible (pieces ++ more).flatten := by
  rw [List.flatten_append]
  exact visible_append h hmore

theorem visible_piece {piece : List Char} (h : Visible piece) : Visible [piece].flatten := by
  rwa [List.flatten_singleton]

theorem visible_unsignedText (n : Nat) : Visible (unsignedText n) :=
  encodeInt_natCast n ▸ visible_of_printable (printable_encodeInt n)

/-- What stands before the last line feed. -/
theorem visible_body {pieces : List (List Char)} {closing body : List Char} (hpieces : Visible pieces.flatten)
    (hclosing : Visible closing) (h : (pieces ++ [closing ++ [lineFeed]]).flatten = body ++ [lineFeed]) :
    Visible body := by
  rw [List.flatten_append, List.flatten_singleton, ← List.append_assoc] at h
  rw [← List.append_cancel_right h]
  exact visible_append hpieces hclosing

/-- The bytes of a text without control characters hold no line feed. -/
theorem not_mem_lineFeed {cs : List Char} (h : Visible cs) : (10 : UInt8) ∉ Utf8.bytes cs := by
  intro hmem
  obtain ⟨c, hc, hbyte⟩ := List.mem_flatMap.mp hmem
  have hvisible := h c hc
  rcases Nat.lt_or_ge c.toNat 128 with hascii | hwide
  · rw [Utf8.utf8EncodeChar_ascii hascii, List.mem_singleton] at hbyte
    have hnat := congrArg UInt8.toNat hbyte
    rw [UInt8.toNat_ofNat_of_lt' (by rw [UInt8.size]; omega)] at hnat
    rw [← hnat] at hvisible
    exact absurd hvisible (by decide)
  · have hlarge := Utf8.utf8EncodeChar_wide hwide _ hbyte
    exact absurd hlarge (by decide)

theorem writes_natural (n : Nat) : Writes (.int n) (unsignedText n) := encodeInt_natCast n ▸ writes_encode trivial

/-- The message around a payload. -/
theorem writes_envelope (messageId : UInt32) (type : String) {payload : Json} {text : List Char}
    (h : Writes payload text) :
    Writes (.obj [("protocol", .int 1), ("id", .int messageId.toNat), ("type", .str type), ("role", .str "windbg"),
        ("payload", payload)])
      ("\x7b\"protocol\":1,\"id\":".toList ++ unsignedText messageId.toNat ++ ",\"type\":".toList ++
        encodeString type ++ ",\"role\":\"windbg\",\"payload\":".toList ++ text ++ ['}']) := by
  have hkeys : ["protocol", "id", "type", "role", "payload"].Nodup := by decide
  have htype : ",\"type\":".toList = ',' :: (encodeString "type" ++ [':']) := by decide
  have hrole : ",\"role\":\"windbg\",\"payload\":".toList =
      ',' :: (encodeString "role" ++ ':' :: (encodeString "windbg" ++ ',' :: (encodeString "payload" ++ [':']))) :=
      by decide
  have hone : encode (.int 1) = ['1'] := by decide
  have hstring (s : String) : encode (.str s) = encodeString s := rfl
  have hfields := WritesFields.more (k := "protocol") (writes_encode (x := .int 1) trivial)
    (WritesFields.more (k := "id") (writes_natural messageId.toNat)
      (.more (k := "type") (writes_encode (x := .str type) trivial)
        (.more (k := "role") (writes_encode (x := .str "windbg") trivial) (.last (k := "payload") h))))
  have hwrites := writes_obj hfields hkeys
  simp only [opening_text, htype, hrole, hone, hstring, List.append_assoc, List.cons_append,
    List.nil_append] at hwrites ⊢
  exact hwrites

variable (messageId : UInt32) (pcSeq size : Nat) (requestId runtimePc address : List Char)

/-- The text of a register answer's message. -/
theorem writes_regResponse {values : List RegisterValue} (hplain : ∀ v ∈ values, v.ok = true → Plain v.name)
    (hdistinct : ((registerFields values).map Prod.fst).Nodup) :
    ∃ body, (regResponsePieces messageId pcSeq requestId runtimePc values).flatten = body ++ [lineFeed] ∧
      Writes (regResponseJson messageId (regResponsePayload pcSeq requestId runtimePc values)) body := by
  have hkeys : ["pc_seq", "request_id", "runtime_pc", "ok", "registers"].Nodup := by decide
  have hregisters : Writes (.obj (registerFields values)) (encode (.obj (registerFields values))) :=
    writes_encode ⟨hdistinct, wellFormed_registerFields values⟩
  have hfields := WritesFields.more (k := "pc_seq") (writes_natural pcSeq)
    (.more (k := "request_id") (writes_escaped requestId) (.more (k := "runtime_pc") (writes_escaped runtimePc)
      (.more (k := "ok") (writes_encode (x := .bool true) trivial) (.last (k := "registers") hregisters))))
  have hheader : ",\"type\":\"reg_response\",\"role\":\"windbg\",\"payload\":\x7b\"pc_seq\":".toList =
      ",\"type\":".toList ++ (encodeString "reg_response" ++ (",\"role\":\"windbg\",\"payload\":".toList ++
        '{' :: (encodeString "pc_seq" ++ [':']))) := by decide
  refine ⟨_, ?_, writes_envelope messageId "reg_response" (writes_obj hfields hkeys)⟩
  simp only [regResponsePieces, List.flatten_append, List.flatten_cons, List.flatten_nil, flatten_registerPieces hplain,
    hheader, requestId_text, runtimePc_text, okRegisters_text, closing_text, encode, List.append_assoc,
    List.cons_append, List.nil_append]

/-- The text of a memory answer's message, whatever follows the fields both answers begin with. -/
theorem writes_memResponse (ok : Bool) {more : Payload} {texts : List Char} (hmore : WritesFields more texts)
    (hkeys : (["pc_seq", "request_id", "runtime_pc", "ok", "address", "size"] ++ more.map Prod.fst).Nodup) :
    Writes (memResponseJson messageId (echoedFields pcSeq requestId runtimePc ok address size ++ more))
      ((memResponseHead messageId pcSeq requestId runtimePc (if ok then "true" else "false") address).flatten ++
        ",\"size\":".toList ++ unsignedText size ++ ',' :: (texts ++ ['}', '}'])) := by
  have hfields := WritesFields.more (k := "pc_seq") (writes_natural pcSeq)
    (.more (k := "request_id") (writes_escaped requestId) (.more (k := "runtime_pc") (writes_escaped runtimePc)
      (.more (k := "ok") (writes_encode (x := .bool ok) trivial) (.more (k := "address") (writes_escaped address)
        (.more (k := "size") (writes_natural size) hmore)))))
  have hheader : ",\"type\":\"mem_response\",\"role\":\"windbg\",\"payload\":\x7b\"pc_seq\":".toList =
      ",\"type\":".toList ++ (encodeString "mem_response" ++ (",\"role\":\"windbg\",\"payload\":".toList ++
        '{' :: (encodeString "pc_seq" ++ [':']))) := by decide
  have hflag : encode (.bool ok) = (if ok then "true" else "false").toList := by cases ok <;> decide
  have hwrites := writes_envelope messageId "mem_response" (writes_obj hfields hkeys)
  simp only [memResponseHead, List.flatten_append, List.flatten_cons, hheader, requestId_text, runtimePc_text,
    ok_text, address_text, size_text, hflag, List.append_assoc, List.cons_append, List.nil_append] at hwrites ⊢
  exact hwrites

theorem writes_memRead (bytes : List UInt8) :
    ∃ body, (memResponsePieces messageId pcSeq requestId runtimePc address size bytes).flatten = body ++ [lineFeed] ∧
      Writes (memResponseJson messageId
        (echoedFields pcSeq requestId runtimePc true address size ++ [("bytes_hex", .str (toHex bytes))])) body := by
  have hname : ",\"bytes_hex\":\"".toList = ',' :: (encodeString "bytes_hex" ++ [':', quote]) := by decide
  have hkeys : (["pc_seq", "request_id", "runtime_pc", "ok", "address", "size"] ++ ["bytes_hex"]).Nodup := by decide
  have hhex : encode (.str (toHex bytes)) = quote :: ((bytes.map hexPair).flatten ++ [quote]) := by
    rw [encode, encodeString, toHex, String.toList_ofList, escape_plain (plain_hexPairs bytes), List.flatMap_def]
  refine ⟨_, ?_, writes_memResponse messageId pcSeq size requestId runtimePc address true
    (.last (k := "bytes_hex") (writes_encode (x := .str (toHex bytes)) trivial)) hkeys⟩
  simp only [memResponsePieces, List.flatten_append, List.flatten_cons, List.flatten_nil, hname, hexClosing_text,
    hhex, if_true, List.append_assoc, List.cons_append, List.nil_append]

theorem writes_memError (code message : List Char) :
    ∃ body, (memErrorPieces messageId pcSeq requestId runtimePc address size code message).flatten =
      body ++ [lineFeed] ∧
      Writes (memResponseJson messageId (echoedFields pcSeq requestId runtimePc false address size ++
        [("error", .obj [("code", .str (String.ofList code)), ("message", .str (String.ofList message))])])) body := by
  have hname : ",\"error\":\x7b\"code\":".toList =
      ',' :: (encodeString "error" ++ ':' :: '{' :: (encodeString "code" ++ [':'])) := by decide
  have hnext : ",\"message\":".toList = ',' :: (encodeString "message" ++ [':']) := by decide
  have hfields : (["pc_seq", "request_id", "runtime_pc", "ok", "address", "size"] ++ ["error"]).Nodup := by decide
  have hkeys : ["code", "message"].Nodup := by decide
  have herror := writes_obj
    (.more (k := "code") (writes_escaped code) (.last (k := "message") (writes_escaped message))) hkeys
  refine ⟨_, ?_, writes_memResponse messageId pcSeq size requestId runtimePc address false
    (.last (k := "error") herror) hfields⟩
  simp only [memErrorPieces, List.flatten_append, List.flatten_cons, List.flatten_nil, hname, hnext, closing_text,
    Bool.false_eq_true, if_false, List.append_assoc, List.cons_append, List.nil_append]

theorem visible_opening {type : String} (h : Visible type.toList) :
    Visible ["\x7b\"protocol\":1,\"id\":".toList ++ unsignedText messageId.toNat ++ type.toList ++ unsignedText pcSeq ++
      ",\"request_id\":".toList].flatten :=
  visible_piece (visible_append (visible_append (visible_append (visible_append (by decide) (visible_unsignedText _)) h)
    (visible_unsignedText _)) (by decide))

theorem visible_regResponse {values : List RegisterValue} (hplain : ∀ v ∈ values, v.ok = true → Plain v.name)
    {body : List Char}
    (h : (regResponsePieces messageId pcSeq requestId runtimePc values).flatten = body ++ [lineFeed]) :
    Visible body := by
  have hregisters : Visible (registerPieces true values).flatten := by
    rw [flatten_registerPieces hplain]
    exact visible_of_printable (printable_encodeFields _ (wellFormed_registerFields values).floatFree)
  refine visible_body ?_ (by decide) h
  exact visible_flatten_append (visible_flatten_append (visible_flatten_append (visible_flatten_append
    (visible_flatten_append (visible_opening messageId pcSeq (by decide)) (visible_escaped requestId))
    (visible_piece (by decide))) (visible_escaped runtimePc)) (visible_piece (by decide))) hregisters

theorem visible_memResponseHead {ok : String} (hok : Visible ok.toList) :
    Visible (memResponseHead messageId pcSeq requestId runtimePc ok address).flatten :=
  visible_flatten_append (visible_flatten_append (visible_flatten_append (visible_flatten_append
    (visible_flatten_append (visible_opening messageId pcSeq (by decide)) (visible_escaped requestId))
    (visible_piece (by decide))) (visible_escaped runtimePc))
    (visible_piece (visible_append (visible_append (by decide) hok) (by decide)))) (visible_escaped address)

theorem visible_size {name : String} (h : Visible name.toList) :
    Visible [",\"size\":".toList ++ unsignedText size ++ name.toList].flatten :=
  visible_piece (visible_append (visible_append (by decide) (visible_unsignedText size)) h)

theorem visible_memRead {bytes : List UInt8} {body : List Char}
    (h : (memResponsePieces messageId pcSeq requestId runtimePc address size bytes).flatten = body ++ [lineFeed]) :
    Visible body := by
  have hhex : Visible (bytes.map hexPair).flatten := by
    rw [← List.flatMap_def]
    exact visible_of_printable (plain_hexPairs bytes).printable
  refine visible_body ?_ (by decide) h
  exact visible_flatten_append (visible_flatten_append
    (visible_memResponseHead messageId pcSeq requestId runtimePc address (by decide))
    (visible_size size (by decide))) hhex

theorem visible_memError {code message body : List Char}
    (h : (memErrorPieces messageId pcSeq requestId runtimePc address size code message).flatten = body ++ [lineFeed]) :
    Visible body := by
  refine visible_body ?_ (by decide) h
  exact visible_flatten_append (visible_flatten_append (visible_flatten_append (visible_flatten_append
    (visible_memResponseHead messageId pcSeq requestId runtimePc address (by decide)) (visible_size size (by decide)))
    (visible_escaped code)) (visible_piece (by decide))) (visible_escaped message)

end reading

section exact

/-- The complete text of a writer's answer: written exactly when it fits with its terminator, one line, and read as the
message. -/
structure CompleteText (write : Nat → Option (List UInt8)) (message : Json) (text : List UInt8) : Prop where
  written : ∀ bufferSize out, write bufferSize = some out ↔ out = text ∧ text.length + 1 ≤ bufferSize
  oneLine : ∃ body, text = body ++ [10] ∧ 10 ∉ body
  read : (Utf8.decode? text).bind JsonText.decode = some message

/-- The appends write their text exactly when it fits. -/
theorem map_appendAll_eq_some_iff {pieces : List (List Char)} (hne : pieces ≠ []) (bufferSize : Nat)
    (out : List UInt8) :
    (appendAll bufferSize pieces).map toBytes = some out ↔
      out = toBytes pieces.flatten ∧ (toBytes pieces.flatten).length + 1 ≤ bufferSize := by
  rw [length_toBytes]
  rcases Nat.eq_zero_or_pos bufferSize with rfl | hpos
  · obtain ⟨piece, more, rfl⟩ := List.exists_cons_of_ne_nil hne
    have hnone : appendAll 0 (piece :: more) = none := by
      rw [appendAll, List.foldlM_cons, appendJson, if_pos (.inl (Nat.zero_le _))]
      rfl
    rw [hnone, Option.map_none]
    exact ⟨fun h => absurd h.symm (Option.some_ne_none out), fun h => absurd h.2 (Nat.not_succ_le_zero _)⟩
  · rw [appendAll_eq hpos]
    constructor
    · intro h
      obtain ⟨text, htext, rfl⟩ := Option.map_eq_some_iff.mp h
      obtain ⟨rfl, hlength⟩ := fit_inv htext
      exact ⟨rfl, hlength⟩
    · rintro ⟨rfl, hlength⟩
      rw [fit, if_neg (by omega)]
      rfl

theorem lineFeed_blank : ∀ c ∈ [lineFeed], jsonSpace c = true := List.forall_mem_singleton.mpr rfl

/-- A text without control characters before its line feed, read as a message. -/
theorem completeText_of_writes {written pieces : List (List Char)} (hne : written ≠ [])
    (hsame : SameBytes written pieces) {body : List Char} (hbody : pieces.flatten = body ++ [lineFeed])
    (hvisible : Visible body) {message : Json} (hwrites : Writes message body) :
    CompleteText (fun bufferSize => (appendAll bufferSize written).map toBytes) message
    (Utf8.bytes pieces.flatten) where
  written bufferSize out := hsame ▸ map_appendAll_eq_some_iff hne bufferSize out
  oneLine := by
    have hlineFeed : Utf8.bytes [lineFeed] = [10] := (toBytes_ascii (by decide)).symm
    refine ⟨Utf8.bytes body, ?_, not_mem_lineFeed hvisible⟩
    rw [hbody, Utf8.bytes_append, hlineFeed]
  read := by
    rw [(Utf8.decode?_eq_some_iff _ _).mpr rfl, Option.bind_some, hbody]
    exact hwrites.decode lineFeed_blank

theorem plain_of_supportedName {name : List Char} (h : String.ofList name ∈ supportedRegisters) : Plain name := by
  have hsupported : ∀ supported ∈ supportedRegisters, Plain supported.toList := by decide
  have hname := hsupported _ h
  rwa [String.toList_ofList] at hname

theorem nodup_registerFields {values : List RegisterValue} (h : (values.map RegisterValue.name).Nodup) :
    ((registerFields values).map Prod.fst).Nodup := by
  have hnames : (registerFields values).map Prod.fst =
      ((values.filter RegisterValue.ok).map RegisterValue.name).map String.ofList := by
    rw [registerFields, List.map_map, List.map_map]
    rfl
  rw [hnames]
  exact ((List.filter_sublist.map RegisterValue.name).nodup h).map fun _ _ h => String.ofList_injective h

/-- Each writer writes one text, whenever that fits, and the text is read as the values it was written from. -/
theorem responses_exact (messageId : UInt32) (pcSeq size : Nat) (requestId runtimePc address code message : List Char)
    (bytes : List UInt8) {values : List RegisterValue}
    (hsupported : ∀ v ∈ values, String.ofList v.name ∈ supportedRegisters)
    (hdistinct : (values.map RegisterValue.name).Nodup) :
    (∃ text, CompleteText (fun bufferSize => writeRegResponseIn bufferSize messageId pcSeq (Utf8.bytes requestId)
      (Utf8.bytes runtimePc) values)
        (regResponseJson messageId (regResponsePayload pcSeq requestId runtimePc values)) text) ∧
    (∃ text hex, fromHex hex = some bytes ∧
      CompleteText (fun bufferSize => writeMemResponseIn bufferSize messageId pcSeq
      (Utf8.bytes requestId) (Utf8.bytes runtimePc) (Utf8.bytes address) size bytes)
        (memResponseJson messageId
          (echoedFields pcSeq requestId runtimePc true address size ++ [("bytes_hex", .str hex)])) text) ∧
    (∃ text, CompleteText (fun bufferSize => writeMemErrorResponseIn bufferSize messageId pcSeq (Utf8.bytes requestId)
      (Utf8.bytes runtimePc) (Utf8.bytes address) size (Utf8.bytes code) (Utf8.bytes message))
        (memResponseJson messageId (echoedFields pcSeq requestId runtimePc false address size ++
          [("error", .obj [("code", .str (String.ofList code)), ("message", .str (String.ofList message))])]))
          text) := by
  have hplain : ∀ v ∈ values, v.ok = true → Plain v.name := fun v hv _ => plain_of_supportedName (hsupported v hv)
  refine ⟨?_, ?_, ?_⟩
  · obtain ⟨body, hbody, hwrites⟩ := writes_regResponse messageId pcSeq requestId runtimePc hplain
      (nodup_registerFields hdistinct)
    exact ⟨_, completeText_of_writes (List.cons_ne_nil _ _)
      (sameBytes_regResponse messageId pcSeq requestId runtimePc hplain) hbody
      (visible_regResponse messageId pcSeq requestId runtimePc hplain hbody) hwrites⟩
  · obtain ⟨body, hbody, hwrites⟩ := writes_memRead messageId pcSeq size requestId runtimePc address bytes
    exact ⟨_, _, fromHex_toHex bytes, completeText_of_writes (List.cons_ne_nil _ _)
      (sameBytes_memResponse messageId pcSeq size requestId runtimePc address bytes) hbody
      (visible_memRead messageId pcSeq size requestId runtimePc address hbody) hwrites⟩
  · obtain ⟨body, hbody, hwrites⟩ := writes_memError messageId pcSeq size requestId runtimePc address code message
    exact ⟨_, completeText_of_writes (List.cons_ne_nil _ _)
      (sameBytes_memError messageId pcSeq size requestId runtimePc address code message) hbody
      (visible_memError messageId pcSeq size requestId runtimePc address hbody) hwrites⟩

theorem responses_exact_two_registers :
    ∃ text, CompleteText (fun bufferSize => writeRegResponseIn bufferSize 7 1 (Utf8.bytes ['r']) (Utf8.bytes ['0'])
      [{ name := "rax".toList, value := 5, ok := true }, { name := "rip".toList }])
        (regResponseJson 7 (regResponsePayload 1 ['r'] ['0']
          [{ name := "rax".toList, value := 5, ok := true }, { name := "rip".toList }])) text :=
  (responses_exact 7 1 0 ['r'] ['0'] [] [] [] [] (by decide) (by decide)).1

end exact
end DynvarSync.Windbg
