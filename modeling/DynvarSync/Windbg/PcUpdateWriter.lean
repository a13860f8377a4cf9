import DynvarSync.Windbg.ResponseWriters
import DynvarSync.Windbg.ResponseBuffers
import DynvarSync.Lib.JsonLength

/-! The line of a PC update, with the module name and the reason in it as they are, and when
that line is read as the values it was written from. -/
namespace DynvarSync.Windbg
open Lib PyText CText JsonText

/-- The text of `DvsWritePcUpdate`. -/
def pcUpdateText (messageId pcSeq : UInt32) (pc : UInt64) (module : List Char) (runtimeModuleBase : UInt64)
    (reason : List Char) (autoLive : Bool) : List Char :=
  "\x7b\"protocol\":1,\"id\":".toList ++ unsignedText messageId.toNat ++
    ",\"type\":\"pc_update\",\"role\":\"windbg\",\"payload\":\x7b\"pc_seq\":".toList ++ unsignedText pcSeq.toNat ++
    ",\"pc\":\"".toList ++ (formatHexPadded 16 pc.toNat).toList ++ "\",\"module\":\"".toList ++ module ++
    "\",\"runtime_module_base\":\"".toList ++ (formatHexPadded 16 runtimeModuleBase.toNat).toList ++
    "\",\"auto_live\":".toList ++ (if autoLive then "true" else "false").toList ++ ",\"reason\":\"".toList ++ reason ++
    "\"\x7d\x7d".toList ++ [lineFeed]

def writePcUpdate (bufferSize : Nat) (messageId pcSeq : UInt32) (pc : UInt64) (module : List UInt8)
    (runtimeModuleBase : UInt64) (reason : List UInt8) (autoLive : Bool) : Option (List UInt8) :=
  (fit bufferSize (pcUpdateText messageId pcSeq pc (latin module) runtimeModuleBase (latin reason) autoLive)).map
    toBytes

/-- A message whose payload has the values. -/
structure CarriesPcUpdate (pcSeq : UInt32) (pc : UInt64) (module : List UInt8) (runtimeModuleBase : UInt64)
    (reason : List UInt8) (autoLive : Bool) (message payload : Payload) : Prop where
  payload_eq : message.get "payload" = .obj payload
  module_eq : ∃ name : String, payload.get "module" = .str name ∧ Utf8.bytes name.toList = module
  reason_eq : ∃ text : String, payload.get "reason" = .str text ∧ Utf8.bytes text.toList = reason
  pc_eq : payload.get "pc" = .str (formatHexPadded 16 pc.toNat)
  runtimeModuleBase_eq : payload.get "runtime_module_base" = .str (formatHexPadded 16 runtimeModuleBase.toNat)
  pcSeq_eq : payload.get "pc_seq" = .int pcSeq.toNat
  autoLive_eq : payload.get "auto_live" = .bool autoLive

/-- One line, read as such a message. -/
def ValidPcUpdate (pcSeq : UInt32) (pc : UInt64) (module : List UInt8) (runtimeModuleBase : UInt64)
    (reason : List UInt8) (autoLive : Bool) (line : List UInt8) : Prop :=
  (∃ body, line = body ++ [10] ∧ 10 ∉ body) ∧
    ∃ message payload, (Utf8.decode? line).bind JsonText.decode = some (.obj message) ∧
      CarriesPcUpdate pcSeq pc module runtimeModuleBase reason autoLive message payload

/-- Bytes of a text without quotes, backslashes and control characters. -/
def Bare (bs : List UInt8) : Prop := ∃ text, Utf8.decode? bs = some text ∧ ∀ c ∈ text, standsBare c = true

/-- The length of the line. -/
def pcUpdateLength (messageId pcSeq : UInt32) (module reason : List UInt8) (autoLive : Bool) : Nat :=
  184 + (unsignedText messageId.toNat).length + (unsignedText pcSeq.toNat).length + module.length + reason.length +
    (if autoLive then 4 else 5)

section text
variable (messageId pcSeq : UInt32) (pc runtimeModuleBase : UInt64) (autoLive : Bool)

theorem length_pcUpdateText (module reason : List UInt8) :
    (pcUpdateText messageId pcSeq pc (latin module) runtimeModuleBase (latin reason) autoLive).length =
      pcUpdateLength messageId pcSeq module reason autoLive := by
  have hopening : "\x7b\"protocol\":1,\"id\":".toList.length = 19 := by decide
  have hheader : ",\"type\":\"pc_update\",\"role\":\"windbg\",\"payload\":\x7b\"pc_seq\":".toList.length = 56 :=
    by decide
  have hpc : ",\"pc\":\"".toList.length = 7 := by decide
  have hmodule : "\",\"module\":\"".toList.length = 12 := by decide
  have hbase : "\",\"runtime_module_base\":\"".toList.length = 25 := by decide
  have hlive : "\",\"auto_live\":".toList.length = 14 := by decide
  have hreason : ",\"reason\":\"".toList.length = 11 := by decide
  have hclose : "\"\x7d\x7d".toList.length = 3 := by decide
  have hflag : (if autoLive then "true" else "false").toList.length = if autoLive then 4 else 5 := by
    cases autoLive <;> decide
  have hpctext := length_formatHexPadded pc
  have hbasetext := length_formatHexPadded runtimeModuleBase
  have hmoduletext := length_latin module
  have hreasontext := length_latin reason
  unfold pcUpdateText pcUpdateLength
  simp only [List.length_append, List.length_singleton]
  omega

/-- The line from its payload on. -/
def pcUpdateRest (pcSeq : UInt32) (pc : UInt64) (module : List Char) (runtimeModuleBase : UInt64) (reason : List Char)
    (autoLive : Bool) : List Char :=
  "\"payload\":\x7b\"pc_seq\":".toList ++ unsignedText pcSeq.toNat ++
    ",\"pc\":\"".toList ++ (formatHexPadded 16 pc.toNat).toList ++ "\",\"module\":\"".toList ++ module ++
    "\",\"runtime_module_base\":\"".toList ++ (formatHexPadded 16 runtimeModuleBase.toNat).toList ++
    "\",\"auto_live\":".toList ++ (if autoLive then "true" else "false").toList ++ ",\"reason\":\"".toList ++ reason ++
    "\"\x7d\x7d".toList ++ [lineFeed]

def pcUpdateHeader (messageId : UInt32) : Payload :=
  [("protocol", .int 1), ("id", .int messageId.toNat), ("type", .str "pc_update"), ("role", .str "windbg")]

def pcUpdatePayload (pcSeq : UInt32) (pc : UInt64) (name : String) (runtimeModuleBase : UInt64) (reason : String)
    (autoLive : Bool) : Payload :=
  [("pc_seq", .int pcSeq.toNat), ("pc", .str (formatHexPadded 16 pc.toNat)), ("module", .str name),
    ("runtime_module_base", .str (formatHexPadded 16 runtimeModuleBase.toNat)), ("auto_live", .bool autoLive),
    ("reason", .str reason)]

def pcUpdateMessage (messageId : UInt32) (payload : Payload) : Payload :=
  pcUpdateHeader messageId ++ [("payload", .obj payload)]

/-- The fields before the payload are always read as they are. -/
theorem pcUpdateText_eq (module reason : List Char) :
    ∃ header, WritesFields (pcUpdateHeader messageId) header ∧
      pcUpdateText messageId pcSeq pc module runtimeModuleBase reason autoLive =
        '{' :: (header ++ ',' :: pcUpdateRest pcSeq pc module runtimeModuleBase reason autoLive) := by
  have hfields := WritesFields.more (k := "protocol") (writes_encode (x := .int 1) trivial)
    (.more (k := "id") (writes_natural messageId.toNat)
      (.more (k := "type") (writes_encode (x := .str "pc_update") trivial)
        (.last (k := "role") (writes_encode (x := .str "windbg") trivial))))
  have hopening : "\x7b\"protocol\":1,\"id\":".toList =
      '{' :: (encodeString "protocol" ++ ':' :: (encode (.int 1) ++ ',' :: (encodeString "id" ++ [':']))) := by decide
  have hheader : ",\"type\":\"pc_update\",\"role\":\"windbg\",\"payload\":\x7b\"pc_seq\":".toList =
      ',' :: (encodeString "type" ++ ':' :: (encode (.str "pc_update") ++ ',' :: (encodeString "role" ++
        ':' :: (encode (.str "windbg") ++ ',' :: "\"payload\":\x7b\"pc_seq\":".toList)))) := by decide
  refine ⟨_, hfields, ?_⟩
  unfold pcUpdateText pcUpdateRest
  rw [hopening, hheader]
  simp only [List.append_assoc, List.cons_append, List.nil_append]

theorem visibleCount_formatHexPadded (n : UInt64) : visibleCount (formatHexPadded 16 n.toNat).toList = 18 := by
  rw [visibleCount_of_printable (plain_formatHexPadded 16 n.toNat).printable, length_formatHexPadded]

theorem visibleCount_unsignedText (n : Nat) : visibleCount (unsignedText n) = (unsignedText n).length :=
  encodeInt_natCast n ▸ visibleCount_of_printable (printable_encodeInt n)

theorem visibleCount_pcUpdateRest (module reason : List Char) :
    visibleCount (pcUpdateRest pcSeq pc module runtimeModuleBase reason autoLive) =
      128 + (unsignedText pcSeq.toNat).length + (if autoLive then 4 else 5) + visibleCount module +
      visibleCount reason := by
  have hpayload : visibleCount "\"payload\":\x7b\"pc_seq\":".toList = 20 := by decide
  have hpc : visibleCount ",\"pc\":\"".toList = 7 := by decide
  have hmodule : visibleCount "\",\"module\":\"".toList = 12 := by decide
  have hbase : visibleCount "\",\"runtime_module_base\":\"".toList = 25 := by decide
  have hlive : visibleCount "\",\"auto_live\":".toList = 14 := by decide
  have hreason : visibleCount ",\"reason\":\"".toList = 11 := by decide
  have hclose : visibleCount "\"\x7d\x7d".toList = 3 := by decide
  have hfeed : visibleCount [lineFeed] = 0 := by decide
  have hflag : visibleCount (if autoLive then "true" else "false").toList = if autoLive then 4 else 5 := by
    cases autoLive <;> decide
  have hpctext := visibleCount_formatHexPadded pc
  have hbasetext := visibleCount_formatHexPadded runtimeModuleBase
  have hseq := visibleCount_unsignedText pcSeq.toNat
  unfold pcUpdateRest
  simp only [visibleCount_append]
  omega

end text

section cost
variable {pcSeq : UInt32} {pc runtimeModuleBase : UInt64} {autoLive : Bool} {module reason : List UInt8}

theorem nodup_pcUpdatePayload (pcSeq : UInt32) (pc : UInt64) (name : String) (runtimeModuleBase : UInt64)
    (reason : String) (autoLive : Bool) :
    ((pcUpdatePayload pcSeq pc name runtimeModuleBase reason autoLive).map Prod.fst).Nodup :=
  (by decide : ["pc_seq", "pc", "module", "runtime_module_base", "auto_live", "reason"].Nodup)

theorem mem_of_get {payload : Payload} {key : String} {x : Json} (hx : x ≠ .null) (h : payload.get key = x) :
    (key, x) ∈ payload := by
  induction payload with
  | nil => exact absurd h.symm hx
  | cons field payload ih =>
    rw [Payload.get_cons] at h
    split at h
    · rename_i hkey
      exact List.mem_cons.mpr (.inl (Prod.ext hkey h.symm))
    · exact List.mem_cons_of_mem _ (ih h)

/-- A payload with the values takes as much text as they do. -/
theorem CarriesPcUpdate.cost_le {message payload : Payload} {name text : String}
    (h : CarriesPcUpdate pcSeq pc module runtimeModuleBase reason autoLive message payload)
    (hname : payload.get "module" = .str name) (htext : payload.get "reason" = .str text) :
    117 + (unsignedText pcSeq.toNat).length + (if autoLive then 4 else 5) + (name.toList.map charCost).sum +
      (text.toList.map charCost).sum ≤ cost (.obj payload) := by
  have hsubset : pcUpdatePayload pcSeq pc name runtimeModuleBase text autoLive ⊆ payload := by
    intro field hfield
    simp only [pcUpdatePayload, List.mem_cons, List.not_mem_nil, or_false] at hfield
    rcases hfield with rfl | rfl | rfl | rfl | rfl | rfl
    · exact mem_of_get nofun h.pcSeq_eq
    · exact mem_of_get nofun h.pc_eq
    · exact mem_of_get nofun hname
    · exact mem_of_get nofun h.runtimeModuleBase_eq
    · exact mem_of_get nofun h.autoLive_eq
    · exact mem_of_get nofun htext
  have hsum := sum_le_of_subset fieldCost (nodup_pcUpdatePayload ..).of_map hsubset
  have hnames : stringCost "pc_seq".toList = 8 ∧ stringCost "pc".toList = 4 ∧ stringCost "module".toList = 8 ∧
      stringCost "runtime_module_base".toList = 21 ∧ stringCost "auto_live".toList = 11 ∧
      stringCost "reason".toList = 8 := by decide
  have hpctext := stringCost_plain (plain_formatHexPadded 16 pc.toNat)
  have hbasetext := stringCost_plain (plain_formatHexPadded 16 runtimeModuleBase.toNat)
  have hpclength := length_formatHexPadded pc
  have hbaselength := length_formatHexPadded runtimeModuleBase
  have hflag : cost (.bool autoLive) = if autoLive then 4 else 5 := by cases autoLive <;> rfl
  have hseq : cost (.int pcSeq.toNat) = (unsignedText pcSeq.toNat).length := congrArg List.length (encodeInt_natCast _)
  have hnamecost : cost (.str name) = (name.toList.map charCost).sum + 2 := rfl
  have htextcost : cost (.str text) = (text.toList.map charCost).sum + 2 := rfl
  have hpccost : cost (.str (formatHexPadded 16 pc.toNat)) = stringCost (formatHexPadded 16 pc.toNat).toList := rfl
  have hbasecost : cost (.str (formatHexPadded 16 runtimeModuleBase.toNat)) =
      stringCost (formatHexPadded 16 runtimeModuleBase.toNat).toList := rfl
  rw [← fieldsCost_eq_sum payload] at hsum
  simp only [List.map_cons, List.map_nil, List.sum_cons, List.sum_nil, fieldCost, pcUpdatePayload] at hsum
  rw [cost]
  omega

/-- An update that is read as its values needed no escapes. -/
theorem bare_of_reads {messageId : UInt32} {moduleText reasonText : List Char} {message payload : Payload}
    (hread : JsonText.decode (pcUpdateText messageId pcSeq pc moduleText runtimeModuleBase reasonText autoLive) =
      some (.obj message))
    (hcarries : CarriesPcUpdate pcSeq pc (Utf8.bytes moduleText) runtimeModuleBase (Utf8.bytes reasonText) autoLive
      message payload) :
    (∀ c ∈ moduleText, standsBare c = true) ∧ ∀ c ∈ reasonText, standsBare c = true := by
  obtain ⟨name, hname, hnamebytes⟩ := hcarries.module_eq
  obtain ⟨text, htext, htextbytes⟩ := hcarries.reason_eq
  obtain ⟨header, hheader, hline⟩ :=
    pcUpdateText_eq messageId pcSeq pc runtimeModuleBase autoLive moduleText reasonText
  rw [hline] at hread
  obtain ⟨fuel, others, rest, hothers, hmessage⟩ := decode_before hheader hread
  have hpayload : ("payload", Json.obj payload) ∈ others := by
    have hmem : ("payload", Json.obj payload) ∈ message := mem_of_get nofun hcarries.payload_eq
    rw [Json.obj.inj hmessage] at hmem
    rcases List.mem_append.mp (mem_of_mem_keepLast hmem) with hfirst | hothers
    · have hnames : "payload" ∉ ["protocol", "id", "type", "role"] := by decide
      have hname : "payload" ∈ (pcUpdateHeader messageId).map Prod.fst := List.mem_map_of_mem hfirst
      exact absurd hname hnames
    · exact hothers
  have hcost := (read_cost fuel).2.2 _ _ _ hothers
  have hskip := visibleCount_skipSpace (pcUpdateRest pcSeq pc moduleText runtimeModuleBase reasonText autoLive)
  have hone := sum_le_of_subset fieldCost (List.nodup_singleton ("payload", Json.obj payload))
    (fun _ hfield => List.mem_singleton.mp hfield ▸ hpayload)
  have hkey : stringCost "payload".toList = 9 := by decide
  have hsum : [("payload", Json.obj payload)].map fieldCost =
    [stringCost "payload".toList + cost (.obj payload) + 2] := rfl
  have hvalues := hcarries.cost_le hname htext
  have hmoduletext := visibleCount_le_charCost moduleText
  have hreasontext := visibleCount_le_charCost reasonText
  rw [visibleCount_pcUpdateRest] at hskip
  rw [hsum, List.sum_singleton, ← fieldsCost_eq_sum, hkey] at hone
  rw [Utf8.bytes_injective hnamebytes, Utf8.bytes_injective htextbytes] at hvalues
  have hnone (cs : List Char) (h : cs.countP (fun c => !standsBare c) = 0) : ∀ c ∈ cs, standsBare c = true := by
    intro c hc
    have hbare := List.countP_eq_zero.mp h c hc
    simpa using hbare
  exact ⟨hnone moduleText (by omega), hnone reasonText (by omega)⟩

end cost

section exact
variable (messageId pcSeq : UInt32) (pc runtimeModuleBase : UInt64) (autoLive : Bool)

theorem toBytes_eq_append {cs ds more others : List Char} (h : toBytes cs = Utf8.bytes ds)
    (hmore : toBytes more = Utf8.bytes others) : toBytes (cs ++ more) = Utf8.bytes (ds ++ others) := by
  rw [toBytes_append, Utf8.bytes_append, h, hmore]

theorem toBytes_formatHexPadded (n : UInt64) :
    toBytes (formatHexPadded 16 n.toNat).toList = Utf8.bytes (formatHexPadded 16 n.toNat).toList :=
  toBytes_ascii (ascii_of_printable (plain_formatHexPadded 16 n.toNat).printable)

theorem toBytes_pcUpdateText (module reason : List Char) :
    toBytes (pcUpdateText messageId pcSeq pc (latin (Utf8.bytes module)) runtimeModuleBase
        (latin (Utf8.bytes reason)) autoLive) =
      Utf8.bytes (pcUpdateText messageId pcSeq pc module runtimeModuleBase reason autoLive) := by
  have hid := toBytes_ascii (ascii_unsignedText messageId.toNat)
  have hseq := toBytes_ascii (ascii_unsignedText pcSeq.toNat)
  have hflag : Ascii (if autoLive then "true" else "false").toList := by cases autoLive <;> decide
  unfold pcUpdateText
  refine toBytes_eq_append (toBytes_eq_append (toBytes_eq_append ?_ (toBytes_latin _)) (toBytes_ascii (by decide)))
    (toBytes_ascii (by decide))
  refine toBytes_eq_append (toBytes_eq_append (toBytes_eq_append (toBytes_eq_append (toBytes_eq_append
    (toBytes_eq_append ?_ (toBytes_latin _)) (toBytes_ascii (by decide))) (toBytes_formatHexPadded runtimeModuleBase))
    (toBytes_ascii (by decide))) (toBytes_ascii hflag)) (toBytes_ascii (by decide))
  exact toBytes_eq_append (toBytes_eq_append (toBytes_eq_append (toBytes_eq_append (toBytes_eq_append
    (toBytes_eq_append (toBytes_ascii (by decide)) hid) (toBytes_ascii (by decide))) hseq) (toBytes_ascii (by decide)))
    (toBytes_formatHexPadded pc)) (toBytes_ascii (by decide))

theorem visible_standsBare {cs : List Char} (h : ∀ c ∈ cs, standsBare c = true) : Visible cs :=
  fun c hc => ((standsBare_iff c).mp (h c hc)).2.2

theorem visible_pcUpdateText {module reason body : List Char} (hmodule : ∀ c ∈ module, standsBare c = true)
    (hreason : ∀ c ∈ reason, standsBare c = true)
    (h : pcUpdateText messageId pcSeq pc module runtimeModuleBase reason autoLive = body ++ [lineFeed]) :
    Visible body := by
  have hhex (n : UInt64) : Visible (formatHexPadded 16 n.toNat).toList :=
    visible_of_printable (plain_formatHexPadded 16 n.toNat).printable
  have hflag : Visible (if autoLive then "true" else "false").toList := by cases autoLive <;> decide
  rw [← List.append_cancel_right h]
  refine visible_append (visible_append ?_ (visible_standsBare hreason)) (by decide)
  refine visible_append (visible_append (visible_append (visible_append (visible_append (visible_append ?_
    (visible_standsBare hmodule)) (by decide)) (hhex runtimeModuleBase)) (by decide)) hflag) (by decide)
  exact visible_append (visible_append (visible_append (visible_append (visible_append (visible_append (by decide)
    (visible_unsignedText messageId.toNat)) (by decide)) (visible_unsignedText pcSeq.toNat)) (by decide)) (hhex pc))
    (by decide)

/-- A text without quotes, backslashes and control characters is written so that it is read. -/
theorem writes_pcUpdate {module reason : List Char} (hmodule : ∀ c ∈ module, standsBare c = true)
    (hreason : ∀ c ∈ reason, standsBare c = true) :
    ∃ body, pcUpdateText messageId pcSeq pc module runtimeModuleBase reason autoLive = body ++ [lineFeed] ∧
      Writes (.obj (pcUpdateMessage messageId (pcUpdatePayload pcSeq pc (String.ofList module) runtimeModuleBase
        (String.ofList reason) autoLive))) body := by
  have hhex (n : UInt64) :
    Writes (.str (formatHexPadded 16 n.toNat)) (quote :: ((formatHexPadded 16 n.toNat).toList ++ [quote])) :=
    writes_string (spells_bare fun c hc => by
      obtain ⟨hlow, -, hquote, hbackslash⟩ := (plainChar_iff c).mp (plain_formatHexPadded 16 n.toNat c hc)
      exact (standsBare_iff c).mpr ⟨hquote, hbackslash, hlow⟩)
  have hbare {text : List Char} (h : ∀ c ∈ text, standsBare c = true) :
      Writes (.str (String.ofList text)) (quote :: (text ++ [quote])) :=
    writes_string (by rw [String.toList_ofList]; exact spells_bare h)
  have hfields := WritesFields.more (k := "pc_seq") (writes_natural pcSeq.toNat)
    (.more (k := "pc") (hhex pc) (.more (k := "module") (hbare hmodule) (.more (k := "runtime_module_base")
      (hhex runtimeModuleBase) (.more (k := "auto_live") (writes_encode (x := .bool autoLive) trivial)
        (.last (k := "reason") (hbare hreason))))))
  have hwrites := writes_envelope messageId "pc_update" (writes_obj hfields (nodup_pcUpdatePayload ..))
  have hheader : ",\"type\":\"pc_update\",\"role\":\"windbg\",\"payload\":\x7b\"pc_seq\":".toList =
      ",\"type\":".toList ++ (encodeString "pc_update" ++ (",\"role\":\"windbg\",\"payload\":".toList ++
        '{' :: (encodeString "pc_seq" ++ [':']))) := by decide
  have hpc : ",\"pc\":\"".toList = ',' :: (encodeString "pc" ++ [':', quote]) := by decide
  have hmod : "\",\"module\":\"".toList = quote :: ',' :: (encodeString "module" ++ [':', quote]) := by decide
  have hbase : "\",\"runtime_module_base\":\"".toList =
      quote :: ',' :: (encodeString "runtime_module_base" ++ [':', quote]) := by decide
  have hlive : "\",\"auto_live\":".toList = quote :: ',' :: (encodeString "auto_live" ++ [':']) := by decide
  have hrea : ",\"reason\":\"".toList = ',' :: (encodeString "reason" ++ [':', quote]) := by decide
  have hflag : encode (.bool autoLive) = (if autoLive then "true" else "false").toList := by cases autoLive <;> decide
  refine ⟨_, ?_, hwrites⟩
  unfold pcUpdateText
  rw [hheader, hpc, hmod, hbase, hlive, hrea, hexClosing_text, hflag]
  simp only [List.append_assoc, List.cons_append, List.nil_append]

theorem carries_pcUpdateMessage (module reason : List Char) :
    CarriesPcUpdate pcSeq pc (Utf8.bytes module) runtimeModuleBase (Utf8.bytes reason) autoLive
      (pcUpdateMessage messageId (pcUpdatePayload pcSeq pc (String.ofList module) runtimeModuleBase
        (String.ofList reason) autoLive))
      (pcUpdatePayload pcSeq pc (String.ofList module) runtimeModuleBase (String.ofList reason) autoLive) :=
  ⟨rfl, ⟨_, rfl, by rw [String.toList_ofList]⟩, ⟨_, rfl, by rw [String.toList_ofList]⟩, rfl, rfl, rfl, rfl⟩

/-- A line that is valid was written from strings that need no escapes. -/
theorem ValidPcUpdate.bare {bufferSize : Nat} {module reason line : List UInt8}
    (h : ValidPcUpdate pcSeq pc module runtimeModuleBase reason autoLive line)
    (hline : writePcUpdate bufferSize messageId pcSeq pc module runtimeModuleBase reason autoLive = some line) :
    Bare module ∧ Bare reason := by
  rw [writePcUpdate] at hline
  obtain ⟨written, hwritten, rfl⟩ := Option.map_eq_some_iff.mp hline
  obtain ⟨rfl, -⟩ := fit_inv hwritten
  obtain ⟨-, message, payload, hread, hcarries⟩ := h
  obtain ⟨name, -, rfl⟩ := hcarries.module_eq
  obtain ⟨text, -, rfl⟩ := hcarries.reason_eq
  rw [toBytes_pcUpdateText, (Utf8.decode?_eq_some_iff _ _).mpr rfl, Option.bind_some] at hread
  obtain ⟨hmodule, hreason⟩ := bare_of_reads hread hcarries
  exact ⟨⟨name.toList, (Utf8.decode?_eq_some_iff _ _).mpr rfl, hmodule⟩,
    ⟨text.toList, (Utf8.decode?_eq_some_iff _ _).mpr rfl, hreason⟩⟩

theorem writePcUpdate_fits {bufferSize : Nat} {module reason : List UInt8}
    (h : pcUpdateLength messageId pcSeq module reason autoLive < bufferSize) :
    ∃ line, writePcUpdate bufferSize messageId pcSeq pc module runtimeModuleBase reason autoLive = some line := by
  have hlength := length_pcUpdateText messageId pcSeq pc runtimeModuleBase autoLive module reason
  rw [writePcUpdate, fit, if_neg (by omega)]
  exact ⟨_, rfl⟩

/-- A line written from strings that need no escapes is one line, and is read as the message it was written from. -/
theorem read_of_bare {bufferSize : Nat} {module reason line : List UInt8}
    (hline : writePcUpdate bufferSize messageId pcSeq pc module runtimeModuleBase reason autoLive = some line)
    (hmodule : Bare module) (hreason : Bare reason) :
    (∃ body, line = body ++ [10] ∧ 10 ∉ body) ∧ ∃ name text, Utf8.bytes name = module ∧ Utf8.bytes text = reason ∧
      (Utf8.decode? line).bind JsonText.decode = some (.obj (pcUpdateMessage messageId
        (pcUpdatePayload pcSeq pc (String.ofList name) runtimeModuleBase (String.ofList text) autoLive))) := by
  rw [writePcUpdate] at hline
  obtain ⟨written, hwritten, rfl⟩ := Option.map_eq_some_iff.mp hline
  obtain ⟨rfl, -⟩ := fit_inv hwritten
  obtain ⟨name, hname, hmodule⟩ := hmodule
  obtain ⟨text, htext, hreason⟩ := hreason
  obtain rfl := (Utf8.decode?_eq_some_iff _ _).mp hname
  obtain rfl := (Utf8.decode?_eq_some_iff _ _).mp htext
  obtain ⟨body, hbody, hwrites⟩ := writes_pcUpdate messageId pcSeq pc runtimeModuleBase autoLive hmodule hreason
  have hvisible := visible_pcUpdateText messageId pcSeq pc runtimeModuleBase autoLive hmodule hreason hbody
  have hlineFeed : Utf8.bytes [lineFeed] = [10] := (toBytes_ascii (by decide)).symm
  rw [toBytes_pcUpdateText, hbody]
  have honeLine : Utf8.bytes (body ++ [lineFeed]) = Utf8.bytes body ++ [10] := by rw [Utf8.bytes_append, hlineFeed]
  refine ⟨⟨Utf8.bytes body, honeLine, not_mem_lineFeed hvisible⟩, name, text, rfl, rfl, ?_⟩
  rw [(Utf8.decode?_eq_some_iff _ _).mpr rfl, Option.bind_some]
  exact hwrites.decode lineFeed_blank

/-- A PC update that is reported as built is valid exactly when its strings need no escapes. -/
theorem pc_update_valid_iff (bufferSize : Nat) (module reason : List UInt8) :
    (∀ line, writePcUpdate bufferSize messageId pcSeq pc module runtimeModuleBase reason autoLive = some line →
      ValidPcUpdate pcSeq pc module runtimeModuleBase reason autoLive line) ↔
      bufferSize ≤ pcUpdateLength messageId pcSeq module reason autoLive ∨ Bare module ∧ Bare reason := by
  have hlength := length_pcUpdateText messageId pcSeq pc runtimeModuleBase autoLive module reason
  constructor
  · intro h
    rcases Nat.lt_or_ge (pcUpdateLength messageId pcSeq module reason autoLive) bufferSize with hfits | hlong
    · obtain ⟨line, hline⟩ := writePcUpdate_fits messageId pcSeq pc runtimeModuleBase autoLive hfits
      exact .inr ((h line hline).bare messageId pcSeq pc runtimeModuleBase autoLive hline)
    · exact .inl hlong
  · intro h line hline
    rcases h with hlong | ⟨hmodule, hreason⟩
    · rw [writePcUpdate] at hline
      obtain ⟨written, hwritten, -⟩ := Option.map_eq_some_iff.mp hline
      obtain ⟨rfl, hfits⟩ := fit_inv hwritten
      omega
    · obtain ⟨honeLine, name, text, rfl, rfl, hread⟩ :=
        read_of_bare messageId pcSeq pc runtimeModuleBase autoLive hline hmodule hreason
      exact ⟨honeLine, _, _, hread, carries_pcUpdateMessage messageId pcSeq pc runtimeModuleBase autoLive name text⟩

/-- The path of an image is written with its backslash as it is. -/
theorem pc_update_backslash :
    ∃ line, writePcUpdate 1024 5 1 0x401000 (Utf8.bytes "C:\\x.exe".toList) 0x400000
      (Utf8.bytes "dvs_step".toList) true =
        some line ∧
      ¬ ValidPcUpdate 1 0x401000 (Utf8.bytes "C:\\x.exe".toList) 0x400000 (Utf8.bytes "dvs_step".toList) true line := by
  obtain ⟨line, hline⟩ := @writePcUpdate_fits 5 1 0x401000 0x400000 true 1024 (Utf8.bytes "C:\\x.exe".toList)
    (Utf8.bytes "dvs_step".toList) (by decide)
  refine ⟨line, hline, fun hvalid => ?_⟩
  obtain ⟨⟨text, htext, hbare⟩, -⟩ := hvalid.bare 5 1 0x401000 0x400000 true hline
  have hsame := Utf8.bytes_injective ((Utf8.decode?_eq_some_iff _ _).mp htext)
  have hbackslash : backslash ∈ text := hsame ▸ (by decide)
  exact absurd (hbare backslash hbackslash) (by decide)

end exact
end DynvarSync.Windbg
