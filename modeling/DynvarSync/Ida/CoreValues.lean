import DynvarSync.Ida.CoreSteps
import DynvarSync.Lib.Run

/-! What the argument planner shows as fresh: numbers decoded from the responses it accepted,
as long as every accepted response can be decoded. -/
namespace DynvarSync.Ida.DayVarCore
open Lib PyText

/-- The row shows the integer of its entry register's text, masked to a supported size. -/
def HoldsRegister (payload : Payload) (row : VariableRecord) : Prop :=
  ∃ registers register text n, (payload.get "registers").asObj = some registers ∧
    (argPosition row).bind (entryRegisters[·]?) = some register ∧ registers.get register = .str text ∧
    intAuto text = some n ∧ ∃ v : Nat, row.value = formatHex v ∧
      (v : Int) = if row.size ∈ supportedWidths then (maskWidth n row.size : Int) else n

/-- The row shows the little-endian value of as many bytes as were asked for. -/
def HoldsMemory (payload : Payload) (pending : PendingRequest) (row : VariableRecord) : Prop :=
  ∃ data, fromHex (payload.getD "bytes_hex" (.str "")).text = some data ∧ data.length = pending.size ∧
    row.value = formatHex (fromLittleEndian data)

/-- The operation accepts a response for the row and leaves its decoded value in it. -/
def DecodedBy (core : DayVarCore) (op : Op) (row : VariableRecord) : Prop :=
  row ∈ (core.step op).rows ∧
    match op with
    | .applyRegResponse payload => ∃ taken, core.takePendingResponse payload .reg = .ok taken ∧
      HoldsRegister payload row
    | .applyMemResponse payload => ∃ pending core', core.takePendingResponse payload .mem = .ok (pending, core') ∧
        row.name ∈ pending.variableNames ∧ HoldsMemory payload pending row
    | _ => False

/-- Every fresh row holds the decoded value of a response that the run accepted for it. -/
def FreshDecoded (ops : List Op) : Prop :=
  ∀ row ∈ (({} : DayVarCore).run ops).rows, row.status = .fresh →
    ∃ before op after, ops = before ++ op :: after ∧ DecodedBy (({} : DayVarCore).run before) op row

/-- What an accepted response gives the rows it answers can be decoded. -/
def Readable (core : DayVarCore) : Op → Prop
  | .applyRegResponse payload =>
    ∀ taken registers, core.takePendingResponse payload .reg = .ok taken → (payload.get "ok").isTrue = true →
      (payload.get "registers").asObj = some registers → ∀ row ∈ core.rows, ∀ register text,
        (argPosition row).bind (entryRegisters[·]?) = some register → registers.get register = .str text → text ≠ "" →
        ∃ n, intAuto text = some n ∧ (row.size ∈ supportedWidths ∨ 0 ≤ n)
  | .applyMemResponse payload =>
    ∀ pending core', core.takePendingResponse payload .mem = .ok (pending, core') → (payload.get "ok").isTrue = true →
      ∀ row ∈ core.rows, row.name ∈ pending.variableNames →
        ∃ data, fromHex (payload.getD "bytes_hex" (.str "")).text = some data ∧ data.length = pending.size
  | _ => True

section rows

/-- A register response makes a row fresh with its register's integer. -/
theorem applyEntryRegister_fresh {payload registers : Payload} {pending : PendingRequest} {row : VariableRecord}
    (hregisters : (payload.get "registers").asObj = some registers) (hstale : row.status ≠ .fresh)
    (hread : ∀ register text, (argPosition row).bind (entryRegisters[·]?) = some register →
      registers.get register = .str text → text ≠ "" → ∃ n, intAuto text = some n ∧
      (row.size ∈ supportedWidths ∨ 0 ≤ n))
    (hfresh : (applyEntryRegister registers pending row).status = .fresh) :
    HoldsRegister payload (applyEntryRegister registers pending row) := by
  rcases applyEntryRegister_cases registers pending row with
    ⟨hsame, -⟩ | ⟨register, hposition, ⟨text, htext, hne⟩ | hmissing⟩
  · rw [hsame] at hfresh
    exact absurd hfresh hstale
  · obtain ⟨n, hn, hsize⟩ := hread register text hposition htext hne
    rw [applyEntryRegister_read hposition htext hne]
    refine ⟨registers, register, text, n, hregisters, hposition, htext, hn, ?_⟩
    dsimp only
    rw [formatHexValue, hn]
    dsimp only
    split
    · exact ⟨_, rfl, rfl⟩
    · rename_i hunsupported
      have hnonneg := hsize.resolve_left hunsupported
      exact ⟨n.toNat, by rw [Int.toNat_of_nonneg hnonneg], Int.toNat_of_nonneg hnonneg⟩
  · rw [hmissing] at hfresh
    cases hfresh

/-- A memory response makes a row fresh with its bytes' value. -/
theorem applyEntryMemory_fresh {payload : Payload} {pending : PendingRequest} {row : VariableRecord}
    (hname : row.name ∈ pending.variableNames) (hsize : pending.size ∈ supportedWidths)
    (hread : (payload.get "ok").isTrue = true →
      ∃ data, fromHex (payload.getD "bytes_hex" (.str "")).text = some data ∧ data.length = pending.size)
    (hfresh : (applyEntryMemory payload pending row).status = .fresh) :
    HoldsMemory payload pending (applyEntryMemory payload pending row) := by
  rw [applyEntryMemory, if_neg (not_not.mpr hname)] at hfresh ⊢
  dsimp only at hfresh ⊢
  split at hfresh
  · rename_i hok
    obtain ⟨data, hdata, hlength⟩ := hread hok
    rw [if_pos hok]
    refine ⟨data, hdata, hlength, ?_⟩
    dsimp only
    rw [formatMemoryValue, if_neg (not_not.mpr hsize), hdata]
    dsimp only
    rw [if_neg (by omega), ← hlength, List.take_length]
  · cases hfresh

/-- A row that a memory response names keeps its name. -/
theorem applyEntryMemory_name (payload : Payload) (pending : PendingRequest) (row : VariableRecord) :
    (applyEntryMemory payload pending row).name = row.name := by
  rw [applyEntryMemory]
  split
  · rfl
  · dsimp only
    split <;> rfl

end rows

section steps
variable {core : DayVarCore}

/-- While a register request is outstanding nothing is fresh. -/
def Waits (core : DayVarCore) : Prop :=
  ∀ id p, core.pendingRequests.get? id = some p → p.kind = .reg → ∀ row ∈ core.rows, row.status ≠ .fresh

theorem waits_of_following (h : scheme.Following core.pendingRequests) : Waits core := by
  intro id p hp hkind
  exact absurd (hkind.symm.trans (h id p hp).1) (by decide)

theorem waits_of_empty (h : core.pendingRequests = Dict.empty) : Waits core := by
  intro id p hp
  rw [h] at hp
  cases hp

theorem buildEntryPlan_stale (core : DayVarCore) (lvars : List VariableRecord) (context : PcContext) :
    ∀ row ∈ (core.buildEntryPlan lvars context).1.rows, row.status ≠ .fresh := by
  intro row hrow
  obtain ⟨lvar, -, hplanned⟩ := exists_of_forall₂_mem (buildEntryPlan_rows core lvars context) hrow
  rcases hplanned.status with h | h <;> rw [h] <;> decide

theorem step_waits (hv : scheme.Valid core.pendingRequests) (h : Waits core) (op : Op) : Waits (core.step op) := by
  cases op with
  | startPcContext context => exact waits_of_empty rfl
  | clearPending => exact waits_of_empty rfl
  | envelope type payload => exact h
  | buildEntryPlan lvars context => exact fun _ _ _ _ => buildEntryPlan_stale core lvars context
  | applyRegResponse payload =>
    obtain ⟨hrefuse, haccept⟩ := applyRegResponse_correlates hv payload
    cases hverdict : (core.applyRegResponse payload).accepted with
    | false =>
      rw [step, hrefuse hverdict]
      exact h
    | true =>
      obtain ⟨id, -, ha⟩ := haccept hverdict
      exact waits_of_following (ha.consumes hv).1
  | applyMemResponse payload =>
    obtain ⟨hrefuse, haccept⟩ := applyMemResponse_correlates hv payload
    cases hverdict : (core.applyMemResponse payload).accepted with
    | false =>
      rw [step, hrefuse hverdict]
      exact h
    | true =>
      obtain ⟨id, -, ha⟩ := haccept hverdict
      exact waits_of_following (ha.consumes hv).1

/-- A register response that is taken finds nothing fresh. -/
theorem Waits.taken (h : Waits core) {payload : Payload} {pending : PendingRequest} {core' : DayVarCore}
    (htake : core.takePendingResponse payload .reg = .ok (pending, core')) :
    core'.rows = core.rows ∧ ∀ row ∈ core.rows, row.status ≠ .fresh := by
  obtain ⟨_, id, -, -, -, -, hp, hkind, rfl⟩ := takePendingResponse_ok htake
  exact ⟨rfl, h id pending hp hkind⟩

/-- A fresh row was there before, or the operation has just decoded its value. -/
theorem step_fresh (hw : Waits core) (hplanned : ReadsPlanned core) {op : Op} (hread : Readable core op)
    {row : VariableRecord} (hrow : row ∈ (core.step op).rows) (hfresh : row.status = .fresh) :
    row ∈ core.rows ∨ DecodedBy core op row := by
  cases op with
  | startPcContext context => exact .inl hrow
  | clearPending => exact .inl hrow
  | envelope type payload => exact .inl hrow
  | buildEntryPlan lvars context => exact absurd hfresh (buildEntryPlan_stale core lvars context row hrow)
  | applyRegResponse payload =>
    have hkeep := hrow
    rw [step] at hrow
    cases applyRegResponse_outcome core payload with
    | refused reason htake hafter => exact .inl (hafter ▸ hrow)
    | failed pending core' reason htake _ hafter =>
      obtain ⟨hrows, hstale⟩ := hw.taken htake
      rw [hafter, markRowsError, hrows] at hrow
      obtain ⟨before, hmem, rfl⟩ := List.mem_map.mp hrow
      split at hfresh
      · cases hfresh
      · exact absurd hfresh (hstale before hmem)
    | read pending core' registers htake hok hregisters hstack =>
      obtain ⟨hrows, hstale⟩ := hw.taken htake
      have hanswered : ∀ (stack : VariableRecord → VariableRecord),
        (∀ before ∈ core.rows, (stack before).status ≠ .fresh) →
          row ∈ core.rows.map (answeredRow stack registers pending) →
          DecodedBy core (.applyRegResponse payload) row := by
        intro stack hstackStale hmap
        obtain ⟨before, hmem, rfl⟩ := List.mem_map.mp hmap
        refine ⟨hkeep, _, htake, ?_⟩
        rw [answeredRow] at hfresh ⊢
        split at hfresh
        · exact absurd hfresh (hstackStale before hmem)
        · rename_i hregister
          rw [if_neg hregister]
          exact applyEntryRegister_fresh hregisters (hstale before hmem)
            (fun register text => hread _ registers htake hok hregisters before hmem register text) hfresh
      cases hstack with
      | failed reason _ hafter =>
        rw [hafter, hrows] at hrow
        exact .inr (hanswered (markError reason) (by rintro _ _ ⟨⟩) hrow)
      | asked rsp _ _ hafter _ =>
        rw [hafter, hrows] at hrow
        exact .inr (hanswered (waitForStack rsp) hstale hrow)
  | applyMemResponse payload =>
    have hkeep := hrow
    rw [step] at hrow
    cases applyMemResponse_outcome core payload with
    | refused reason htake hafter => exact .inl (hafter ▸ hrow)
    | applied pending core' htake hafter =>
      obtain ⟨_, id, -, -, -, -, hp, hkind, rfl⟩ := takePendingResponse_ok htake
      rw [hafter] at hrow
      obtain ⟨before, hmem, rfl⟩ := List.mem_map.mp hrow
      by_cases hname : before.name ∈ pending.variableNames
      · refine .inr ⟨hkeep, pending, _, htake, ?_, ?_⟩
        · rwa [applyEntryMemory_name]
        · exact applyEntryMemory_fresh hname (hplanned id pending hp hkind).size
            (fun hok => hread pending _ htake hok before hmem hname) hfresh
      · rw [applyEntryMemory, if_pos hname]
        exact .inl hmem

/-- What every reachable state satisfies. -/
structure Regular (core : DayVarCore) : Prop where
  valid : scheme.Valid core.pendingRequests
  waits : Waits core
  planned : ReadsPlanned core

theorem regular_start : Regular {} := ⟨RequestScheme.valid_empty, waits_of_empty rfl, readsPlanned_of_empty rfl⟩

theorem step_regular (h : Regular core) (op : Op) : Regular (core.step op) :=
  ⟨step_valid h.valid op, step_waits h.valid h.waits op, step_readsPlanned h.planned op⟩

theorem run_regular (h : Regular core) (ops : List Op) : Regular (core.run ops) := by
  induction ops generalizing core with
  | nil => exact h
  | cons op ops ih => exact ih (step_regular h op)

end steps

/-- In every run whose accepted responses can be decoded, every fresh argument row holds a decoded value. -/
theorem fresh_values_decoded (ops : List Op) (h : Run.Along step Readable {} ops) : FreshDecoded ops := by
  induction ops using List.reverseRecOn with
  | nil => exact fun row hrow => absurd hrow List.not_mem_nil
  | append_singleton ops op ih =>
    obtain ⟨hbefore, hread, -⟩ := (Run.along_append step ops [op]).mp h
    have hregular := run_regular regular_start ops
    have hlast : ({} : DayVarCore).run (ops ++ [op]) = (({} : DayVarCore).run ops).step op := List.foldl_append
    intro row hrow hfresh
    rw [hlast] at hrow
    rcases step_fresh hregular.waits hregular.planned hread hrow hfresh with hold | hdecoded
    · obtain ⟨before, op', after, rfl, hdecoded⟩ := ih hbefore row hold hfresh
      exact ⟨before, op', after ++ [op], by rw [List.append_assoc]; rfl, hdecoded⟩
    · exact ⟨ops, op, [], rfl, hdecoded⟩

/-- The register argument of a function, planned at its entry. -/
def firstArgument : Op :=
  .buildEntryPlan [{ lvarIndex := 0, name := "a1", size := 4, isArg := true, argIndex := some 0 }]
    { pcSeq := 1, runtimePc := "0x401000", idaEa := "0x401000", atFunctionEntry := true }

/-- The answer that gives `rcx` as this text. -/
def rcxResponse (text : String) : Op :=
  .applyRegResponse [("pc_seq", .int 1), ("request_id", .str "reg-1-entry"), ("ok", .bool true),
    ("registers", .obj [("rcx", .str text)])]

theorem fresh_values_decoded_rcx : FreshDecoded [firstArgument, rcxResponse "0x100000002"] := by
  refine fresh_values_decoded _ ⟨trivial, ?_, trivial⟩
  intro taken registers htake hok hregisters row hrow register text hposition htext hne
  obtain rfl := List.mem_singleton.mp hrow
  obtain rfl : "rcx" = register := Option.some.inj hposition
  obtain rfl := Option.some.inj hregisters
  obtain rfl : "0x100000002" = text := Json.str.inj htext
  exact ⟨0x100000002, by decide, .inl (by decide)⟩

/-- A text that is no integer is shown as a fresh value. -/
theorem unreadable_register_shown_fresh : ¬ ∀ ops : List Op, FreshDecoded ops := by
  intro h
  let ops := [firstArgument, rcxResponse "unread"]
  have hrow : ∃ row ∈ (({} : DayVarCore).run ops).rows, row.status = .fresh ∧ row.value = "unread" := by decide
  obtain ⟨row, hmem, hfresh, hvalue⟩ := hrow
  obtain ⟨before, op, after, -, -, hdecoded⟩ := h ops row hmem hfresh
  have hhex : ∃ v : Nat, row.value = formatHex v := by
    cases op with
    | applyRegResponse payload =>
      obtain ⟨_, -, _, _, _, _, -, -, -, -, v, hv, -⟩ := hdecoded
      exact ⟨v, hv⟩
    | applyMemResponse payload =>
      obtain ⟨_, _, -, -, _, -, -, hv⟩ := hdecoded
      exact ⟨_, hv⟩
    | buildEntryPlan _ _ => cases hdecoded
    | startPcContext _ => cases hdecoded
    | clearPending => cases hdecoded
    | envelope _ _ => cases hdecoded
  obtain ⟨v, hv⟩ := hhex
  have hhead := congrArg (fun text : String => text.toList.head?) (hvalue.symm.trans hv)
  rw [formatHex] at hhead
  simp at hhead

end DynvarSync.Ida.DayVarCore
