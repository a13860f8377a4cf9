import DynvarSync.Ida.CoreEntry

/-! What one operation of the argument planner can do: the rows it plans, and the three
outcomes of a register response. -/
namespace DynvarSync.Ida.DayVarCore
open Lib PyText

/-- The reason of an argument that is planned at function entry. -/
def plannedReason (argIndex : Nat) : String :=
  match entryRegisters[argIndex]? with
  | some register => "waiting for " ++ register ++ " at function entry"
  | none => "waiting for rsp to request stack argument"

/-- A row as the planning loop leaves it. -/
structure PlannedRow (atFunctionEntry : Bool) (lvar row : VariableRecord) : Prop where
  same : SameLvar lvar row
  typeString : row.typeString = lvar.typeString
  status : row.status = .unavailable ∨ row.status = .stale
  waiting : atFunctionEntry = true → ∀ i, argPosition lvar = some i →
    row.status = .unavailable ∧ row.reason = plannedReason i
  unsupported : argPosition lvar = none → row.reason = reasonUnsupportedVariable

section planning
variable (previousRows : Dict (String × String) VariableRecord) (runtimePc : String) (atFunctionEntry : Bool)

/-- One turn appends one row. -/
theorem planVariable_row (plan : EntryPlan) (lvar : VariableRecord) :
    ∃ row, (planVariable previousRows runtimePc atFunctionEntry plan lvar).rows = plan.rows ++ [row] ∧
      PlannedRow atFunctionEntry lvar row := by
  rw [planVariable]
  dsimp only
  split
  · rename_i argIndex harg hindex
    have hposition := (argPosition_eq_some_iff lvar argIndex).mpr ⟨harg, hindex⟩
    have hsupported {row : VariableRecord} : argPosition lvar = none → row.reason = reasonUnsupportedVariable := by
      rw [hposition]
      rintro ⟨⟩
    cases atFunctionEntry with
    | false =>
      rw [Bool.not_false, if_pos rfl]
      split
      · exact ⟨_, rfl, ⟨rfl, rfl, rfl, rfl⟩, rfl, .inr rfl, by rintro ⟨⟩, hsupported⟩
      · exact ⟨_, rfl, ⟨rfl, rfl, rfl, rfl⟩, rfl, .inl rfl, by rintro ⟨⟩, hsupported⟩
    | true =>
      rw [Bool.not_true, if_neg Bool.false_ne_true]
      have hreason : ∀ i, argPosition lvar = some i → plannedReason argIndex = plannedReason i := by
        intro i hi
        rw [hposition] at hi
        rw [Option.some.inj hi]
      split
      · rename_i register hregister
        refine ⟨_, rfl, ⟨rfl, rfl, rfl, rfl⟩, rfl, .inl rfl, fun _ i hi => ⟨rfl, ?_⟩, hsupported⟩
        rw [← hreason i hi, plannedReason, hregister]
      · rename_i hnone
        refine ⟨_, rfl, ⟨rfl, rfl, rfl, rfl⟩, rfl, .inl rfl, fun _ i hi => ⟨rfl, ?_⟩, hsupported⟩
        rw [← hreason i hi, plannedReason, hnone]
  · rename_i hnot
    refine ⟨_, rfl, ⟨rfl, rfl, rfl, rfl⟩, rfl, .inl rfl, fun _ i hi => ?_, fun _ => rfl⟩
    obtain ⟨harg, hindex⟩ := (argPosition_eq_some_iff lvar i).mp hi
    exact absurd hindex (hnot i harg)

theorem entryLoop_rows (lvars : List VariableRecord) {done : List VariableRecord} {plan : EntryPlan}
    (h : List.Forall₂ (PlannedRow atFunctionEntry) done plan.rows) :
    List.Forall₂ (PlannedRow atFunctionEntry) (done ++ lvars)
      (lvars.foldl (planVariable previousRows runtimePc atFunctionEntry) plan).rows := by
  induction lvars generalizing done plan with
  | nil => rwa [List.append_nil]
  | cons lvar lvars ih =>
    obtain ⟨row, hrows, hrow⟩ := planVariable_row previousRows runtimePc atFunctionEntry plan lvar
    rw [List.append_cons]
    refine ih ?_
    rw [hrows]
    exact List.rel_append h (.cons hrow .nil)

end planning

/-- The rows of a new plan. -/
theorem buildEntryPlan_rows (core : DayVarCore) (lvars : List VariableRecord) (context : PcContext) :
    List.Forall₂ (PlannedRow context.atFunctionEntry) lvars (core.buildEntryPlan lvars context).1.rows := by
  have hnil : List.Forall₂ (PlannedRow context.atFunctionEntry) [] ({} : EntryPlan).rows := .nil
  let previousRows := (core.startPcContext context).rows.foldl
    (fun d row => d.set (row.functionEa, row.name) row) Dict.empty
  have hrows := entryLoop_rows previousRows context.runtimePc context.atFunctionEntry lvars hnil
  rw [buildEntryPlan]
  dsimp only
  split
  · exact hrows
  · exact hrows

section responses

/-- The stack pointer a register response gives. -/
def stackPointer (registers : Payload) : Option Int := ((registers.get "rsp").asStr.filter (· ≠ "")).bind intAuto

/-- A stack argument whose memory request is sent. -/
def waitForStack (rsp : Int) (row : VariableRecord) : VariableRecord :=
  { row with
    location := formatHex (rsp + stackArgOffset (row.argIndex.getD 0))
    reason := "waiting for stack argument memory read" }

theorem stackLoop_rows (rsp : Int) (pending : PendingRequest) (rows : List VariableRecord) (acc : StackRequests) :
    (rows.foldl (requestStackArg rsp pending) acc).rows =
      acc.rows ++ rows.map fun row => if isStackArg row then waitForStack rsp row else row := by
  induction rows generalizing acc with
  | nil => exact (List.append_nil _).symm
  | cons row rows ih =>
    rw [List.foldl_cons, ih, List.map_cons, requestStackArg]
    cases isStackArg row with
    | false => exact List.append_assoc ..
    | true => exact List.append_assoc ..

theorem stackLoop_currentPc (rsp : Int) (pending : PendingRequest) (rows : List VariableRecord) (acc : StackRequests) :
    (rows.foldl (requestStackArg rsp pending) acc).core.currentPc = acc.core.currentPc := by
  induction rows generalizing acc with
  | nil => rfl
  | cons row rows ih =>
    rw [List.foldl_cons, ih, requestStackArg]
    split <;> rfl

theorem applyEntryRegister_same (registers : Payload) (pending : PendingRequest) (row : VariableRecord) :
    SameLvar row (applyEntryRegister registers pending row) ∧
      (applyEntryRegister registers pending row).typeString = row.typeString := by
  rw [applyEntryRegister.eq_def]
  split
  · split
    · exact ⟨⟨rfl, rfl, rfl, rfl⟩, rfl⟩
    · exact ⟨⟨rfl, rfl, rfl, rfl⟩, rfl⟩
  · exact ⟨⟨rfl, rfl, rfl, rfl⟩, rfl⟩

theorem SameLvar.argPosition {lvar row : VariableRecord} (h : SameLvar lvar row) :
    argPosition row = argPosition lvar := by
  rw [DayVarCore.argPosition, DayVarCore.argPosition, h.isArg, h.argIndex]

section registers
variable {registers : Payload} {pending : PendingRequest} {row : VariableRecord} {register : String}

/-- The register an argument is planned on. -/
theorem bind_entryRegister (h : (argPosition row).bind (entryRegisters[·]?) = some register) :
    row.isArg = true ∧ row.argIndex.bind (entryRegisters[·]?) = some register := by
  rw [argPosition] at h
  split at h
  · exact ⟨‹_›, h⟩
  · cases h

/-- A register that was read fills the row planned on it. -/
theorem applyEntryRegister_read (hposition : (argPosition row).bind (entryRegisters[·]?) = some register)
    {text : String} (htext : registers.get register = .str text) (hne : text ≠ "") :
    applyEntryRegister registers pending row =
      { row with
        value := formatHexValue text row.size
        status := .fresh
        confidence := .exactEntry
        location := register
        reason := register ++ " at exact function entry"
        lastPc := pending.runtimePc } := by
  obtain ⟨harg, hregister⟩ := bind_entryRegister hposition
  have hfilter : (registers.get register).asStr.filter (· ≠ "") = some text := by
    rw [htext]
    exact Option.filter_eq_some_iff.mpr ⟨rfl, decide_eq_true hne⟩
  rw [applyEntryRegister.eq_def]
  simp only [harg, hregister, hfilter]

/-- A register without a text fails the row planned on it. -/
theorem applyEntryRegister_missing (hposition : (argPosition row).bind (entryRegisters[·]?) = some register)
    (hmissing : ∀ text, registers.get register = .str text → text = "") :
    applyEntryRegister registers pending row = markError ("register " ++ register ++ " missing from response") row := by
  obtain ⟨harg, hregister⟩ := bind_entryRegister hposition
  have hfilter : (registers.get register).asStr.filter (· ≠ "") = none := by
    refine Option.filter_eq_none_iff.mpr fun text htext => ?_
    rw [hmissing text ((Json.asStr_eq_some_iff _ _).mp htext)]
    decide
  rw [applyEntryRegister.eq_def]
  simp only [harg, hregister, hfilter]

theorem applyEntryRegister_none (hposition : (argPosition row).bind (entryRegisters[·]?) = none) :
    applyEntryRegister registers pending row = row := by
  rw [applyEntryRegister.eq_def]
  split
  · rename_i register harg hregister
    rw [argPosition, harg, if_pos rfl, hregister] at hposition
    cases hposition
  · rfl

/-- What a register response does to a row. -/
theorem applyEntryRegister_cases (registers : Payload) (pending : PendingRequest) (row : VariableRecord) :
    (applyEntryRegister registers pending row = row ∧ (argPosition row).bind (entryRegisters[·]?) = none) ∨
      ∃ register, (argPosition row).bind (entryRegisters[·]?) = some register ∧
        ((∃ text, registers.get register = .str text ∧ text ≠ "") ∨
          applyEntryRegister registers pending row =
            markError ("register " ++ register ++ " missing from response") row) := by
  cases hposition : (argPosition row).bind (entryRegisters[·]?) with
  | none => exact .inl ⟨applyEntryRegister_none hposition, rfl⟩
  | some register =>
    refine .inr ⟨register, rfl, ?_⟩
    by_cases h : ∃ text, registers.get register = .str text ∧ text ≠ ""
    · exact .inl h
    · refine .inr (applyEntryRegister_missing hposition fun text htext => ?_)
      by_contra hne
      exact h ⟨text, htext, hne⟩

end registers

/-- A register response is not applied to stack arguments. -/
theorem applyEntryRegister_stack (registers : Payload) (pending : PendingRequest) {row : VariableRecord}
    (h : isStackArg row = true) : applyEntryRegister registers pending row = row := by
  obtain ⟨i, hposition, -, hnone⟩ := (isStackArg_iff row).mp h
  exact applyEntryRegister_none (by rw [hposition, Option.bind_some, hnone])

/-- A row after the registers are read, by what becomes of the stack arguments. -/
def answeredRow (stack : VariableRecord → VariableRecord) (registers : Payload) (pending : PendingRequest)
    (row : VariableRecord) : VariableRecord :=
  if isStackArg row then stack row else applyEntryRegister registers pending row

/-- Stack arguments keep their rows while the registers are applied. -/
theorem map_answeredRow (stack : VariableRecord → VariableRecord) (registers : Payload) (pending : PendingRequest)
    (rows : List VariableRecord) :
    ((rows.map (applyEntryRegister registers pending)).map fun row => if isStackArg row then stack row else row) =
      rows.map (answeredRow stack registers pending) := by
  rw [List.map_map]
  refine List.map_congr_left fun row _ => ?_
  rw [Function.comp_apply, (applyEntryRegister_same registers pending row).1.isStackArg, answeredRow]
  cases h : isStackArg row with
  | false => rfl
  | true => rw [if_pos rfl, if_pos rfl, applyEntryRegister_stack registers pending h]

/-- What becomes of the stack arguments when the registers are read. -/
inductive StackOutcome (registers : Payload) (pending : PendingRequest) (core after : DayVarCore) : Prop
  | failed (reason : String) (hrsp : stackPointer registers = none)
      (h : after = { core with rows := core.rows.map (answeredRow (markError reason) registers pending) })
  | asked (rsp : Int) (hrsp : stackPointer registers = some rsp) (hpc : after.currentPc = core.currentPc)
      (hrows : after.rows = core.rows.map (answeredRow (waitForStack rsp) registers pending))
      (htable : after.pendingRequests = ((core.rows.map (applyEntryRegister registers pending)).foldl
        (requestStackArg rsp pending) { core := core }).core.pendingRequests)

theorem stackLoop_table (rsp : Int) (pending : PendingRequest) (rows : List VariableRecord) {acc acc' : StackRequests}
    (h : acc.core.pendingRequests = acc'.core.pendingRequests) :
    (rows.foldl (requestStackArg rsp pending) acc).core.pendingRequests =
      (rows.foldl (requestStackArg rsp pending) acc').core.pendingRequests := by
  induction rows generalizing acc acc' with
  | nil => exact h
  | cons row rows ih =>
    refine ih ?_
    rw [requestStackArg, requestStackArg]
    split
    · exact h
    · exact congrArg (Dict.set · _ _) h

theorem buildStackMemRequests_outcome (registers : Payload) (pending : PendingRequest) (core : DayVarCore) :
    StackOutcome registers pending core
      ({ core with rows := core.rows.map (applyEntryRegister registers pending) }.buildStackMemRequests registers
        pending).1 := by
  rw [buildStackMemRequests]
  split
  · rename_i hnone
    refine .failed "rsp missing from register response" (by rw [stackPointer, hnone, Option.bind_none]) ?_
    rw [markStackRowsError, map_answeredRow]
  · rename_i rspText htext
    split
    · rename_i hnone
      refine .failed ("invalid rsp value " ++ Json.reprStr rspText)
        (by rw [stackPointer, htext, Option.bind_some, hnone]) ?_
      rw [markStackRowsError, map_answeredRow]
    · rename_i rsp hrsp
      refine .asked rsp (by rw [stackPointer, htext, Option.bind_some, hrsp]) ?_ ?_ ?_
      · exact stackLoop_currentPc rsp pending _ _
      · dsimp only
        rw [stackLoop_rows, List.nil_append, map_answeredRow]
      · exact stackLoop_table rsp pending _ rfl

/-- The three outcomes of a register response. -/
inductive RegOutcome (payload : Payload) (core after : DayVarCore) : Prop
  | refused (reason : String) (htake : core.takePendingResponse payload .reg = .error reason) (h : after = core)
  | failed (pending : PendingRequest) (core' : DayVarCore) (reason : String)
      (htake : core.takePendingResponse payload .reg = .ok (pending, core'))
      (hpayload : (payload.get "ok").isTrue = false ∨ (payload.get "registers").asObj = none)
      (h : after = core'.markRowsError pending.variableNames reason)
  | read (pending : PendingRequest) (core' : DayVarCore) (registers : Payload)
      (htake : core.takePendingResponse payload .reg = .ok (pending, core'))
      (hok : (payload.get "ok").isTrue = true) (hregisters : (payload.get "registers").asObj = some registers)
      (h : StackOutcome registers pending core' after)

theorem applyRegResponse_outcome (core : DayVarCore) (payload : Payload) :
    RegOutcome payload core (core.applyRegResponse payload).core := by
  rw [applyRegResponse]
  cases htake : core.takePendingResponse payload .reg with
  | error reason => exact .refused reason htake rfl
  | ok taken =>
    obtain ⟨pending, core'⟩ := taken
    cases hok : (payload.get "ok").isTrue with
    | false => exact .failed pending core' _ htake (.inl hok) rfl
    | true =>
      cases hregisters : (payload.get "registers").asObj with
      | none => exact .failed pending core' _ htake (.inr hregisters) rfl
      | some registers =>
        exact .read pending core' registers htake hok hregisters (buildStackMemRequests_outcome registers pending core')

/-- The two outcomes of a memory response. -/
inductive MemOutcome (payload : Payload) (core after : DayVarCore) : Prop
  | refused (reason : String) (htake : core.takePendingResponse payload .mem = .error reason) (h : after = core)
  | applied (pending : PendingRequest) (core' : DayVarCore)
      (htake : core.takePendingResponse payload .mem = .ok (pending, core'))
      (h : after = { core' with rows := core'.rows.map (applyEntryMemory payload pending) })

theorem applyMemResponse_outcome (core : DayVarCore) (payload : Payload) :
    MemOutcome payload core (core.applyMemResponse payload).core := by
  rw [applyMemResponse]
  cases htake : core.takePendingResponse payload .mem with
  | error reason => exact .refused reason htake rfl
  | ok taken => exact .applied taken.1 taken.2 htake rfl

end responses

section table

/-- The request planned for a stack argument. -/
def stackRequest (rsp : Int) (pending : PendingRequest) (row : VariableRecord) : PendingRequest :=
  { kind := .mem, pcSeq := pending.pcSeq, requestId := memRequestId pending.pcSeq row.name
    runtimePc := pending.runtimePc, variableNames := [row.name]
    address := formatHex (rsp + stackArgOffset (row.argIndex.getD 0)), size := runtimeReadSize row.size }

variable {rsp : Int} {pending p : PendingRequest} {id : String}

/-- Every entry after the loop is an old one or a stack argument's. -/
theorem stackLoop_entry (rows : List VariableRecord) {acc : StackRequests}
    (h : (rows.foldl (requestStackArg rsp pending) acc).core.pendingRequests.get? id = some p) :
    acc.core.pendingRequests.get? id = some p ∨ ∃ row ∈ rows, isStackArg row = true ∧
    p = stackRequest rsp pending row := by
  induction rows generalizing acc with
  | nil => exact .inl h
  | cons row rows ih =>
    rcases ih h with hold | ⟨other, hmem, hstack, hp⟩
    · rw [requestStackArg] at hold
      split at hold
      · exact .inl hold
      · rename_i hstack
        have hset : (acc.core.pendingRequests.set (memRequestId pending.pcSeq row.name)
          (stackRequest rsp pending row)).get? id = some p := hold
        rw [Dict.get?_set] at hset
        split at hset
        · refine .inr ⟨row, List.mem_cons_self .., ?_, (Option.some.inj hset).symm⟩
          rwa [Bool.not_eq_true, Bool.not_eq_false'] at hstack
        · exact .inl hset
    · exact .inr ⟨other, List.mem_cons_of_mem row hmem, hstack, hp⟩

/-- A read of a row's own name. -/
def ReadsName (name : String) (p : PendingRequest) : Prop := p.kind = .mem ∧ p.variableNames = [name]

/-- The loop leaves a stack argument's request outstanding. -/
theorem stackLoop_covers (rows : List VariableRecord) {acc : StackRequests} {name : String}
    (h : (∃ q, acc.core.pendingRequests.get? (memRequestId pending.pcSeq name) = some q ∧ ReadsName name q) ∨
      ∃ row ∈ rows, isStackArg row = true ∧ row.name = name) :
    ∃ q, (rows.foldl (requestStackArg rsp pending) acc).core.pendingRequests.get? (memRequestId pending.pcSeq name) =
      some q ∧ ReadsName name q := by
  induction rows generalizing acc with
  | nil =>
    rcases h with h | ⟨row, hmem, -⟩
    · exact h
    · cases hmem
  | cons row rows ih =>
    refine ih ?_
    have hturn : (∃ q, acc.core.pendingRequests.get? (memRequestId pending.pcSeq name) = some q ∧ ReadsName name q) ∨
        isStackArg row = true ∧ row.name = name →
        ∃ q, (requestStackArg rsp pending acc row).core.pendingRequests.get?
          (memRequestId pending.pcSeq name) = some q ∧
          ReadsName name q := by
      intro h
      rw [requestStackArg]
      split
      · rename_i hnot
        rcases h with h | ⟨hstack, -⟩
        · exact h
        · rw [hstack] at hnot
          cases hnot
      · change ∃ q, (acc.core.pendingRequests.set (memRequestId pending.pcSeq row.name)
          (stackRequest rsp pending row)).get? _ = some q ∧ _
        rw [Dict.get?_set]
        split
        · rename_i hsame
          exact ⟨_, rfl, rfl, congrArg (fun n => [n]) (memRequestId_injective hsame).symm⟩
        · rename_i hother
          rcases h with h | ⟨-, rfl⟩
          · exact h
          · exact absurd rfl hother
    rcases h with h | ⟨other, hmem, hstack, hname⟩
    · exact .inl (hturn (.inl h))
    · rcases List.mem_cons.mp hmem with rfl | hmem
      · exact .inl (hturn (.inr ⟨hstack, hname⟩))
      · exact .inr ⟨other, hmem, hstack, hname⟩

/-- A memory request of the planner: a supported width at a written address. -/
structure PlannedRead (p : PendingRequest) : Prop where
  size : p.size ∈ supportedWidths
  address : ∃ n : Int, p.address = formatHex n

theorem plannedRead_stackRequest (rsp : Int) (pending : PendingRequest) (row : VariableRecord) :
    PlannedRead (stackRequest rsp pending row) := ⟨runtimeReadSize_supported row.size, ⟨_, rfl⟩⟩

def ReadsPlanned (core : DayVarCore) : Prop :=
  ∀ id p, core.pendingRequests.get? id = some p → p.kind = .mem → PlannedRead p

theorem readsPlanned_of_empty {core : DayVarCore} (h : core.pendingRequests = Dict.empty) : ReadsPlanned core := by
  intro id p hp
  rw [h] at hp
  cases hp

theorem readsPlanned_take {core core' : DayVarCore} {payload : Payload} {kind : RequestKind}
    (h : ReadsPlanned core) (htake : core.takePendingResponse payload kind = .ok (pending, core')) :
    ReadsPlanned core' := by
  obtain ⟨_, requestId, -, -, -, -, -, -, rfl⟩ := takePendingResponse_ok htake
  intro id p hp
  rw [Dict.get?_pop] at hp
  split at hp
  · cases hp
  · exact h id p hp

theorem step_readsPlanned {core : DayVarCore} (h : ReadsPlanned core) (op : Op) : ReadsPlanned (core.step op) := by
  cases op with
  | startPcContext context => exact readsPlanned_of_empty rfl
  | clearPending => exact readsPlanned_of_empty rfl
  | envelope type payload => exact h
  | buildEntryPlan lvars context =>
    intro id p hp hkind
    rcases (buildEntryPlan_valid core lvars context).stages id p hp with ho | hf
    · exact absurd (hkind.symm.trans ho.1) (by decide)
    · rw [step, buildEntryPlan] at hp
      dsimp only at hp
      split at hp
      · cases hp
      · have hset : (Dict.empty.set (regRequestId context.pcSeq) _).get? id = some p := hp
        rw [Dict.get?_set] at hset
        split at hset
        · rw [← Option.some.inj hset] at hkind
          cases hkind
        · cases hset
  | applyRegResponse payload =>
    rw [step]
    cases applyRegResponse_outcome core payload with
    | refused reason htake hafter => rwa [hafter]
    | failed pending core' reason htake _ hafter =>
      rw [hafter]
      exact fun id p hp => readsPlanned_take h htake id p hp
    | read pending core' registers htake _ _ hstack =>
      have htaken := readsPlanned_take h htake
      cases hstack with
      | failed reason _ hafter =>
        rw [hafter]
        exact fun id p hp => htaken id p hp
      | asked rsp _ _ _ htable =>
        intro id p hp hkind
        rw [htable] at hp
        rcases stackLoop_entry _ hp with hold | ⟨row, -, -, rfl⟩
        · exact htaken id p hold hkind
        · exact plannedRead_stackRequest rsp pending row
  | applyMemResponse payload =>
    rw [step]
    cases applyMemResponse_outcome core payload with
    | refused reason htake hafter => rwa [hafter]
    | applied pending core' htake hafter =>
      rw [hafter]
      exact fun id p hp => readsPlanned_take h htake id p hp

end table
end DynvarSync.Ida.DayVarCore
