import DynvarSync.Ida.CoreSteps
import DynvarSync.Lib.Run

/-! Which argument rows still wait for a read, and which outstanding request each of them waits
for. A failed register answer leaves the stack arguments waiting for nothing. -/
namespace DynvarSync.Ida.DayVarCore
open Lib PyText

/-- The reasons of rows whose read has not been answered. -/
def waitingReasons : List String :=
  entryRegisters.map (fun register => "waiting for " ++ register ++ " at function entry") ++
    ["waiting for rsp to request stack argument", "waiting for stack argument memory read"]

/-- A row that still says it is waiting. -/
def Waiting (row : VariableRecord) : Prop := row.status = .unavailable ∧ row.reason ∈ waitingReasons

/-- The answer to the request would decide the row. -/
def Covers (p : PendingRequest) (row : VariableRecord) : Prop :=
  match p.kind with
  | .reg => (∃ register ∈ p.registers, (argPosition row).bind (entryRegisters[·]?) = some register ∧
      row.name ∈ p.variableNames) ∨ isStackArg row = true ∧ "rsp" ∈ p.registers
  | .mem => row.name ∈ p.variableNames

/-- Every argument row that waits is covered by an outstanding request. -/
def Covered (core : DayVarCore) : Prop :=
  ∀ row ∈ core.rows, row.isArg = true → Waiting row → ∃ id p, core.pendingRequests.get? id = some p ∧ Covers p row

/-- One response, of either kind. -/
def answer (core : DayVarCore) (e : RequestKind × Payload) : DayVarCore := (core.submit e.1 e.2).1

/-- A register answer without a successful read. -/
def ReadFailed (payload : Payload) : Prop := (payload.get "ok").isTrue = false ∨ (payload.get "registers").asObj = none

/-- An accepted response answers the row's read with a failure. -/
def AnsweredByFailure (core : DayVarCore) (e : RequestKind × Payload) (row : VariableRecord) : Prop :=
  ∃ pending core', core.takePendingResponse e.2 e.1 = .ok (pending, core') ∧
    match e.1 with
    | .reg => argPosition row ≠ none ∧ (ReadFailed e.2 ∨ ∃ registers, (e.2.get "registers").asObj = some registers ∧
        ((∃ register, (argPosition row).bind (entryRegisters[·]?) = some register ∧
            ∀ text, registers.get register = .str text → text = "") ∨
          isStackArg row = true ∧ stackPointer registers = none))
    | .mem => row.name ∈ pending.variableNames ∧ (e.2.get "ok").isTrue = false

/-- Every row whose read is answered with a failure has status error. -/
def FailuresMarked (core : DayVarCore) (e : RequestKind × Payload) : Prop :=
  ∀ row ∈ (core.answer e).rows, AnsweredByFailure core e row → row.status = .error

/-- No stack argument is planned when a register answer fails. -/
def NoStackFailure (core : DayVarCore) (e : RequestKind × Payload) : Prop :=
  (∃ taken, core.takePendingResponse e.2 .reg = .ok taken) → e.1 = .reg → ReadFailed e.2 →
    ∀ row ∈ core.rows, isStackArg row = false

section planning

/-- The names a register request is made for are those of the register arguments. -/
theorem planVariable_regVariables (previousRows : Dict (String × String) VariableRecord) (runtimePc : String)
    (plan : EntryPlan) (lvar : VariableRecord) (name : String) :
    name ∈ (planVariable previousRows runtimePc true plan lvar).regVariables ↔
      name ∈ plan.regVariables ∨ (∃ register, (argPosition lvar).bind (entryRegisters[·]?) = some register) ∧
      name = lvar.name := by
  have hkept (h : (argPosition lvar).bind (entryRegisters[·]?) = none) : name ∈ plan.regVariables ↔
      name ∈ plan.regVariables ∨ (∃ register, (argPosition lvar).bind (entryRegisters[·]?) = some register) ∧
      name = lvar.name := by
    rw [h]
    exact (or_iff_left fun ⟨⟨_, hr⟩, _⟩ => by cases hr).symm
  rw [planVariable]
  dsimp only
  split
  · rename_i argIndex harg hindex
    have hposition := (argPosition_eq_some_iff lvar argIndex).mpr ⟨harg, hindex⟩
    rw [Bool.not_true, if_neg Bool.false_ne_true]
    split
    · rename_i register hregister
      rw [List.mem_append, List.mem_singleton, hposition, Option.bind_some, hregister]
      exact or_congr_right (iff_and_self.mpr fun _ => ⟨register, rfl⟩)
    · rename_i hnone
      exact hkept (by rw [hposition, Option.bind_some, hnone])
  · rename_i hnot
    refine hkept ?_
    rw [argPosition]
    split
    · rename_i harg
      cases hindex : lvar.argIndex with
      | none => rfl
      | some i => exact absurd hindex (hnot i harg)
    · rfl

theorem entryLoop_regVariables (previousRows : Dict (String × String) VariableRecord) (runtimePc : String)
    (lvars : List VariableRecord) (plan : EntryPlan) (name : String) :
    name ∈ (lvars.foldl (planVariable previousRows runtimePc true) plan).regVariables ↔ name ∈ plan.regVariables ∨
      ∃ lvar ∈ lvars, (∃ register, (argPosition lvar).bind (entryRegisters[·]?) = some register) ∧
        name = lvar.name := by
  induction lvars generalizing plan with
  | nil => simp
  | cons lvar lvars ih =>
    rw [List.foldl_cons, ih, planVariable_regVariables, or_assoc, List.exists_mem_cons_iff]

end planning

section table
variable {core : DayVarCore} {payload : Payload}

/-- The register request of a plan whose rows all wait for it. -/
structure Opened (p : PendingRequest) (rows : List VariableRecord) : Prop where
  waiting : ∀ row ∈ rows, ∀ i, argPosition row = some i → row.status = .unavailable ∧ row.reason = plannedReason i
  named : ∀ row ∈ rows, ∀ register, (argPosition row).bind (entryRegisters[·]?) = some register →
    row.name ∈ p.variableNames ∧ register ∈ p.registers
  stack : ∀ row ∈ rows, isStackArg row = true → "rsp" ∈ p.registers ∧ row.name ∉ p.variableNames

/-- The table of a context: a register request has all argument rows waiting for it. -/
structure Table (core : DayVarCore) : Prop where
  valid : scheme.Valid core.pendingRequests
  opened : ∀ id p, core.pendingRequests.get? id = some p → p.kind = .reg → Opened p core.rows

theorem register_or_stack {row : VariableRecord} (h : argPosition row ≠ none) :
    (∃ register, (argPosition row).bind (entryRegisters[·]?) = some register) ∨ isStackArg row = true := by
  obtain ⟨i, hi⟩ := Option.ne_none_iff_exists'.mp h
  cases hregister : entryRegisters[i]? with
  | some register => exact .inl ⟨register, by rw [hi, Option.bind_some, hregister]⟩
  | none =>
    have hindex := ((argPosition_eq_some_iff row i).mp hi).2
    exact .inr ((isStackArg_iff row).mpr ⟨i, hi, hindex, hregister⟩)

theorem argPosition_of_stack {row : VariableRecord} (h : isStackArg row = true) : argPosition row ≠ none := by
  obtain ⟨i, hi, -⟩ := (isStackArg_iff row).mp h
  rw [hi]
  rintro ⟨⟩

theorem plannedReason_waiting (i : Nat) : plannedReason i ∈ waitingReasons := by
  rw [plannedReason, waitingReasons]
  split
  · rename_i register hregister
    exact List.mem_append_left _ (List.mem_map_of_mem (List.mem_of_getElem? hregister))
  · exact List.mem_append_right _ (List.mem_cons_self ..)

theorem not_waiting_of_unsupported {row : VariableRecord} (h : row.reason = reasonUnsupportedVariable) :
    ¬ Waiting row := by
  rintro ⟨-, hreason⟩
  rw [h] at hreason
  exact absurd hreason (by decide)

/-- A context planned at function entry. -/
theorem table_buildEntryPlan (core : DayVarCore) {lvars : List VariableRecord} {context : PcContext}
    (hentry : context.atFunctionEntry = true) (hnames : (lvars.map VariableRecord.name).Nodup) :
    Table (core.buildEntryPlan lvars context).1 ∧ Covered (core.buildEntryPlan lvars context).1 := by
  have hrows := buildEntryPlan_rows core lvars context
  have hvalid := buildEntryPlan_valid core lvars context
  rw [hentry] at hrows
  let previousRows := (core.startPcContext context).rows.foldl
    (fun d row => d.set (row.functionEa, row.name) row) Dict.empty
  let plan := lvars.foldl (planVariable previousRows context.runtimePc true) {}
  have hnone : EntryPlanned [] {} := ⟨.nil, by rintro _ ⟨⟩, by rintro _ ⟨⟩⟩
  have hplanned : EntryPlanned lvars plan := entryLoop_planned previousRows context.runtimePc lvars [] hnone
  have hvariables (name : String) := entryLoop_regVariables previousRows context.runtimePc lvars {} name
  have hopened : Opened
      { kind := .reg, pcSeq := context.pcSeq, requestId := regRequestId context.pcSeq, runtimePc := context.runtimePc
        variableNames := plan.regVariables, registers := plan.withRsp } (core.buildEntryPlan lvars context).1.rows := by
    refine ⟨fun row hrow i hi => ?_, fun row hrow register hregister => ?_, fun row hrow hstack => ⟨?_, ?_⟩⟩
    all_goals obtain ⟨lvar, hlvar, hplan⟩ := exists_of_forall₂_mem hrows hrow
    · exact hplan.waiting rfl i (hplan.same.argPosition ▸ hi)
    · rw [hplan.same.argPosition] at hregister
      refine ⟨(hvariables row.name).mpr (.inr ⟨lvar, hlvar, ⟨register, hregister⟩, hplan.same.name⟩), ?_⟩
      exact mem_withRsp (hplanned.registers lvar hlvar register hregister)
    · by_contra hrsp
      have hnone := hplanned.no_stack hrsp lvar hlvar
      rw [← hplan.same.isStackArg, hstack] at hnone
      cases hnone
    · intro hname
      rcases (hvariables row.name).mp hname with hnil | ⟨other, hother, ⟨register, hregister⟩, hsame⟩
      · cases hnil
      · obtain rfl : other = lvar := List.inj_on_of_nodup_map hnames hother hlvar (hsame.symm.trans hplan.same.name)
        obtain ⟨i, hi, -, hnone⟩ := (isStackArg_iff row).mp hstack
        rw [← hplan.same.argPosition, hi, Option.bind_some, hnone] at hregister
        cases hregister
  have hcore : (core.buildEntryPlan lvars context).1.pendingRequests =
      if plan.withRsp = [] then Dict.empty else Dict.empty.set (regRequestId context.pcSeq)
        { kind := .reg, pcSeq := context.pcSeq, requestId := regRequestId context.pcSeq, runtimePc := context.runtimePc
          variableNames := plan.regVariables, registers := plan.withRsp } := by
    rw [buildEntryPlan]
    dsimp only
    rw [hentry]
    split
    · rfl
    · rfl
  refine ⟨⟨hvalid, fun id p hp hkind => ?_⟩, fun row hrow harg hwaiting => ?_⟩
  · rw [hcore] at hp
    split at hp
    · cases hp
    · rw [Dict.get?_set] at hp
      split at hp
      · obtain rfl := Option.some.inj hp
        exact hopened
      · cases hp
  · have hposition : argPosition row ≠ none := by
      obtain ⟨lvar, -, hplan⟩ := exists_of_forall₂_mem hrows hrow
      intro hnone
      exact not_waiting_of_unsupported (hplan.unsupported (hplan.same.argPosition ▸ hnone)) hwaiting
    have hneeded : plan.withRsp ≠ [] := by
      rcases register_or_stack hposition with ⟨register, hregister⟩ | hstack
      · exact List.ne_nil_of_mem (hopened.named row hrow register hregister).2
      · exact List.ne_nil_of_mem (hopened.stack row hrow hstack).1
    refine ⟨regRequestId context.pcSeq, _, by rw [hcore, if_neg hneeded, Dict.get?_set_self], ?_⟩
    rcases register_or_stack hposition with ⟨register, hregister⟩ | hstack
    · obtain ⟨hname, hmem⟩ := hopened.named row hrow register hregister
      exact .inl ⟨register, hmem, hregister, hname⟩
    · exact .inr ⟨hstack, (hopened.stack row hrow hstack).1⟩

theorem answer_table (h : Table core) (e : RequestKind × Payload) : Table (core.answer e) := by
  obtain ⟨kind, payload⟩ := e
  obtain ⟨hrefuse, haccept⟩ := submit_correlates h.valid kind payload
  cases hverdict : (core.submit kind payload).2 with
  | false =>
    rw [answer, hrefuse hverdict]
    exact h
  | true =>
    obtain ⟨id, -, ha⟩ := haccept hverdict
    have hfollowing := (ha.consumes h.valid).1
    exact ⟨hfollowing.valid, fun id p hp hkind => absurd (hkind.symm.trans (hfollowing id p hp).1) (by decide)⟩

/-- What a register response finds when it is taken. -/
structure Taken (core core' : DayVarCore) (pending : PendingRequest) : Prop where
  rows : core'.rows = core.rows
  opened : Opened pending core.rows
  emptied : ∀ id, core'.pendingRequests.get? id = none
  only : ∀ id p, core.pendingRequests.get? id = some p → p = pending
  kind : pending.kind = .reg

theorem Table.taken (h : Table core) {pending : PendingRequest} {core' : DayVarCore}
    (htake : core.takePendingResponse payload .reg = .ok (pending, core')) : Taken core core' pending := by
  obtain ⟨_, id, -, -, -, -, hp, hkind, rfl⟩ := takePendingResponse_ok htake
  have hopening : scheme.Opening id pending := by
    rcases h.valid.stages id pending hp with ho | hf
    · exact ho
    · exact absurd (hkind.symm.trans hf.1) (by decide)
  have halone : ∀ other p, core.pendingRequests.get? other = some p → other = id := by
    intro other p hother
    refine h.valid.alone id pending other hp hopening ?_
    rw [hother]
    rintro ⟨⟩
  refine ⟨rfl, h.opened id pending hp hkind, fun other => ?_, fun other p hother => ?_, hkind⟩
  · rw [Dict.get?_pop]
    split
    · rfl
    · rename_i hne
      cases hother : core.pendingRequests.get? other with
      | none => rfl
      | some p => exact absurd (halone other p hother) hne
  · obtain rfl := halone other p hother
    rw [hp] at hother
    exact (Option.some.inj hother).symm

/-- Under a register request a row without an argument position does not wait. -/
theorem Taken.placed {pending : PendingRequest} {core' : DayVarCore} (h : Taken core core' pending) (hc : Covered core)
    {row : VariableRecord} (hrow : row ∈ core.rows) (harg : row.isArg = true) (hwaiting : Waiting row) :
    argPosition row ≠ none := by
  obtain ⟨id, p, hp, hcovers⟩ := hc row hrow harg hwaiting
  obtain rfl := h.only id p hp
  rw [Covers, h.kind] at hcovers
  rcases hcovers with ⟨register, -, hregister, -⟩ | ⟨hstack, -⟩
  · intro hnone
    rw [hnone] at hregister
    cases hregister
  · exact argPosition_of_stack hstack

theorem not_waiting_markError (reason : String) (row : VariableRecord) : ¬ Waiting (markError reason row) := by
  rintro ⟨hstatus, -⟩
  cases hstatus

/-- A register that is applied to its argument ends the wait. -/
theorem not_waiting_applied {registers : Payload} {pending : PendingRequest} {row : VariableRecord} {register : String}
    (hregister : (argPosition row).bind (entryRegisters[·]?) = some register) :
    ¬ Waiting (applyEntryRegister registers pending row) := by
  rcases applyEntryRegister_cases registers pending row with ⟨-, hnone⟩ | ⟨other, hother, ⟨text, htext, hne⟩ | hmissing⟩
  · rw [hregister] at hnone
    cases hnone
  · rw [applyEntryRegister_read hother htext hne]
    rintro ⟨hstatus, -⟩
    cases hstatus
  · rw [hmissing]
    exact not_waiting_markError _ _

/-- After the registers are read only stack arguments can wait. -/
theorem stack_of_waiting {registers : Payload} {pending : PendingRequest} {core' : DayVarCore}
    (h : Taken core core' pending)
    (hc : Covered core) {stack : VariableRecord → VariableRecord} {row : VariableRecord} (hrow : row ∈ core.rows)
    (harg : (answeredRow stack registers pending row).isArg = true)
    (hwaiting : Waiting (answeredRow stack registers pending row)) :
    isStackArg row = true ∧ answeredRow stack registers pending row = stack row := by
  cases hstack : isStackArg row with
  | true => exact ⟨rfl, by rw [answeredRow, if_pos hstack]⟩
  | false =>
    have hanswered : answeredRow stack registers pending row = applyEntryRegister registers pending row := by
      rw [answeredRow, if_neg (by rw [hstack]; decide)]
    rw [hanswered] at harg hwaiting
    rcases applyEntryRegister_cases registers pending row with ⟨hsame, hnone⟩ | ⟨register, hregister, -⟩
    · rw [hsame] at harg hwaiting
      rcases register_or_stack (h.placed hc hrow harg hwaiting) with ⟨register, hregister⟩ | hnot
      · rw [hnone] at hregister
        cases hregister
      · rw [hstack] at hnot
        cases hnot
    · exact absurd hwaiting (not_waiting_applied hregister)

theorem not_readFailed {registers : Payload} (hok : (payload.get "ok").isTrue = true)
    (hregisters : (payload.get "registers").asObj = some registers) : ¬ ReadFailed payload := by
  rintro (hfailed | hfailed)
  · rw [hok] at hfailed
    cases hfailed
  · rw [hregisters] at hfailed
    cases hfailed

/-- A failed register answer leaves a stack argument as it was, waiting. -/
theorem Taken.stack_left {pending : PendingRequest} {core' : DayVarCore} (h : Taken core core' pending)
    {row : VariableRecord} (hrow : row ∈ core.rows) (hstack : isStackArg row = true) (reason : String) :
    row ∈ (core'.markRowsError pending.variableNames reason).rows ∧ Waiting row := by
  obtain ⟨i, hi, -⟩ := (isStackArg_iff row).mp hstack
  obtain ⟨hstatus, hreason⟩ := h.opened.waiting row hrow i hi
  have hkept : (if row.name ∈ pending.variableNames then markError reason row else row) = row :=
    if_neg (h.opened.stack row hrow hstack).2
  rw [markRowsError, h.rows]
  exact ⟨List.mem_map.mpr ⟨row, hrow, hkept⟩, hstatus, hreason ▸ plannedReason_waiting i⟩

/-- An argument that the register request does not name is a stack argument. -/
theorem Taken.stack_of_unnamed {pending : PendingRequest} {core' : DayVarCore} (h : Taken core core' pending)
    {row : VariableRecord} (hrow : row ∈ core.rows) (hposition : argPosition row ≠ none)
    (hname : row.name ∉ pending.variableNames) : isStackArg row = true := by
  rcases register_or_stack hposition with ⟨register, hregister⟩ | hstack
  · exact absurd (h.opened.named row hrow register hregister).1 hname
  · exact hstack

/-- A memory response takes away only what covered the rows it decides. -/
theorem covered_memResponse (hc : Covered core) (payload : Payload) : Covered (core.applyMemResponse payload).core := by
  cases applyMemResponse_outcome core payload with
  | refused reason htake hafter => rwa [hafter]
  | applied pending core' htake hafter =>
    obtain ⟨_, id, -, -, -, -, hp, hkind, rfl⟩ := takePendingResponse_ok htake
    rw [hafter]
    intro row hrow harg hwaiting
    obtain ⟨before, hbefore, rfl⟩ := List.mem_map.mp hrow
    rw [applyEntryMemory] at harg hwaiting
    split at hwaiting
    · rename_i hname
      rw [if_pos hname] at harg
      obtain ⟨other, q, hq, hcovers⟩ := hc before hbefore harg hwaiting
      refine ⟨other, q, ?_, ?_⟩
      · refine (Dict.get?_pop_ne _ ?_).trans hq
        rintro rfl
        rw [hp] at hq
        obtain rfl := Option.some.inj hq
        rw [Covers, hkind] at hcovers
        exact hname hcovers
      · rw [applyEntryMemory, if_pos hname]
        exact hcovers
    · dsimp only at hwaiting
      split at hwaiting
      · cases hwaiting.1
      · exact absurd hwaiting (not_waiting_markError _ _)

/-- One response keeps the rows covered exactly when it fails no read of a stack argument. -/
theorem covered_answer_iff (h : Table core) (hc : Covered core) (e : RequestKind × Payload) :
    Covered (core.answer e) ↔ NoStackFailure core e := by
  obtain ⟨kind, payload⟩ := e
  cases kind with
  | reg =>
    change Covered (core.applyRegResponse payload).core ↔ _
    cases applyRegResponse_outcome core payload with
    | refused reason htake hafter =>
      rw [hafter]
      refine iff_of_true hc ?_
      rintro ⟨taken, hok⟩
      rw [htake] at hok
      cases hok
    | failed pending core' reason htake hfailed hafter =>
      have ht := h.taken htake
      rw [hafter]
      constructor
      · intro hcovered _ _ _ row hrow
        by_contra hstack
        rw [Bool.not_eq_false] at hstack
        obtain ⟨hleft, hwaiting⟩ := ht.stack_left hrow hstack reason
        have harg : row.isArg = true := by
          rw [isStackArg, Bool.and_eq_true] at hstack
          exact hstack.1
        obtain ⟨id, p, hp, -⟩ := hcovered row hleft harg hwaiting
        cases hp.symm.trans (ht.emptied id)
      · intro hno row hrow harg hwaiting
        have hstackless := hno ⟨_, htake⟩ rfl hfailed
        rw [markRowsError, ht.rows] at hrow
        obtain ⟨before, hbefore, rfl⟩ := List.mem_map.mp hrow
        split at hwaiting
        · exact absurd hwaiting (not_waiting_markError reason before)
        · rename_i hname
          rw [if_neg hname] at harg
          have hstack := ht.stack_of_unnamed hbefore (ht.placed hc hbefore harg hwaiting) hname
          rw [hstackless before hbefore] at hstack
          cases hstack
    | read pending core' registers htake hok hregisters hstack =>
      have ht := h.taken htake
      refine iff_of_true ?_ ?_
      · intro row hrow harg hwaiting
        cases hstack with
        | failed reason _ hafter =>
          rw [hafter, ht.rows] at hrow
          obtain ⟨before, hbefore, rfl⟩ := List.mem_map.mp hrow
          obtain ⟨-, hsame⟩ := stack_of_waiting ht hc hbefore harg hwaiting
          rw [hsame] at hwaiting
          exact absurd hwaiting (not_waiting_markError reason before)
        | asked rsp _ _ hafter htable =>
          rw [hafter, ht.rows] at hrow
          obtain ⟨before, hbefore, rfl⟩ := List.mem_map.mp hrow
          obtain ⟨hstackArg, hsame⟩ := stack_of_waiting ht hc hbefore harg hwaiting
          have hmem : before ∈ core'.rows.map (applyEntryRegister registers pending) := by
            rw [ht.rows]
            exact List.mem_map.mpr ⟨before, hbefore, applyEntryRegister_stack registers pending hstackArg⟩
          have hcovered := @stackLoop_covers rsp pending (core'.rows.map (applyEntryRegister registers pending))
            { core := core' } before.name (.inr ⟨before, hmem, hstackArg, rfl⟩)
          obtain ⟨q, hq, hkind, hnames⟩ := hcovered
          refine ⟨memRequestId pending.pcSeq before.name, q, by rw [htable, hq], ?_⟩
          rw [hsame, Covers, hkind]
          exact hnames ▸ List.mem_singleton_self before.name
      · exact fun _ _ hfailed => absurd hfailed (not_readFailed hok hregisters)
  | mem =>
    change Covered (core.applyMemResponse payload).core ↔ _
    exact iff_of_true (covered_memResponse hc payload) (by rintro _ ⟨⟩)

/-- An argument whose read fails is marked, whichever way the stack arguments go on without a stack pointer. -/
theorem answered_marked {registers : Payload} {pending : PendingRequest}
    (hok : (payload.get "ok").isTrue = true) (hregisters : (payload.get "registers").asObj = some registers)
    {stack : VariableRecord → VariableRecord} (hsame : ∀ row, SameLvar row (stack row))
    (hfailed : stackPointer registers = none → ∀ row, (stack row).status = .error) :
    ∀ row ∈ core.rows.map (answeredRow stack registers pending),
      AnsweredByFailure core (.reg, payload) row → row.status = .error := by
  rintro row hrow ⟨_, _, -, hposition, hreason⟩
  obtain ⟨before, -, rfl⟩ := List.mem_map.mp hrow
  obtain ⟨registers', hregisters', hcase⟩ := hreason.resolve_left (not_readFailed hok hregisters)
  obtain rfl := Option.some.inj (hregisters.symm.trans hregisters')
  rw [answeredRow] at hcase ⊢
  split at hcase
  · rename_i hstackArg
    rw [if_pos hstackArg]
    rcases hcase with ⟨register, hregister, -⟩ | ⟨-, hrsp⟩
    · obtain ⟨i, hi, -, hnone⟩ := (isStackArg_iff before).mp hstackArg
      rw [(hsame before).argPosition, hi, Option.bind_some, hnone] at hregister
      cases hregister
    · exact hfailed hrsp before
  · rename_i hregisterArg
    rw [if_neg hregisterArg]
    have happlied := (applyEntryRegister_same registers pending before).1
    rcases hcase with ⟨register, hregister, hmissing⟩ | ⟨hstackArg, -⟩
    · rw [happlied.argPosition] at hregister
      rw [applyEntryRegister_missing hregister hmissing]
      rfl
    · rw [happlied.isStackArg] at hstackArg
      exact absurd hstackArg hregisterArg

/-- One response marks the failed reads exactly when it fails no read of a stack argument. -/
theorem failuresMarked_iff (h : Table core) (e : RequestKind × Payload) :
    FailuresMarked core e ↔ NoStackFailure core e := by
  obtain ⟨kind, payload⟩ := e
  cases kind with
  | reg =>
    have hrefused {reason : String} (htake : core.takePendingResponse payload .reg = .error reason)
        {taken : PendingRequest × DayVarCore} (hok : core.takePendingResponse payload .reg = .ok taken) : False := by
      rw [htake] at hok
      cases hok
    rw [FailuresMarked]
    change (∀ row ∈ (core.applyRegResponse payload).core.rows, _) ↔ _
    cases applyRegResponse_outcome core payload with
    | refused reason htake hafter =>
      refine iff_of_true ?_ ?_
      · rintro row hrow ⟨_, _, hok, -⟩
        exact (hrefused htake hok).elim
      · rintro ⟨_, hok⟩
        exact (hrefused htake hok).elim
    | failed pending core' reason htake hfailed hafter =>
      have ht := h.taken htake
      rw [hafter]
      constructor
      · intro hmarked _ _ _ row hrow
        by_contra hstack
        rw [Bool.not_eq_false] at hstack
        obtain ⟨hleft, hstatus, -⟩ := ht.stack_left hrow hstack reason
        have herror := hmarked row hleft ⟨pending, core', htake, argPosition_of_stack hstack, .inl hfailed⟩
        rw [hstatus] at herror
        cases herror
      · rintro hno row hrow ⟨_, _, -, hposition, -⟩
        rw [markRowsError, ht.rows] at hrow
        obtain ⟨before, hbefore, rfl⟩ := List.mem_map.mp hrow
        split
        · rfl
        · rename_i hname
          rw [if_neg hname] at hposition
          have hstack := ht.stack_of_unnamed hbefore hposition hname
          rw [hno ⟨_, htake⟩ rfl hfailed before hbefore] at hstack
          cases hstack
    | read pending core' registers htake hok hregisters hstack =>
      have ht := h.taken htake
      refine iff_of_true ?_ fun _ _ hfailed => absurd hfailed (not_readFailed hok hregisters)
      cases hstack with
      | failed reason _ hafter =>
        rw [hafter, ht.rows]
        exact answered_marked hok hregisters (fun row => ⟨rfl, rfl, rfl, rfl⟩) fun _ _ => rfl
      | asked rsp hrsp _ hafter _ =>
        rw [hafter, ht.rows]
        refine answered_marked hok hregisters (fun row => ⟨rfl, rfl, rfl, rfl⟩) fun hnone => ?_
        rw [hrsp] at hnone
        cases hnone
  | mem =>
    refine iff_of_true ?_ (by rintro _ ⟨⟩)
    rintro row hrow ⟨pending, core', htake, hname, hfailed⟩
    change row ∈ (core.applyMemResponse payload).core.rows at hrow
    rw [applyMemResponse, htake] at hrow
    obtain ⟨before, -, rfl⟩ := List.mem_map.mp hrow
    rw [applyEntryMemory] at hname ⊢
    split
    · rename_i hother
      rw [if_pos hother] at hname
      exact absurd hname hother
    · dsimp only
      rw [if_neg (by rw [hfailed]; decide)]
      rfl

end table

/-- After a plan at function entry with distinct variable names, every waiting argument row stays covered and every
failed read is marked exactly when no accepted register answer fails while a stack argument is planned. -/
theorem waiting_rows_covered_iff (core : DayVarCore) (lvars : List VariableRecord) (context : PcContext)
    (hentry : context.atFunctionEntry = true) (hnames : (lvars.map VariableRecord.name).Nodup)
    (responses : List (RequestKind × Payload)) :
    ((∀ t ∈ Run.states answer (core.buildEntryPlan lvars context).1 responses, Covered t) ∧
        Run.Along answer FailuresMarked (core.buildEntryPlan lvars context).1 responses) ↔
      Run.Along answer NoStackFailure (core.buildEntryPlan lvars context).1 responses := by
  obtain ⟨htable, hcovered⟩ := table_buildEntryPlan core hentry hnames
  have hstates := Run.forall_states_iff_along answer (P := NoStackFailure) (I := Table) (G := Covered)
    (fun _ e h => answer_table h e) (fun _ e h hc => covered_answer_iff h hc e) htable hcovered responses
  have hmarked := Run.along_congr answer (I := Table) (fun _ e h => answer_table h e)
    (fun _ e h => failuresMarked_iff h e) htable responses
  rw [hstates, hmarked, and_self]

/-- A function with a fifth argument. -/
def lateArgument : List VariableRecord :=
    [{ lvarIndex := 0, name := "a5", size := 8, isArg := true, argIndex := some 4 }]

def lateContext : PcContext := { pcSeq := 1, runtimePc := "0x401000", idaEa := "0x401000", atFunctionEntry := true }

/-- The answer to its register request, with this verdict. -/
def lateAnswer (ok : Bool) : RequestKind × Payload :=
  (.reg, [("pc_seq", .int 1), ("request_id", .str "reg-1-entry"), ("ok", .bool ok),
    ("registers", .obj [("rsp", .str "0x2000")])])

theorem waiting_rows_covered_iff_late :
    let start := (({} : DayVarCore).buildEntryPlan lateArgument lateContext).1
    (∀ t ∈ Run.states answer start [lateAnswer true], Covered t) ∧
    Run.Along answer FailuresMarked start [lateAnswer true] := by
  refine (waiting_rows_covered_iff {} lateArgument lateContext rfl (by decide) [lateAnswer true]).mpr ⟨?_, trivial⟩
  rintro - - (hfailed | hfailed)
  · cases hfailed
  · cases hfailed

/-- After a failed answer the fifth argument waits for `rsp`, and no request is outstanding. -/
theorem failed_registers_leave_waiting : ¬ ∀ (core : DayVarCore) (lvars : List VariableRecord) (context : PcContext),
    context.atFunctionEntry = true → (lvars.map VariableRecord.name).Nodup →
    ∀ responses : List (RequestKind × Payload),
      (∀ t ∈ Run.states answer (core.buildEntryPlan lvars context).1 responses, Covered t) ∧
        Run.Along answer FailuresMarked (core.buildEntryPlan lvars context).1 responses := by
  intro h
  obtain ⟨hcovered, -⟩ := h {} lateArgument lateContext rfl (by decide) [lateAnswer false]
  let after := (({} : DayVarCore).buildEntryPlan lateArgument lateContext).1.answer (lateAnswer false)
  have hrow : ∃ row ∈ after.rows, row.isArg = true ∧ row.status = .unavailable ∧
    row.reason ∈ waitingReasons := by decide
  have hempty : after.pendingRequests.entries = [] := by decide
  obtain ⟨row, hmem, harg, hwaiting⟩ := hrow
  obtain ⟨id, p, hp, -⟩ := hcovered after (List.mem_cons_of_mem _ (List.mem_singleton_self _)) row hmem harg hwaiting
  rw [Dict.get?, hempty] at hp
  cases hp

end DynvarSync.Ida.DayVarCore
