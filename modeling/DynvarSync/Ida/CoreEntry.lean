import DynvarSync.Lib.Fallible
import DynvarSync.Ida.Correlation
import DynvarSync.Lib.AnyOrder
import DynvarSync.Windbg.Machine

/-! Entry arguments answered by one machine: planning, the register reply, and
the stack argument replies, row by row. -/
namespace DynvarSync.Ida.DayVarCore
open Lib PyText Windbg

/-- The argument position of a variable, by the code's own test. -/
def argPosition (lvar : VariableRecord) : Option Nat := if lvar.isArg then lvar.argIndex else none

theorem argPosition_eq_some_iff (lvar : VariableRecord) (i : Nat) :
    argPosition lvar = some i ↔ lvar.isArg = true ∧ lvar.argIndex = some i := by
  unfold argPosition
  cases lvar.isArg <;> simp

/-- A row still describes the variable it was planned for. -/
structure SameLvar (lvar row : VariableRecord) : Prop where
  name : row.name = lvar.name
  isArg : row.isArg = lvar.isArg
  argIndex : row.argIndex = lvar.argIndex
  size : row.size = lvar.size

/-- What an entry register holds, masked to the variable's width when it is supported. -/
def entryRegisterText (m : Machine) (lvar : VariableRecord) (register : String) : String :=
  let value := (m.registers register).toNat
  formatHex ((if lvar.size ∈ supportedWidths then value % 2 ^ (lvar.size * 8) else value : Nat) : Int)

def stackArgAddress (m : Machine) (argIndex : Nat) : Nat := (m.registers "rsp").toNat + 0x28 + 8 * (argIndex - 4)

/-- The value at the ABI location of argument `argIndex`. -/
def entryValue (m : Machine) (lvar : VariableRecord) (argIndex : Nat) : String :=
  match entryRegisters[argIndex]? with
  | some register => entryRegisterText m lvar register
  | none => m.memoryText (stackArgAddress m argIndex) (runtimeReadSize lvar.size)

/-- An argument row shows its own location, no other row is fresh. -/
def EntryCorrect (m : Machine) (lvar row : VariableRecord) : Prop :=
  match argPosition lvar with
  | some argIndex => row.status = .fresh ∧ row.value = entryValue m lvar argIndex
  | none => row.status ≠ .fresh

instance (m : Machine) (lvar row : VariableRecord) : Decidable (EntryCorrect m lvar row) :=
  match h : argPosition lvar with
  | some argIndex =>
    decidable_of_iff (row.status = .fresh ∧ row.value = entryValue m lvar argIndex) (by rw [EntryCorrect, h])
  | none => decidable_of_iff (row.status ≠ .fresh) (by rw [EntryCorrect, h])

/-- After the register reply only the register arguments are fresh. -/
def RegistersDone (m : Machine) (lvar row : VariableRecord) : Prop :=
  match (argPosition lvar).bind (entryRegisters[·]?) with
  | some register => row.status = .fresh ∧ row.value = entryRegisterText m lvar register
  | none => row.status = .unavailable

theorem forall₂_imp_of_mem {α β : Type} {R S : α → β → Prop} {l : List α} {l' : List β}
    (h : List.Forall₂ R l l') (himp : ∀ a ∈ l, ∀ b ∈ l', R a b → S a b) : List.Forall₂ S l l' := by
  induction h with
  | nil => exact .nil
  | cons hr _ ih =>
    refine .cons (himp _ (List.mem_cons_self ..) _ (List.mem_cons_self ..) hr) (ih fun a ha b hb => ?_)
    exact himp a (List.mem_cons_of_mem _ ha) b (List.mem_cons_of_mem _ hb)

theorem SameLvar.refl (row : VariableRecord) : SameLvar row row := ⟨rfl, rfl, rfl, rfl⟩

theorem SameLvar.isStackArg {lvar row : VariableRecord} (h : SameLvar lvar row) :
    isStackArg row = isStackArg lvar := by
  unfold DayVarCore.isStackArg
  rw [h.isArg, h.argIndex]

theorem runtimeReadSize_supported (size : Nat) : runtimeReadSize size ∈ supportedWidths := by
  unfold runtimeReadSize
  split
  · assumption
  · decide

/-- A stack argument has a position, and no register at it. -/
theorem isStackArg_iff (lvar : VariableRecord) :
    isStackArg lvar = true ↔ ∃ i, argPosition lvar = some i ∧ lvar.argIndex = some i ∧ entryRegisters[i]? = none := by
  unfold isStackArg argPosition
  cases lvar.isArg <;> cases lvar.argIndex <;> simp

section planning
variable (previousRows : Dict (String × String) VariableRecord) (runtimePc : String)

/-- One turn at function entry appends an unavailable row and asks for what the argument needs. -/
theorem planVariable_entry (plan : EntryPlan) (lvar : VariableRecord) :
    let plan' := planVariable previousRows runtimePc true plan lvar
    (∃ row, plan'.rows = plan.rows ++ [row] ∧ SameLvar lvar row ∧ row.status = .unavailable) ∧
      (∀ register ∈ plan.neededRegisters, register ∈ plan'.neededRegisters) ∧
      (plan.needsRsp = true → plan'.needsRsp = true) ∧
      (∀ register, (argPosition lvar).bind (entryRegisters[·]?) = some register →
        register ∈ plan'.neededRegisters) ∧
      (isStackArg lvar = true → plan'.needsRsp = true) := by
  unfold planVariable argPosition
  rw [isStackArg_iff]
  cases harg : lvar.isArg with
  | false =>
    refine ⟨⟨_, rfl, ⟨rfl, harg.symm, rfl, rfl⟩, rfl⟩, fun _ h => h, id, by rintro _ ⟨⟩, ?_⟩
    simp [argPosition, harg]
  | true =>
    cases hindex : lvar.argIndex with
    | none =>
      refine ⟨⟨_, rfl, ⟨rfl, harg.symm, hindex.symm, rfl⟩, rfl⟩, fun _ h => h, id, by rintro _ ⟨⟩, ?_⟩
      simp
    | some i =>
      simp only [Bool.not_true, Bool.false_eq_true, if_false, if_true, Option.bind_some]
      cases hreg : entryRegisters[i]? with
      | some register =>
        refine ⟨⟨_, rfl, ⟨rfl, harg.symm, hindex.symm, rfl⟩, rfl⟩, fun r h => ?_, id, fun r h => ?_, ?_⟩
        · dsimp only
          split
          · exact h
          · exact List.mem_append_left _ h
        · cases h
          dsimp only
          split
          · assumption
          · exact List.mem_append_right _ (List.mem_singleton_self _)
        · rintro ⟨j, _, hj, hnone⟩
          cases hj
          rw [hreg] at hnone
          cases hnone
      | none =>
        exact ⟨⟨_, rfl, ⟨rfl, harg.symm, hindex.symm, rfl⟩, rfl⟩, fun _ h => h, fun _ => rfl,
          by rintro _ ⟨⟩, fun _ => rfl⟩

/-- What the planning loop has established after the variables `done`. -/
structure EntryPlanned (done : List VariableRecord) (plan : EntryPlan) : Prop where
  rows : List.Forall₂ (fun lvar row => SameLvar lvar row ∧ row.status = .unavailable) done plan.rows
  registers : ∀ lvar ∈ done, ∀ register, (argPosition lvar).bind (entryRegisters[·]?) = some register →
    register ∈ plan.neededRegisters
  rsp : ∀ lvar ∈ done, isStackArg lvar = true → plan.needsRsp = true

theorem entryLoop_planned (lvars done : List VariableRecord) {plan : EntryPlan}
    (hplan : EntryPlanned done plan) :
    EntryPlanned (done ++ lvars) (lvars.foldl (planVariable previousRows runtimePc true) plan) := by
  induction lvars generalizing done plan with
  | nil => rwa [List.append_nil]
  | cons lvar lvars ih =>
    obtain ⟨⟨row, hrows, hsame, hstatus⟩, hneeded, hrsp, hregister, hstack⟩ :=
      planVariable_entry previousRows runtimePc plan lvar
    rw [List.append_cons]
    refine ih _ ⟨?_, fun l hl r hr => ?_, fun l hl h => ?_⟩
    · rw [hrows]
      exact List.rel_append hplan.rows (.cons ⟨hsame, hstatus⟩ .nil)
    · rcases List.mem_append.mp hl with hl | hl
      · exact hneeded r (hplan.registers l hl r hr)
      · exact hregister r (List.mem_singleton.mp hl ▸ hr)
    · rcases List.mem_append.mp hl with hl | hl
      · exact hrsp (hplan.rsp l hl h)
      · exact hstack (List.mem_singleton.mp hl ▸ h)

end planning

/-- The machine answers the planned register request, if there is one. -/
def answerRegisters (m : Machine) (planned : DayVarCore × Option Envelope) : DayVarCore × List Envelope :=
  match planned.2 with
  | none => (planned.1, [])
  | some request =>
    let applied := planned.1.applyRegResponse (m.regResponse request.payload)
    (applied.core, applied.memRequests)

/-- The machine answers memory requests one by one. -/
def answerMemory (m : Machine) (core : DayVarCore) (requests : List Envelope) : DayVarCore :=
  requests.foldl (fun core request => (core.applyMemResponse (m.memResponse request.payload)).core) core

section answers
variable (m : Machine) (context : PcContext)

/-- The register request of an entry plan. -/
def entryPending (plan : EntryPlan) : PendingRequest :=
  { kind := .reg, pcSeq := context.pcSeq, requestId := regRequestId context.pcSeq
    runtimePc := context.runtimePc, variableNames := plan.regVariables, registers := plan.withRsp }

def entryPayload (plan : EntryPlan) : Payload :=
  [("pc_seq", .int context.pcSeq), ("request_id", .str (regRequestId context.pcSeq)),
   ("runtime_pc", .str context.runtimePc), ("registers", .arr (plan.withRsp.map .str)),
   ("reason", .str "auto_live_refresh")]

/-- The memory request of a stack argument. -/
def stackPending (lvar : VariableRecord) : PendingRequest :=
  { kind := .mem, pcSeq := context.pcSeq, requestId := memRequestId context.pcSeq lvar.name
    runtimePc := context.runtimePc, variableNames := [lvar.name]
    address := formatHex (stackArgAddress m (lvar.argIndex.getD 0)), size := runtimeReadSize lvar.size }

def stackPayload (lvar : VariableRecord) : Payload :=
  [("pc_seq", .int context.pcSeq), ("request_id", .str (memRequestId context.pcSeq lvar.name)),
   ("runtime_pc", .str context.runtimePc),
   ("address", .str (formatHex (stackArgAddress m (lvar.argIndex.getD 0)))),
   ("size", .int (runtimeReadSize lvar.size)), ("reason", .str "stack_arg"), ("variable", .str lvar.name)]

theorem applyRegResponse_machine (core : DayVarCore) (plan : EntryPlan) (hpc : core.currentPc = some context)
    (hget : core.pendingRequests.get? (regRequestId context.pcSeq) = some (entryPending context plan)) :
    let registers := m.registerTexts plan.withRsp
    let pending := entryPending context plan
    let applied := core.applyRegResponse (m.regResponse (entryPayload context plan))
    (applied.core, applied.memRequests) =
      ({ core with
          pendingRequests := core.pendingRequests.pop (regRequestId context.pcSeq)
          rows := core.rows.map (applyEntryRegister registers pending) } : DayVarCore).buildStackMemRequests
        registers pending := by
  have hreply : m.regResponse (entryPayload context plan) =
      [("pc_seq", .int context.pcSeq), ("request_id", .str (regRequestId context.pcSeq)),
       ("runtime_pc", .str context.runtimePc), ("ok", .bool true),
       ("registers", .obj (m.registerTexts plan.withRsp))] := by
    have hnames : Machine.requestedRegisters (entryPayload context plan) = plan.withRsp := by
      rw [Machine.requestedRegisters]
      exact Machine.filterMap_asStr_map plan.withRsp
    rw [Machine.regResponse, hnames]
    simp [entryPayload]
  have htake : core.takePendingResponse (m.regResponse (entryPayload context plan)) .reg =
      .ok (entryPending context plan,
        { core with pendingRequests := core.pendingRequests.pop (regRequestId context.pcSeq) }) := by
    rw [hreply]
    simp [takePendingResponse, hpc, Json.asStr, hget, entryPending]
  unfold applyRegResponse
  rw [htake, hreply]
  simp [Json.asObj]

/-- The register reply fills exactly the register arguments. -/
theorem applyEntryRegister_machine {names : List String} (pending : PendingRequest) {lvar row : VariableRecord}
    (hnames : ∀ register, (argPosition lvar).bind (entryRegisters[·]?) = some register → register ∈ names)
    (hsame : SameLvar lvar row) (hstatus : row.status = .unavailable) :
    SameLvar lvar (applyEntryRegister (m.registerTexts names) pending row) ∧
      RegistersDone m lvar (applyEntryRegister (m.registerTexts names) pending row) := by
  have harg : argPosition lvar = if row.isArg then row.argIndex else none := by
    rw [argPosition, hsame.isArg, hsame.argIndex]
  unfold RegistersDone applyEntryRegister
  rw [harg] at hnames ⊢
  cases hisArg : row.isArg with
  | false => exact ⟨hsame, hstatus⟩
  | true =>
    rw [hisArg, if_pos rfl] at hnames
    rw [if_pos rfl]
    cases hreg : row.argIndex.bind (entryRegisters[·]?) with
    | none => exact ⟨hsame, hstatus⟩
    | some register =>
      have htext := Machine.registerTexts_get m (hnames register hreg)
      have hne : formatHexPadded 16 (m.registers register).toNat ≠ "" := formatHexPadded_ne_empty _ _
      dsimp only
      rw [htext]
      simp only [Json.asStr, Option.filter_some, ne_eq, hne, not_false_eq_true, decide_true, if_true, true_and]
      refine ⟨⟨hsame.name, hisArg.symm.trans hsame.isArg, hsame.argIndex, hsame.size⟩, ?_⟩
      unfold formatHexValue entryRegisterText
      rw [intAuto_formatHexPadded, hsame.size]
      dsimp only
      split
      · rw [maskWidth_natCast]
      · rfl

theorem stackArgOffset_eq {argIndex : Nat} (h : entryRegisters.length ≤ argIndex) :
    ((m.registers "rsp").toNat : Int) + stackArgOffset argIndex = (stackArgAddress m argIndex : Nat) := by
  have h4 : 4 ≤ argIndex := h
  unfold stackArgOffset stackArgAddress stackArgBaseOffset stackArgSlotSize
  omega

theorem memRequestId_injective {pcSeq : Int} {a b : String} (h : memRequestId pcSeq a = memRequestId pcSeq b) :
    a = b := by
  have htext := congrArg String.toList h
  simp only [memRequestId, String.toList_append] at htext
  exact String.toList_injective (List.append_cancel_left htext)

/-- A stack argument's turn asks for its slot under its name. -/
theorem requestStackArg_stack (plan : EntryPlan) (acc : StackRequests) {lvar row : VariableRecord}
    (hsame : SameLvar lvar row) (hstack : isStackArg lvar = true) :
    requestStackArg (m.registers "rsp").toNat (entryPending context plan) acc row =
      { core := { acc.core with
          nextMessageId := acc.core.nextMessageId + 1
          pendingRequests := acc.core.pendingRequests.set (memRequestId context.pcSeq lvar.name)
            (stackPending m context lvar) }
        rows := acc.rows ++ [{ row with
          location := formatHex (stackArgAddress m (lvar.argIndex.getD 0))
          reason := "waiting for stack argument memory read" }]
        messages := acc.messages ++
          [{ id := acc.core.nextMessageId, type := .memRequest, payload := stackPayload m context lvar }] } := by
  obtain ⟨i, _, hindex, hregister⟩ := (isStackArg_iff lvar).mp hstack
  have haddress := stackArgOffset_eq m (List.getElem?_eq_none_iff.mp hregister)
  rw [requestStackArg, hsame.isStackArg, hstack]
  simp only [stackPending, stackPayload, hsame.argIndex, hsame.name, hsame.size, hindex, Option.getD_some, haddress]
  rfl

/-- The stack arguments of `done` are requested, each under its own name, and
every row still shows what the register reply gave it. -/
structure StackRequested (done : List VariableRecord) (core : DayVarCore) (rows : List VariableRecord)
    (messages : List Envelope) : Prop where
  rows : List.Forall₂ (fun lvar row => SameLvar lvar row ∧ RegistersDone m lvar row) done rows
  messages : messages.map Envelope.payload = (done.filter isStackArg).map (stackPayload m context)
  current : core.currentPc = some context
  pending : ((done.filter isStackArg).map VariableRecord.name).Nodup → ∀ lvar ∈ done.filter isStackArg,
    core.pendingRequests.get? (memRequestId context.pcSeq lvar.name) = some (stackPending m context lvar)

theorem StackRequested.turn (plan : EntryPlan) {done : List VariableRecord} {acc : StackRequests}
    (h : StackRequested m context done acc.core acc.rows acc.messages) {lvar row : VariableRecord}
    (hsame : SameLvar lvar row) (hdone : RegistersDone m lvar row) :
    let acc' := requestStackArg (m.registers "rsp").toNat (entryPending context plan) acc row
    StackRequested m context (done ++ [lvar]) acc'.core acc'.rows acc'.messages := by
  cases hstack : isStackArg lvar with
  | false =>
    have hfilter : (done ++ [lvar]).filter isStackArg = done.filter isStackArg := by simp [hstack]
    rw [requestStackArg, hsame.isStackArg, hstack]
    exact ⟨List.rel_append h.rows (.cons ⟨hsame, hdone⟩ .nil), hfilter ▸ h.messages, h.current, hfilter ▸ h.pending⟩
  | true =>
    have hfilter : (done ++ [lvar]).filter isStackArg = done.filter isStackArg ++ [lvar] := by simp [hstack]
    rw [requestStackArg_stack m context plan acc hsame hstack]
    refine ⟨List.rel_append h.rows (.cons ⟨⟨hsame.name, hsame.isArg, hsame.argIndex, hsame.size⟩, hdone⟩ .nil), ?_,
      h.current, fun hnodup l hl => ?_⟩
    · rw [hfilter, List.map_append, List.map_append, h.messages]
      rfl
    · rw [hfilter, List.map_append, List.map_singleton, List.nodup_append] at hnodup
      obtain ⟨hnodup, _, hdisjoint⟩ := hnodup
      dsimp only
      rw [hfilter, List.mem_append, List.mem_singleton] at hl
      rcases hl with hl | rfl
      · have hne : memRequestId context.pcSeq l.name ≠ memRequestId context.pcSeq lvar.name := fun he =>
          hdisjoint _ (List.mem_map_of_mem hl) _ (List.mem_singleton_self _) (memRequestId_injective he)
        rw [Dict.get?_set_ne _ _ hne]
        exact h.pending hnodup l hl
      · rw [Dict.get?_set_self]

theorem stackLoop_requested (plan : EntryPlan) (acc : StackRequests) {lvars rows done : List VariableRecord}
    (hrows : List.Forall₂ (fun lvar row => SameLvar lvar row ∧ RegistersDone m lvar row) lvars rows)
    (h : StackRequested m context done acc.core acc.rows acc.messages) :
    let acc' := rows.foldl (requestStackArg (m.registers "rsp").toNat (entryPending context plan)) acc
    StackRequested m context (done ++ lvars) acc'.core acc'.rows acc'.messages := by
  induction hrows generalizing done acc with
  | nil => rwa [List.append_nil]
  | cons hhead _ ih =>
    rw [List.append_cons]
    exact ih _ (h.turn m context plan hhead.1 hhead.2)

/-- A plan that asks for no register has no argument at all. -/
theorem EntryPlanned.no_stack {plan : EntryPlan} {lvars : List VariableRecord} (h : EntryPlanned lvars plan)
    (hrsp : "rsp" ∉ plan.withRsp) : ∀ lvar ∈ lvars, isStackArg lvar = false := by
  intro lvar hl
  by_contra hstack
  rw [Bool.not_eq_false] at hstack
  refine hrsp ?_
  rw [EntryPlan.withRsp]
  by_cases hin : "rsp" ∈ plan.neededRegisters
  · rwa [if_neg fun hand => hand.2 hin]
  · rw [if_pos ⟨h.rsp lvar hl hstack, hin⟩]
    exact List.mem_append_right _ (List.mem_singleton_self _)

theorem mem_withRsp {plan : EntryPlan} {register : String} (h : register ∈ plan.neededRegisters) :
    register ∈ plan.withRsp := by
  unfold EntryPlan.withRsp
  split
  · exact List.mem_append_left _ h
  · exact h

theorem markStackRowsError_none {core : DayVarCore} (reason : String)
    (h : ∀ row ∈ core.rows, isStackArg row = false) : core.markStackRowsError reason = core := by
  have hrows : (core.rows.map fun row => if isStackArg row then markError reason row else row) = core.rows := by
    refine (List.map_congr_left fun row hr => ?_).trans (List.map_id _)
    rw [h row hr]
    rfl
  rw [markStackRowsError, hrows]

/-- The stack requests that follow the register reply. -/
theorem buildStackMemRequests_requested {plan : EntryPlan} {lvars : List VariableRecord} {core : DayVarCore}
    (hplan : EntryPlanned lvars plan) (hcurrent : core.currentPc = some context)
    (hrows : List.Forall₂ (fun lvar row => SameLvar lvar row ∧ RegistersDone m lvar row) lvars core.rows) :
    let mid := core.buildStackMemRequests (m.registerTexts plan.withRsp) (entryPending context plan)
    StackRequested m context lvars mid.1 mid.1.rows mid.2 := by
  unfold buildStackMemRequests
  by_cases hrsp : "rsp" ∈ plan.withRsp
  · have hne : formatHexPadded 16 (m.registers "rsp").toNat ≠ "" := formatHexPadded_ne_empty _ _
    rw [m.registerTexts_get hrsp]
    simp only [Json.asStr, Option.filter_some, ne_eq, hne, not_false_eq_true, decide_true, if_true,
      intAuto_formatHexPadded]
    have hstart : StackRequested m context [] core [] [] := ⟨.nil, rfl, hcurrent, fun _ _ h => by cases h⟩
    obtain ⟨hrows, hmessages, hcurrent, hpending⟩ :=
      stackLoop_requested m context plan { core := core } hrows hstart
    exact ⟨hrows, hmessages, hcurrent, hpending⟩
  · have hstack := hplan.no_stack hrsp
    have hnone : ∀ row ∈ core.rows, isStackArg row = false := by
      intro row hr
      obtain ⟨lvar, hl, hsame⟩ := exists_of_forall₂_mem hrows hr
      exact hsame.1.isStackArg.trans (hstack lvar hl)
    have hfilter : lvars.filter isStackArg = [] := List.filter_eq_nil_iff.mpr fun l hl => by simp [hstack l hl]
    rw [m.registerTexts_get_absent hrsp]
    simp only [Json.asStr, Option.filter_none]
    rw [markStackRowsError_none _ hnone]
    refine ⟨hrows, ?_, hcurrent, ?_⟩
    · rw [hfilter]
      rfl
    · rw [hfilter]
      exact fun _ _ h => by cases h

/-- The whole register stage of a plan made at function entry. -/
theorem answerRegisters_requested (core : DayVarCore) (lvars : List VariableRecord)
    (hentry : context.atFunctionEntry = true) :
    let mid := answerRegisters m (core.buildEntryPlan lvars context)
    StackRequested m context lvars mid.1 mid.1.rows mid.2 := by
  unfold buildEntryPlan
  rw [hentry]
  dsimp only
  generalize hprior : (core.startPcContext context).rows.foldl
    (fun d row => d.set (row.functionEa, row.name) row) Dict.empty = previousRows
  have hplan : EntryPlanned lvars (lvars.foldl (planVariable previousRows context.runtimePc true) {}) :=
    entryLoop_planned previousRows context.runtimePc lvars []
      ⟨.nil, (fun _ h => by cases h), (fun _ h => by cases h)⟩
  generalize lvars.foldl (planVariable previousRows context.runtimePc true) {} = plan at hplan
  have hregisters : List.Forall₂ (fun lvar row => SameLvar lvar row ∧ RegistersDone m lvar row) lvars
      (plan.rows.map (applyEntryRegister (m.registerTexts plan.withRsp) (entryPending context plan))) := by
    rw [List.forall₂_map_right_iff]
    refine forall₂_imp_of_mem hplan.rows fun lvar hl row _ h => ?_
    exact applyEntryRegister_machine m _ (fun r hr => mem_withRsp (hplan.registers lvar hl r hr)) h.1 h.2
  split
  · rename_i hnone
    have hstack := hplan.no_stack (hnone ▸ List.not_mem_nil)
    have hfilter : lvars.filter isStackArg = [] := List.filter_eq_nil_iff.mpr fun l hl => by simp [hstack l hl]
    refine ⟨forall₂_imp_of_mem hplan.rows fun lvar hl row _ h => ⟨h.1, ?_⟩, ?_, rfl, ?_⟩
    · unfold RegistersDone
      cases hregister : (argPosition lvar).bind (entryRegisters[·]?) with
      | none => exact h.2
      | some register =>
        have hin := mem_withRsp (hplan.registers lvar hl register hregister)
        rw [hnone] at hin
        cases hin
    · rw [hfilter]
      rfl
    · rw [hfilter]
      exact fun _ _ h => by cases h
  · let planned : DayVarCore :=
      { core with
        nextMessageId := core.nextMessageId + 1
        currentPc := some context
        pendingRequests := Dict.empty.set (regRequestId context.pcSeq) (entryPending context plan)
        rows := plan.rows }
    have hreply := applyRegResponse_machine m context planned plan rfl (Dict.get?_set_self _ _ _)
    change let mid := ((planned.applyRegResponse (m.regResponse (entryPayload context plan))).core,
        (planned.applyRegResponse (m.regResponse (entryPayload context plan))).memRequests)
      StackRequested m context lvars mid.1 mid.1.rows mid.2
    rw [hreply]
    exact buildStackMemRequests_requested m context hplan rfl hregisters

end answers

end DynvarSync.Ida.DayVarCore
