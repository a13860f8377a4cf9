import DynvarSync.Ida.Controller
import DynvarSync.Ida.Correlation

/-! Which PC the displayed rows belong to: every refresh shows rows of the current
context, and a pc_update that cannot be mapped is the one message that leaves
older rows on display. -/
namespace DynvarSync.Ida
open Lib PyText

namespace DayVarCore

theorem mem_map_currentPc {rows : List VariableRecord} {f : VariableRecord → VariableRecord} {pc : String}
    (hf : ∀ row, (f row).currentPc = row.currentPc) (h : ∀ row ∈ rows, row.currentPc = pc) :
    ∀ row ∈ rows.map f, row.currentPc = pc := by
  intro row' hrow'
  obtain ⟨row, hrow, rfl⟩ := List.mem_map.mp hrow'
  exact (hf row).trans (h row hrow)

theorem applyEntryRegister_currentPc (registers : Payload) (pending : PendingRequest) (row : VariableRecord) :
    (applyEntryRegister registers pending row).currentPc = row.currentPc := by
  unfold applyEntryRegister
  split
  · split <;> rfl
  · rfl

theorem applyEntryMemory_currentPc (payload : Payload) (pending : PendingRequest) (row : VariableRecord) :
    (applyEntryMemory payload pending row).currentPc = row.currentPc := by
  unfold applyEntryMemory
  split
  · rfl
  · dsimp only
    split <;> rfl

theorem ite_markError_currentPc (p : VariableRecord → Prop) [DecidablePred p] (reason : String) (row : VariableRecord) :
    (if p row then markError reason row else row).currentPc = row.currentPc := by
  split <;> rfl

theorem requestStackArg_display (rsp : Int) (pending : PendingRequest) (acc : StackRequests) (row : VariableRecord) :
    (requestStackArg rsp pending acc row).core.currentPc = acc.core.currentPc ∧
      ∃ r, (requestStackArg rsp pending acc row).rows = acc.rows ++ [r] ∧ r.currentPc = row.currentPc := by
  unfold requestStackArg
  split
  · exact ⟨rfl, row, rfl, rfl⟩
  · exact ⟨rfl, _, rfl, rfl⟩

/-- The stack loop appends rows of the PC it reads them at. -/
theorem stackLoop_display (rsp : Int) (pending : PendingRequest) (rows : List VariableRecord) (acc : StackRequests) :
    let acc' := rows.foldl (requestStackArg rsp pending) acc
    acc'.core.currentPc = acc.core.currentPc ∧ ∀ pc, (∀ row ∈ rows, row.currentPc = pc) →
      (∀ row ∈ acc.rows, row.currentPc = pc) → ∀ row ∈ acc'.rows, row.currentPc = pc := by
  induction rows generalizing acc with
  | nil => exact ⟨rfl, fun _ _ h => h⟩
  | cons row rows ih =>
    obtain ⟨hstep, r, happend, hr⟩ := requestStackArg_display rsp pending acc row
    obtain ⟨hcore, hall⟩ := ih (requestStackArg rsp pending acc row)
    refine ⟨hcore.trans hstep, fun pc hrows hacc => ?_⟩
    obtain ⟨hrow, hrows⟩ := List.forall_mem_cons.mp hrows
    refine hall pc hrows ?_
    rw [happend]
    exact List.forall_mem_append.mpr ⟨hacc, List.forall_mem_singleton.mpr (hr.trans hrow)⟩

theorem buildStackMemRequests_display (core : DayVarCore) (registers : Payload) (pending : PendingRequest) :
    (core.buildStackMemRequests registers pending).1.currentPc = core.currentPc ∧
      ∀ pc, (∀ row ∈ core.rows, row.currentPc = pc) →
        ∀ row ∈ (core.buildStackMemRequests registers pending).1.rows, row.currentPc = pc := by
  unfold buildStackMemRequests
  split
  · exact ⟨rfl, fun _ h => mem_map_currentPc (ite_markError_currentPc _ _) h⟩
  · split
    · exact ⟨rfl, fun _ h => mem_map_currentPc (ite_markError_currentPc _ _) h⟩
    · obtain ⟨hcore, hall⟩ := stackLoop_display _ pending core.rows { core := core }
      exact ⟨hcore, fun pc h => hall pc h fun _ hr => by cases hr⟩

/-- A register response is rejected without effect, or consumes a pending request within the context. -/
theorem applyRegResponse_display (core : DayVarCore) (payload : Payload) :
    (core.applyRegResponse payload).core = core ∧ (core.applyRegResponse payload).accepted = false ∨
      (∃ id p, core.pendingRequests.get? id = some p) ∧
        (core.applyRegResponse payload).core.currentPc = core.currentPc ∧
        ∀ pc, (∀ row ∈ core.rows, row.currentPc = pc) →
          ∀ row ∈ (core.applyRegResponse payload).core.rows, row.currentPc = pc := by
  unfold applyRegResponse
  cases htake : core.takePendingResponse payload .reg with
  | error reason => exact .inl ⟨rfl, rfl⟩
  | ok taken =>
    obtain ⟨pending, taken⟩ := taken
    obtain ⟨_, id, _, _, _, _, hget, _, rfl⟩ := takePendingResponse_ok htake
    refine .inr ⟨⟨id, pending, hget⟩, ?_⟩
    dsimp only
    split
    · exact ⟨rfl, fun pc h => mem_map_currentPc (ite_markError_currentPc _ _) h⟩
    · split
      · exact ⟨rfl, fun pc h => mem_map_currentPc (ite_markError_currentPc _ _) h⟩
      · rename_i registers _
        obtain ⟨hcurrent, hrows⟩ := buildStackMemRequests_display { core with
          pendingRequests := core.pendingRequests.pop id
          rows := core.rows.map (applyEntryRegister registers pending) } registers pending
        exact ⟨hcurrent, fun pc h => hrows pc (mem_map_currentPc (applyEntryRegister_currentPc registers pending) h)⟩

theorem applyMemResponse_display (core : DayVarCore) (payload : Payload) :
    (core.applyMemResponse payload).core = core ∧ (core.applyMemResponse payload).accepted = false ∨
      (∃ id p, core.pendingRequests.get? id = some p) ∧
        (core.applyMemResponse payload).core.currentPc = core.currentPc ∧
        ∀ pc, (∀ row ∈ core.rows, row.currentPc = pc) →
          ∀ row ∈ (core.applyMemResponse payload).core.rows, row.currentPc = pc := by
  unfold applyMemResponse
  cases htake : core.takePendingResponse payload .mem with
  | error reason => exact .inl ⟨rfl, rfl⟩
  | ok taken =>
    obtain ⟨pending, taken⟩ := taken
    obtain ⟨_, id, _, _, _, _, hget, _, rfl⟩ := takePendingResponse_ok htake
    exact .inr ⟨⟨id, pending, hget⟩, rfl, fun pc h => mem_map_currentPc (applyEntryMemory_currentPc payload pending) h⟩

theorem planVariable_currentPc (previousRows : Dict (String × String) VariableRecord) (runtimePc : String)
    (atFunctionEntry : Bool) (plan : EntryPlan) (lvar : VariableRecord)
    (h : ∀ row ∈ plan.rows, row.currentPc = runtimePc) :
    ∀ row ∈ (planVariable previousRows runtimePc atFunctionEntry plan lvar).rows, row.currentPc = runtimePc := by
  unfold planVariable
  dsimp only
  split
  · split
    · split <;> exact List.forall_mem_append.mpr ⟨h, List.forall_mem_singleton.mpr rfl⟩
    · split <;> exact List.forall_mem_append.mpr ⟨h, List.forall_mem_singleton.mpr rfl⟩
  · exact List.forall_mem_append.mpr ⟨h, List.forall_mem_singleton.mpr rfl⟩

/-- A plan's rows belong to its PC. -/
theorem buildEntryPlan_display (core : DayVarCore) (lvars : List VariableRecord) (context : PcContext) :
    (core.buildEntryPlan lvars context).1.currentPc = some context ∧
      ∀ row ∈ (core.buildEntryPlan lvars context).1.rows, row.currentPc = context.runtimePc := by
  have hloop : ∀ (previousRows : Dict (String × String) VariableRecord) (rest : List VariableRecord) (plan : EntryPlan),
      (∀ row ∈ plan.rows, row.currentPc = context.runtimePc) →
      ∀ row ∈ (rest.foldl (planVariable previousRows context.runtimePc context.atFunctionEntry) plan).rows,
        row.currentPc = context.runtimePc := by
    intro previousRows rest
    induction rest with
    | nil => exact fun _ h => h
    | cons lvar rest ih => exact fun plan h => ih _ (planVariable_currentPc previousRows _ _ plan lvar h)
  unfold buildEntryPlan
  dsimp only
  split
  · exact ⟨rfl, hloop _ _ _ fun _ h => by cases h⟩
  · exact ⟨rfl, hloop _ _ _ fun _ h => by cases h⟩

end DayVarCore

namespace VVariableRecovery

/-- A rejected response leaves the engine alone unless its request was pending. -/
theorem applyRegResponse_outstanding (s : VVariableRecovery) (payload : Payload) :
    s.applyRegResponse payload = { recovery := s, accepted := false, reason := (s.applyRegResponse payload).reason } ∨
      ∃ id p, s.pending.get? id = some p := by
  unfold applyRegResponse
  cases htake : s.takePending payload .reg with
  | error reason => exact .inl rfl
  | ok taken =>
    obtain ⟨_, id, _, _, _, _, hget, _⟩ := takePending_ok htake
    exact .inr ⟨id, taken.1, hget⟩

theorem applyMemResponse_outstanding (s : VVariableRecovery) (payload : Payload) :
    s.applyMemResponse payload = { recovery := s, accepted := false, reason := (s.applyMemResponse payload).reason } ∨
      ∃ id p, s.pending.get? id = some p := by
  unfold applyMemResponse
  cases htake : s.takePending payload .mem with
  | error reason => exact .inl rfl
  | ok taken =>
    obtain ⟨_, id, _, _, _, _, hget, _⟩ := takePending_ok htake
    exact .inr ⟨id, taken.1, hget⟩

end VVariableRecovery

namespace DayVarController

/-- Rows and records all belong to the current context. -/
def Current (c : DayVarController) : Prop :=
  ∃ context, c.core.currentPc = some context ∧ c.vRecovery.runtimePc = context.runtimePc ∧
    ∀ row ∈ c.core.rows, row.currentPc = context.runtimePc

/-- Nothing is outstanding, or what would be refreshed belongs to the current context. -/
structure Tracked (c : DayVarController) : Prop where
  recovery : ∃ planned, VVariableRecovery.Inv planned [] c.vRecovery
  refresh : ((∀ id, c.core.pendingRequests.get? id = none) ∧ ∀ id, c.vRecovery.pending.get? id = none) ∨ Current c

/-- Every fresh row on display belongs to the current context. -/
def FreshCurrent (c : DayVarController) : Prop :=
  ∀ row ∈ c.view.allRows, row.status = .fresh → ∃ context, c.core.currentPc = some context ∧
    row.currentPc = context.runtimePc

theorem publishRows_freshCurrent {c : DayVarController} (hinv : ∃ planned, VVariableRecovery.Inv planned [] c.vRecovery)
    (h : Current c) : FreshCurrent c.publishRows := by
  obtain ⟨planned, hinv⟩ := hinv
  obtain ⟨context, hcontext, hpc, hrows⟩ := h
  intro row' hrow' _
  refine ⟨context, hcontext, ?_⟩
  obtain ⟨row, hrow, rfl⟩ := List.mem_map.mp hrow'
  unfold VVariableRecovery.overlayRow
  split
  · exact hrows row hrow
  · split
    · exact hrows row hrow
    · rename_i record hrecord
      exact (hinv.recordPc _ record hrecord).2.trans hpc

theorem wrapRequests_frame (core : DayVarCore) (requests : List Request) :
    (wrapRequests core requests).2.currentPc = core.currentPc ∧ (wrapRequests core requests).2.rows = core.rows ∧
      (wrapRequests core requests).2.pendingRequests = core.pendingRequests := by
  induction requests generalizing core with
  | nil => exact ⟨rfl, rfl, rfl⟩
  | cons request rest ih =>
    obtain ⟨hpc, hrows, hpending⟩ := ih (core.envelope request.type request.payload).2
    exact ⟨hpc, hrows, hpending⟩

section responses
variable {c c' : DayVarController}

/-- An outstanding request means that what is refreshed belongs to the current context. -/
theorem Tracked.current (h : Tracked c)
    (hpending : (∃ id p, c.core.pendingRequests.get? id = some p) ∨ ∃ id p, c.vRecovery.pending.get? id = some p) :
    Current c := by
  rcases h.refresh with ⟨hcore, hrecovery⟩ | hcurrent
  · rcases hpending with ⟨id, p, hp⟩ | ⟨id, p, hp⟩
    · rw [hcore id] at hp
      cases hp
    · rw [hrecovery id] at hp
      cases hp
  · exact hcurrent

/-- The context after a response: the same rows are on display, or they are refreshed. -/
theorem respond_tracked (c c' : DayVarController) (hview : c'.view = c.view)
    (hpc : c'.core.currentPc = c.core.currentPc)
    (hinv : ∃ planned, VVariableRecovery.Inv planned [] c'.vRecovery) (hcurrent : Current c') :
    (Tracked c' ∧ (FreshCurrent c → FreshCurrent c')) ∧
      (Tracked c'.publishRows ∧ (FreshCurrent c → FreshCurrent c'.publishRows)) := by
  refine ⟨⟨⟨hinv, .inr hcurrent⟩, fun h => ?_⟩, ⟨hinv, .inr hcurrent⟩, fun _ => publishRows_freshCurrent hinv hcurrent⟩
  rw [FreshCurrent, hview, hpc]
  exact h

theorem handleRegResponse_tracked (h : Tracked c) (payload : Payload) :
    let c' := (c.handleRegResponse payload).controller
    Tracked c' ∧ (FreshCurrent c → FreshCurrent c') := by
  obtain ⟨planned, hinv⟩ := h.recovery
  unfold handleRegResponse
  dsimp only
  split
  · obtain ⟨hpc, hrows, _⟩ := wrapRequests_frame c.core (c.vRecovery.applyRegResponse payload).memRequests
    rcases c.vRecovery.applyRegResponse_outstanding payload with heq | hpending
    · rw [heq]
      exact ⟨h, id⟩
    · obtain ⟨context, hcontext, hrt, hall⟩ := h.current (.inr hpending)
      have hturn := VVariableRecovery.applyRegResponse_turn hinv payload
      obtain ⟨hkept, hshown⟩ := respond_tracked c { c with
          vRecovery := (c.vRecovery.applyRegResponse payload).recovery
          core := (wrapRequests c.core (c.vRecovery.applyRegResponse payload).memRequests).2 } rfl hpc
        ⟨planned, hturn.inv⟩ ⟨context, hpc.trans hcontext, hturn.runtimePc.trans hrt,
          fun row hr => hall row (hrows ▸ hr)⟩
      split
      · exact hkept
      · exact hshown
  · rcases c.core.applyRegResponse_display payload with ⟨heq, hrejected⟩ | ⟨hpending, hpc, hrows⟩
    · rw [heq, hrejected]
      exact ⟨h, id⟩
    · obtain ⟨context, hcontext, hrt, hall⟩ := h.current (.inl hpending)
      obtain ⟨hkept, hshown⟩ := respond_tracked c
        { c with core := (c.core.applyRegResponse payload).core } rfl hpc ⟨planned, hinv⟩
        ⟨context, hpc.trans hcontext, hrt, hrows _ hall⟩
      split
      · exact hkept
      · exact hshown

theorem handleMemResponse_tracked (h : Tracked c) (payload : Payload) :
    let c' := (c.handleMemResponse payload).controller
    Tracked c' ∧ (FreshCurrent c → FreshCurrent c') := by
  obtain ⟨planned, hinv⟩ := h.recovery
  unfold handleMemResponse
  dsimp only
  split
  · rcases c.vRecovery.applyMemResponse_outstanding payload with heq | hpending
    · rw [heq]
      exact ⟨h, id⟩
    · obtain ⟨context, hcontext, hrt, hall⟩ := h.current (.inr hpending)
      have hturn := VVariableRecovery.applyMemResponse_turn hinv payload
      obtain ⟨hkept, hshown⟩ := respond_tracked c
        { c with vRecovery := (c.vRecovery.applyMemResponse payload).recovery } rfl rfl
        ⟨planned, hturn.inv⟩ ⟨context, hcontext, hturn.runtimePc.trans hrt, hall⟩
      split
      · exact hkept
      · exact hshown
  · rcases c.core.applyMemResponse_display payload with ⟨heq, hrejected⟩ | ⟨hpending, hpc, hrows⟩
    · rw [heq, hrejected]
      exact ⟨h, id⟩
    · obtain ⟨context, hcontext, hrt, hall⟩ := h.current (.inl hpending)
      obtain ⟨hkept, hshown⟩ := respond_tracked c
        { c with core := (c.core.applyMemResponse payload).core } rfl hpc ⟨planned, hinv⟩
        ⟨context, hpc.trans hcontext, hrt, hrows _ hall⟩
      split
      · exact hkept
      · exact hshown

end responses

section pcUpdates
variable {c : DayVarController}

theorem beginPc_runtimePc (s : VVariableRecovery) (provider : AnalysisProvider) {lvars : List VariableRecord}
    (functionEa currentEa : Int) (runtimePc : String) (pcSeq : Int) (selection : Option (List Int))
    (hdistinct : (lvars.map VariableRecord.lvarIndex).Nodup) :
    (s.beginPc provider lvars functionEa currentEa runtimePc pcSeq selection).1.runtimePc = runtimePc := by
  have hplan := VVariableRecovery.beginLoop_inv s lvars functionEa currentEa runtimePc pcSeq
    (VVariableRecovery.analyze provider functionEa currentEa lvars
      (VVariableRecovery.selectedIndexes lvars selection))
    (VVariableRecovery.selectedIndexes lvars selection) hdistinct
  rw [VVariableRecovery.beginPc_eq s provider lvars functionEa currentEa runtimePc pcSeq selection rfl]
  dsimp only
  split
  · exact hplan.runtimePc
  · exact hplan.runtimePc

/-- Local recovery plans reads for some of the variables, or is interrupted and starts the PC over. -/
theorem recoverLocals_cases (c : DayVarController) (host : HostReply) (context : PcContext)
    (functionStartEa idaEa : Int)
    (lvars previousRows : List VariableRecord) :
    ∃ selected cache,
      (∃ turns, c.recoverLocals host context functionStartEa idaEa lvars previousRows =
        ({ c with
            analysisCache := cache
            vRecovery := (c.vRecovery.interruptedPc host.analysisProvider lvars functionStartEa idaEa
              context.runtimePc context.pcSeq selected turns).invalidatePc context.pcSeq
              context.runtimePc }.publishRows, [])) ∨
      ∃ begun, c.vRecovery.beginPc host.analysisProvider lvars functionStartEa idaEa context.runtimePc context.pcSeq
          (some selected) = begun ∧
        c.recoverLocals host context functionStartEa idaEa lvars previousRows =
          ({ c with
              analysisCache := cache
              vRecovery := begun.1
              core := (wrapRequests c.core begun.2.toList).2 }.publishRows,
            (wrapRequests c.core begun.2.toList).1) := by
  unfold recoverLocals
  generalize c.analysisCache.select context.pcSeq functionStartEa idaEa lvars previousRows c.view.activeFilter
    c.watchedLvarIndexes c.maxRecoveryCandidates = selection
  obtain ⟨selected, cache⟩ := selection
  dsimp only
  refine ⟨selected, cache, ?_⟩
  cases host.recoveryRaisesAfter with
  | some turns => exact .inl ⟨turns, rfl⟩
  | none => exact .inr ⟨_, rfl, rfl⟩

/-- A refresh after planning shows the planned PC only. -/
theorem recoverLocals_tracked (host : HostReply) {context : PcContext} (hcontext : c.core.currentPc = some context)
    (hrows : ∀ row ∈ c.core.rows, row.currentPc = context.runtimePc) (functionStartEa idaEa : Int)
    {lvars : List VariableRecord} (hdistinct : (lvars.map VariableRecord.lvarIndex).Nodup)
    (previousRows : List VariableRecord) :
    let c' := (c.recoverLocals host context functionStartEa idaEa lvars previousRows).1
    Tracked c' ∧ FreshCurrent c' := by
  intro c'
  obtain ⟨selected, cache, ⟨turns, hafter⟩ | ⟨begun, hbegun, hafter⟩⟩ :=
    recoverLocals_cases c host context functionStartEa idaEa lvars previousRows
  · have hinv : ∃ planned, VVariableRecovery.Inv planned [] ((c.vRecovery.interruptedPc host.analysisProvider lvars
        functionStartEa idaEa context.runtimePc context.pcSeq selected turns).invalidatePc context.pcSeq
          context.runtimePc) := ⟨[], VVariableRecovery.inv_of_empty rfl rfl⟩
    simp only [c', hafter]
    exact ⟨⟨hinv, .inr ⟨context, hcontext, rfl, hrows⟩⟩, publishRows_freshCurrent hinv ⟨context, hcontext, rfl, hrows⟩⟩
  · have hrt := beginPc_runtimePc c.vRecovery host.analysisProvider functionStartEa idaEa context.runtimePc
      context.pcSeq (some selected) hdistinct
    have hinv := VVariableRecovery.beginPc_inv c.vRecovery host.analysisProvider lvars functionStartEa idaEa
      context.runtimePc context.pcSeq (some selected) hdistinct
    rw [hbegun] at hrt hinv
    simp only [c', hafter]
    obtain ⟨hpc, hkept, _⟩ := wrapRequests_frame c.core begun.2.toList
    have hcurrent : Current { c with
        analysisCache := cache, vRecovery := begun.1, core := (wrapRequests c.core begun.2.toList).2 } :=
      ⟨context, hpc.trans hcontext, hrt, fun row hr => hrows row (hkept ▸ hr)⟩
    exact ⟨⟨⟨_, hinv⟩, .inr hcurrent⟩, publishRows_freshCurrent ⟨_, hinv⟩ hcurrent⟩

/-- Every mapped PC replaces the rows on display. -/
theorem mapped_tracked (host : HostReply) (mapping : PcMapping) :
    let c' := (c.mapped host mapping).controller
    Tracked c' ∧ FreshCurrent c' := by
  unfold mapped
  dsimp only
  generalize host.enumerateHexraysVariables mapping.idaEa (formatHex mapping.runtimePc) = enumeration
  split
  · refine ⟨⟨⟨[], VVariableRecovery.inv_of_empty rfl rfl⟩, .inl ⟨fun _ => rfl, fun _ => rfl⟩⟩, ?_⟩
    exact fun row hrow => by cases hrow
  · obtain ⟨hcontext, hrows⟩ := DayVarCore.buildEntryPlan_display
      (({ c with
        core := (c.core.makeIdaPcMapped mapping.pcSeq (formatHex mapping.runtimePc) (some (formatHex mapping.idaEa))
          mapping.module (formatHex mapping.idaImagebase) true none).2
        vRecovery := c.vRecovery.invalidatePc mapping.pcSeq (formatHex mapping.runtimePc) } :
          DayVarController).enterFunction enumeration.functionStartEa).core enumeration.lvars
      { pcSeq := mapping.pcSeq, runtimePc := formatHex mapping.runtimePc, idaEa := formatHex mapping.idaEa
        functionEa := enumeration.functionEa
        atFunctionEntry := enumeration.functionStartEa.getD 0 = mapping.idaEa }
    exact recoverLocals_tracked host hcontext hrows _ _ enumeration.distinct _

/-- A PC that cannot be mapped drops every request and refreshes nothing. -/
theorem mappingFailed_tracked (pcSeq : Int) (runtimePc module : String) (idaImagebase : Int) (error : String) :
    let c' := (c.mappingFailed pcSeq runtimePc module idaImagebase error).controller
    Tracked c' ∧ (FreshCurrent c' ↔ ∀ row ∈ c.view.allRows, row.status = .fresh → row.currentPc = runtimePc) := by
  refine ⟨⟨⟨[], VVariableRecovery.inv_of_empty rfl rfl⟩, .inl ⟨fun _ => rfl, fun _ => rfl⟩⟩, ?_⟩
  constructor
  · intro h row hrow hfresh
    obtain ⟨context, hcontext, hpc⟩ := h row hrow hfresh
    cases hcontext
    exact hpc
  · intro h row hrow hfresh
    exact ⟨_, rfl, h row hrow hfresh⟩

end pcUpdates

/-- The PC a message reports when it is an automatic `pc_update` that cannot be mapped. -/
def unmappedPc (host : HostReply) (message : Payload) : Option String :=
  match (message.getD "payload" (.obj [])).asObj with
  | none => none
  | some payload =>
    if (message.get "type").eqStr "pc_update" && (payload.get "auto_live").isTruthy && (pcSeqNumber payload).isSome then
      match mapPcUpdate payload host.imagebase with
      | .error _ => some (payload.getD "pc" (.str "")).text
      | .ok _ => none
    else none

/-- An unmapped `pc_update` finds no fresh row of another PC on display. -/
def KeepsDisplay (c : DayVarController) : Op → Prop
  | .message host message => ∀ pc ∈ unmappedPc host message, ∀ row ∈ c.view.allRows, row.status = .fresh →
      row.currentPc = pc
  | _ => True

theorem handlePcUpdate_tracked {c : DayVarController} (h : Tracked c) (host : HostReply)
    {message payload : Payload} (hpayload : (message.getD "payload" (.obj [])).asObj = some payload)
    (htype : (message.get "type").eqStr "pc_update" = true) :
    let c' := (c.handlePcUpdate host payload).controller
    Tracked c' ∧ (FreshCurrent c → (FreshCurrent c' ↔ KeepsDisplay c (.message host message))) := by
  have hkeep : KeepsDisplay c (.message host message) ↔ ∀ pc ∈ unmappedPc host message, ∀ row ∈ c.view.allRows,
      row.status = .fresh → row.currentPc = pc := Iff.rfl
  rw [hkeep]
  unfold handlePcUpdate unmappedPc
  rw [hpayload]
  dsimp only
  rw [htype]
  cases hlive : (payload.get "auto_live").isTruthy with
  | false => exact ⟨h, fun hfresh => iff_of_true hfresh (by simp)⟩
  | true =>
    cases hseq : pcSeqNumber payload with
    | none => exact ⟨h, fun hfresh => iff_of_true hfresh (by simp)⟩
    | some pcSeq =>
      have hview : (c.enterPcSeq pcSeq).view = c.view := by
        unfold enterPcSeq
        split <;> rfl
      cases hmap : mapPcUpdate payload host.imagebase with
      | error error =>
        obtain ⟨htracked, hiff⟩ := mappingFailed_tracked (c := c.enterPcSeq pcSeq) pcSeq
          (payload.getD "pc" (.str "")).text (payload.getD "module" (.str "")).text host.imagebase error
        rw [hview] at hiff
        exact ⟨htracked, fun _ => hiff.trans (by simp)⟩
      | ok mapping =>
        obtain ⟨htracked, hshown⟩ := mapped_tracked (c := c.enterPcSeq pcSeq) host mapping
        exact ⟨htracked, fun _ => iff_of_true hshown (by simp)⟩

/-- A message that is no automatic `pc_update` never endangers the display. -/
theorem keepsDisplay_of_other {c : DayVarController} {host : HostReply} {message : Payload}
    (h : (message.getD "payload" (.obj [])).asObj = none ∨ (message.get "type").eqStr "pc_update" = false) :
    KeepsDisplay c (.message host message) := by
  intro pc hpc
  unfold unmappedPc at hpc
  rcases h with h | h
  · rw [h] at hpc
    cases hpc
  · rw [h] at hpc
    split at hpc
    · cases hpc
    · cases hpc

/-- One event keeps the invariant, and keeps the display current exactly when it keeps the condition. -/
theorem step_tracked {c : DayVarController} (h : Tracked c) (op : Op) :
    Tracked (c.step op) ∧ (FreshCurrent c → (FreshCurrent (c.step op) ↔ KeepsDisplay c op)) := by
  cases op with
  | disconnect =>
    refine ⟨⟨⟨[], VVariableRecovery.inv_of_empty rfl rfl⟩, .inl ⟨fun _ => rfl, fun _ => rfl⟩⟩, fun hfresh => ?_⟩
    exact iff_of_true hfresh trivial
  | setFilter filter => exact ⟨⟨h.recovery, h.refresh⟩, fun hfresh => iff_of_true hfresh trivial⟩
  | message host message =>
    rw [step, handleMessage]
    cases hpayload : (message.getD "payload" (.obj [])).asObj with
    | none => exact ⟨h, fun hfresh => iff_of_true hfresh (keepsDisplay_of_other (.inl hpayload))⟩
    | some payload =>
      dsimp only
      cases htype : (message.get "type").eqStr "pc_update" with
      | true =>
        rw [if_pos rfl]
        exact handlePcUpdate_tracked h host hpayload htype
      | false =>
        have hkeep : KeepsDisplay c (.message host message) := keepsDisplay_of_other (.inr htype)
        rw [if_neg Bool.false_ne_true]
        split
        · obtain ⟨htracked, hshown⟩ := handleRegResponse_tracked h payload
          exact ⟨htracked, fun hfresh => iff_of_true (hshown hfresh) hkeep⟩
        · split
          · obtain ⟨htracked, hshown⟩ := handleMemResponse_tracked h payload
            exact ⟨htracked, fun hfresh => iff_of_true (hshown hfresh) hkeep⟩
          · exact ⟨h, fun hfresh => iff_of_true hfresh hkeep⟩

/-- Over every run, in every state reached every fresh row on display belongs to the current PC context,
exactly when no unmapped `pc_update` of the run finds a fresh row of another PC on display. -/
theorem displayed_fresh_rows_current_iff (maxRecoveryCandidates : Int) (watchedLvarIndexes : List Int) (ops : List Op) :
    (∀ c ∈ Run.states step (init maxRecoveryCandidates watchedLvarIndexes) ops, FreshCurrent c) ↔
      Run.Along step KeepsDisplay (init maxRecoveryCandidates watchedLvarIndexes) ops := by
  have hstart : Tracked (init maxRecoveryCandidates watchedLvarIndexes) :=
    ⟨⟨[], VVariableRecovery.init_inv 256⟩, .inl ⟨fun _ => rfl, fun _ => rfl⟩⟩
  refine Run.forall_states_iff_along step (I := Tracked) (fun c op h => (step_tracked h op).1)
    (fun c op h hfresh => (step_tracked h op).2 hfresh) hstart ?_ ops
  exact fun row hrow => by cases hrow

/-- One local holding the constant 7, wherever the PC is. -/
def constantHost : HostReply :=
  { imagebase := 0x140000000
    enumerateHexraysVariables := fun _ _ =>
      { ok := true, functionStartEa := some 0x140001000, functionEa := "0x140001000"
        lvars := [{ lvarIndex := 4, name := "v4", size := 4, isArg := false, argIndex := none }]
        distinct := by decide, started := fun _ => rfl }
    analysisProvider := fun _ _ _ => .ok
      { ok := true
        evidenceByIndex := Dict.empty.set 4 { lvarIndex := 4, storageKind := .constant, constantValue := some 7 } } }

def pcUpdateMessage (fields : Payload) : Payload :=
  [("type", .str "pc_update"), ("payload", .obj (("auto_live", .bool true) :: fields))]

def mappedUpdate : Payload :=
  pcUpdateMessage [("pc_seq", .int 1), ("pc", .str "0x401010"), ("runtime_module_base", .str "0x400000")]

def unmappedUpdate : Payload := pcUpdateMessage [("pc_seq", .int 2), ("pc", .str "0x7ffabc")]

/-- The second update has no module base: `v4` stays fresh, still of the first PC. -/
theorem unmapped_update_leaves_fresh_row :
    ¬ ∀ ops : List Op, ∀ c ∈ Run.states step (init 32) ops, FreshCurrent c := by
  intro h
  let ops : List Op := [.message constantHost mappedUpdate, .message constantHost unmappedUpdate]
  have hlast := h ops _ (Run.foldl_mem_states step (init 32) ops)
  have hrow : ∃ row ∈ (ops.foldl step (init 32)).view.allRows, row.status = .fresh ∧ row.currentPc = "0x401010" := by
    decide
  have hpc : (ops.foldl step (init 32)).core.currentPc.map PcContext.runtimePc = some "0x7ffabc" := by decide
  obtain ⟨row, hmem, hfresh, hshown⟩ := hrow
  obtain ⟨context, hcontext, hcurrent⟩ := hlast row hmem hfresh
  rw [hcontext, Option.map_some, ← hcurrent, hshown] at hpc
  exact absurd hpc (by decide)

end DayVarController
end DynvarSync.Ida
