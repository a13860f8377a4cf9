import DynvarSync.Ida.ControllerDisplay

/-! A new debugger PC retires the requests of the one before it, as long as its sequence number is read at all. -/
namespace DynvarSync.Ida
open Lib PyText

namespace DayVarController

/-- The controller with no request outstanding. -/
def forgetPending (c : DayVarController) : DayVarController :=
  { c with core := c.core.clearPending, vRecovery := { c.vRecovery with pending := Dict.empty } }

/-- Some message carries this request id. -/
def Requested (sent : List Envelope) (requestId : String) : Prop :=
  ∃ message ∈ sent, message.payload.get "request_id" = .str requestId

/-- Every request that is outstanding after a message was sent with it. -/
def OnlyRequested (after : Handled) : Prop :=
  (∀ id p, after.controller.core.pendingRequests.get? id = some p → Requested after.sent id) ∧
    ∀ id p, after.controller.vRecovery.pending.get? id = some p → Requested after.sent id

/-- A debugger PC is handled to its end, as if nothing had been outstanding before, every request that is
outstanding after it is one that it sent, and both readings of its sequence number take the same payloads. -/
structure RetiresPrevious (c : DayVarController) (host : HostReply) (payload : Payload) : Prop where
  returns : (c.handlePcUpdate host payload).raised = false
  forgets : c.handlePcUpdate host payload = c.forgetPending.handlePcUpdate host payload
  requested : OnlyRequested (c.handlePcUpdate host payload)
  agrees : (pcSeqNumber payload).isSome = true ↔ ∃ n, (requiredField payload "pc_seq" >>= parseInt) = .ok n

/-- Both readings take this value: a boolean, a number, or a text that is an integer in base 10 and in its own base. -/
def ReadableValue : Json → Prop
  | .bool _ => True
  | .int _ => True
  | .str s => (intDecimal s).isSome = true ∧ (intAuto s).isSome = true
  | _ => False

/-- The sequence number is there and both readings take it. -/
def ReadableSeq (payload : Payload) : Prop :=
  ∃ value, payload.lookup "pc_seq" = some value ∧ ReadableValue value

theorem enterFunction_eq (c : DayVarController) (functionStartEa : Option Int) :
    c.enterFunction functionStartEa = { c with
      analysisCache := if c.activeFunctionEa ≠ functionStartEa then c.analysisCache.invalidate false else
      c.analysisCache
      activeFunctionEa := functionStartEa } := by
  unfold enterFunction
  by_cases h : c.activeFunctionEa = functionStartEa
  · rw [if_neg (not_not_intro h), if_neg (not_not_intro h), ← h]
  · rw [if_pos h, if_pos h]
    rfl

theorem mapped_forgets (c : DayVarController) (host : HostReply) (mapping : PcMapping) :
    c.forgetPending.mapped host mapping = c.mapped host mapping := by
  unfold mapped
  dsimp only
  split
  · rfl
  · rw [enterFunction_eq, enterFunction_eq]
    rfl

theorem enterPcSeq_forgets (c : DayVarController) (pcSeq : Int) :
    c.forgetPending.enterPcSeq pcSeq = (c.enterPcSeq pcSeq).forgetPending := by
  unfold enterPcSeq
  change (if c.activePcSeq ≠ some pcSeq then _ else _) = _
  split
  · rfl
  · rfl

section requests
variable {id : String}

theorem Requested.append_left {sent : List Envelope} (h : Requested sent id) (more : List Envelope) :
    Requested (sent ++ more) id := by
  obtain ⟨message, hmem, hid⟩ := h
  exact ⟨message, List.mem_append_left _ hmem, hid⟩

theorem Requested.append_right {sent : List Envelope} (h : Requested sent id) (before : List Envelope) :
    Requested (before ++ sent) id := by
  obtain ⟨message, hmem, hid⟩ := h
  exact ⟨message, List.mem_append_right _ hmem, hid⟩

/-- A plan leaves at most the request that it returns outstanding. -/
theorem buildEntryPlan_requested (core : DayVarCore) (lvars : List VariableRecord) (context : PcContext)
    {p : PendingRequest} (h : (core.buildEntryPlan lvars context).1.pendingRequests.get? id = some p) :
    Requested (core.buildEntryPlan lvars context).2.toList id := by
  unfold DayVarCore.buildEntryPlan at h ⊢
  dsimp only at h ⊢
  split at h
  · cases h
  · rename_i hneeded
    rw [if_neg hneeded]
    change (Dict.empty.set (regRequestId context.pcSeq) _).get? id = some p at h
    rw [Dict.get?_set] at h
    split at h
    · rename_i hid
      exact ⟨_, List.mem_singleton_self _, hid ▸ rfl⟩
    · cases h

theorem wrapRequests_requested (core : DayVarCore) {requests : List Request}
    (h : ∃ request ∈ requests, request.payload.get "request_id" = .str id) :
    Requested (wrapRequests core requests).1 id := by
  induction requests generalizing core with
  | nil =>
    obtain ⟨_, hmem, _⟩ := h
    cases hmem
  | cons request rest ih =>
    obtain ⟨found, hmem, hid⟩ := h
    rcases List.mem_cons.mp hmem with rfl | hrest
    · exact ⟨_, List.mem_cons_self .., hid⟩
    · obtain ⟨message, hmessage, hmid⟩ := ih (core.envelope request.type request.payload).2 ⟨found, hrest, hid⟩
      exact ⟨message, List.mem_cons_of_mem _ hmessage, hmid⟩

theorem beginPc_requested (s : VVariableRecovery) (provider : AnalysisProvider) (lvars : List VariableRecord)
    (functionEa currentEa : Int) (runtimePc : String) (pcSeq : Int) (selection : Option (List Int))
    {p : PendingVRequest}
    (h : (s.beginPc provider lvars functionEa currentEa runtimePc pcSeq selection).1.pending.get? id = some p) :
    ∃ request ∈ (s.beginPc provider lvars functionEa currentEa runtimePc pcSeq selection).2.toList,
      request.payload.get "request_id" = .str id := by
  unfold VVariableRecovery.beginPc at h ⊢
  dsimp only at h ⊢
  split at h
  · rw [VVariableRecovery.planLoop_pending] at h
    cases h
  · rename_i hregisters
    rw [if_neg hregisters]
    rw [VVariableRecovery.planLoop_pending] at h
    change (Dict.empty.set (vRegRequestId pcSeq) _).get? id = some p at h
    rw [Dict.get?_set] at h
    split at h
    · rename_i hid
      exact ⟨_, List.mem_singleton_self _, hid ▸ rfl⟩
    · cases h

end requests

/-- Local recovery adds no argument request, and leaves no read of its own outstanding but the one it sends. -/
theorem recoverLocals_requested (c : DayVarController) (host : HostReply) (context : PcContext)
    (functionStartEa idaEa : Int) (lvars previousRows : List VariableRecord) :
    let after := c.recoverLocals host context functionStartEa idaEa lvars previousRows
    after.1.core.pendingRequests = c.core.pendingRequests ∧
      ∀ id p, after.1.vRecovery.pending.get? id = some p → Requested after.2 id := by
  intro after
  obtain ⟨selected, cache, ⟨turns, hafter⟩ | ⟨begun, hbegun, hafter⟩⟩ :=
    recoverLocals_cases c host context functionStartEa idaEa lvars previousRows
  · simp only [after, hafter]
    exact ⟨rfl, fun id p h => by cases h⟩
  · simp only [after, hafter]
    refine ⟨(wrapRequests_frame c.core _).2.2, fun id p h => wrapRequests_requested c.core ?_⟩
    rw [← hbegun] at h ⊢
    exact beginPc_requested c.vRecovery host.analysisProvider lvars functionStartEa idaEa context.runtimePc
      context.pcSeq (some selected) h

/-- What starts without requests has only those it sends. -/
theorem onlyRequested_of_empty {after : Handled} (hcore : after.controller.core.pendingRequests = Dict.empty)
    (hrecovery : after.controller.vRecovery.pending = Dict.empty) : OnlyRequested after := by
  constructor
  · intro id p h
    rw [hcore] at h
    cases h
  · intro id p h
    rw [hrecovery] at h
    cases h

theorem mapped_requested (c : DayVarController) (host : HostReply) (mapping : PcMapping) :
    OnlyRequested (c.mapped host mapping) := by
  unfold mapped
  dsimp only
  split
  · exact onlyRequested_of_empty rfl rfl
  · rw [enterFunction_eq]
    dsimp only
    generalize hplan : DayVarCore.buildEntryPlan _ _ _ = plan
    constructor
    · intro id p h
      rw [(recoverLocals_requested _ _ _ _ _ _ _).1] at h
      change plan.1.pendingRequests.get? id = some p at h
      rw [← hplan] at h ⊢
      exact ((buildEntryPlan_requested _ _ _ h).append_right _).append_left _
    · intro id p h
      exact ((recoverLocals_requested _ _ _ _ _ _ _).2 id p h).append_right _

theorem handlePcUpdate_eq {c : DayVarController} {payload : Payload} (h : (payload.get "auto_live").isTruthy = true)
    {pcSeq : Int} (hseq : pcSeqNumber payload = some pcSeq) (host : HostReply) :
    c.handlePcUpdate host payload = match mapPcUpdate payload host.imagebase with
      | .error error => (c.enterPcSeq pcSeq).mappingFailed pcSeq (payload.getD "pc" (.str "")).text
          (payload.getD "module" (.str "")).text host.imagebase error
      | .ok mapping => (c.enterPcSeq pcSeq).mapped host mapping := by
  unfold handlePcUpdate
  rw [h, hseq]
  rfl

/-- Whatever the other fields hold, a sequence number that reads is enough. -/
theorem handlePcUpdate_retires {c : DayVarController} {payload : Payload}
    (h : (payload.get "auto_live").isTruthy = true) {pcSeq : Int} (hseq : pcSeqNumber payload = some pcSeq)
    (host : HostReply) :
    (c.handlePcUpdate host payload).raised = false ∧
      c.handlePcUpdate host payload = c.forgetPending.handlePcUpdate host payload ∧
      OnlyRequested (c.handlePcUpdate host payload) := by
  rw [handlePcUpdate_eq h hseq, handlePcUpdate_eq h hseq, enterPcSeq_forgets]
  cases mapPcUpdate payload host.imagebase with
  | error error => exact ⟨rfl, rfl, onlyRequested_of_empty rfl rfl⟩
  | ok mapping =>
    refine ⟨?_, (mapped_forgets _ host mapping).symm, mapped_requested _ host mapping⟩
    unfold mapped
    dsimp only
    split
    · rfl
    · rfl

def intOrZero (value : Json) : Option Int := pcSeqNumber [("pc_seq", value)]

theorem pcSeqNumber_of_lookup {payload : Payload} {value : Json} (h : payload.lookup "pc_seq" = some value) :
    pcSeqNumber payload = intOrZero value := by
  unfold intOrZero pcSeqNumber Payload.getD
  rw [h]
  rfl

theorem parse_of_lookup {payload : Payload} {value : Json} (h : payload.lookup "pc_seq" = some value) :
    (requiredField payload "pc_seq" >>= parseInt) = parseInt value := by
  unfold requiredField
  rw [h]
  rfl

theorem not_readable_of_error {accepts : Prop} {value : Json} (h : ∀ n, parseInt value ≠ .ok n) :
    ¬ (accepts ∧ (accepts ↔ ∃ n, parseInt value = .ok n)) := by
  intro hboth
  obtain ⟨n, hn⟩ := hboth.2.mp hboth.1
  exact h n hn

theorem readableValue_iff (value : Json) :
    ReadableValue value ↔ (intOrZero value).isSome = true ∧
      ((intOrZero value).isSome = true ↔ ∃ n, parseInt value = .ok n) := by
  cases value with
  | null => exact iff_of_false id (not_readable_of_error fun n h => by cases h)
  | bool b => cases b <;> exact iff_of_true trivial ⟨rfl, iff_of_true rfl ⟨_, rfl⟩⟩
  | int n =>
    have hsome : (intOrZero (.int n)).isSome = true := by
      unfold intOrZero pcSeqNumber
      dsimp only
      split
      · rfl
      · rfl
    exact iff_of_true trivial ⟨hsome, iff_of_true hsome ⟨n, rfl⟩⟩
  | float x => exact iff_of_false id (not_readable_of_error fun n h => by cases h)
  | str s =>
    have hparse : (∃ n, parseInt (.str s) = .ok n) ↔ (intAuto s).isSome = true := by
      simp only [parseInt]
      cases intAuto s with
      | none => exact iff_of_false (fun h => by obtain ⟨n, hn⟩ := h; cases hn) Bool.false_ne_true
      | some n => exact iff_of_true ⟨n, rfl⟩ rfl
    rw [hparse]
    by_cases hempty : s = ""
    · subst hempty
      have hdecimal : (intDecimal "").isSome = false := by decide
      have hauto : (intAuto "").isSome = false := by decide
      refine iff_of_false (fun h => ?_) (fun h => ?_)
      · exact absurd h.1 (Bool.eq_false_iff.mp hdecimal)
      · exact absurd (h.2.mp h.1) (Bool.eq_false_iff.mp hauto)
    · have hnumber : intOrZero (.str s) = intDecimal s := by
        change (if !(decide (s ≠ "")) then some 0 else intDecimal s) = _
        rw [decide_eq_true hempty]
        rfl
      rw [hnumber]
      exact and_congr_right fun hsome => (iff_true_left hsome).symm
  | arr items => exact iff_of_false id (not_readable_of_error fun n h => by cases h)
  | obj fields => exact iff_of_false id (not_readable_of_error fun n h => by cases h)

/-- Both readings take this payload exactly when the first one takes it and they agree. -/
theorem readableSeq_iff (payload : Payload) :
    ReadableSeq payload ↔ (pcSeqNumber payload).isSome = true ∧
      ((pcSeqNumber payload).isSome = true ↔ ∃ n, (requiredField payload "pc_seq" >>= parseInt) = .ok n) := by
  unfold ReadableSeq
  cases hlookup : payload.lookup "pc_seq" with
  | some value =>
    rw [pcSeqNumber_of_lookup hlookup, parse_of_lookup hlookup, ← readableValue_iff]
    refine ⟨fun h => ?_, fun h => ⟨value, rfl, h⟩⟩
    obtain ⟨_, hsame, hvalue⟩ := h
    exact Option.some.inj hsame ▸ hvalue
  | none =>
    have hrequired : ∀ n, (requiredField payload "pc_seq" >>= parseInt) ≠ .ok n := by
      intro n h
      unfold requiredField at h
      rw [hlookup] at h
      cases h
    refine iff_of_false (fun h => ?_) (fun h => ?_)
    · obtain ⟨_, hvalue, _⟩ := h
      cases hvalue
    · obtain ⟨n, hn⟩ := h.2.mp h.1
      exact hrequired n hn

/-- With automatic refresh on, a debugger PC retires the requests before it exactly when its sequence number is a
boolean, a number, or a text that both readings take. -/
theorem pc_update_retires_previous_iff (c : DayVarController) (host : HostReply) (payload : Payload)
    (h : (payload.get "auto_live").isTruthy = true) : RetiresPrevious c host payload ↔ ReadableSeq payload := by
  rw [readableSeq_iff]
  constructor
  · intro hretires
    refine ⟨?_, hretires.agrees⟩
    cases hseq : pcSeqNumber payload with
    | some pcSeq => rfl
    | none =>
      have hraised := hretires.returns
      unfold handlePcUpdate at hraised
      rw [h, hseq] at hraised
      cases hraised
  · intro hread
    obtain ⟨pcSeq, hseq⟩ := Option.isSome_iff_exists.mp hread.1
    obtain ⟨hreturns, hforgets, hrequested⟩ := handlePcUpdate_retires h hseq host
    exact ⟨hreturns, hforgets, hrequested, hread.2⟩

/-- The digits of a sequence number are enough, though the rest of the PC is missing. -/
theorem readable_seq_retires : ReadableSeq [("auto_live", .bool true), ("pc_seq", .str "0")] ∧
    RetiresPrevious (init 32) constantHost [("auto_live", .bool true), ("pc_seq", .str "0")] := by
  have hreadable : ReadableSeq [("auto_live", .bool true), ("pc_seq", .str "0")] := ⟨_, rfl, by decide, by decide⟩
  exact ⟨hreadable, (pc_update_retires_previous_iff _ _ _ rfl).mpr hreadable⟩

/-- One argument in `rcx`, wherever the PC is. -/
def argumentHost : HostReply :=
  { imagebase := 0x140000000
    enumerateHexraysVariables := fun _ _ =>
      { ok := true, functionStartEa := some 0x140001010, functionEa := "0x140001010"
        lvars := [{ lvarIndex := 0, name := "a1", size := 8, isArg := true, argIndex := some 0 }]
        distinct := by decide, started := fun _ => rfl }
    analysisProvider := fun _ _ _ => .ok { ok := true, evidenceByIndex := Dict.empty } }

def malformedUpdate : Payload :=
  [("auto_live", .bool true), ("pc_seq", .str "2nd"), ("pc", .str "0x401020"), ("runtime_module_base", .str "0x400000")]

/-- The second sequence number is no integer: the exception leaves the read of the first PC outstanding. -/
theorem malformed_sequence_keeps_pending :
    let c := [Op.message argumentHost mappedUpdate].foldl step (init 32)
    let after := c.handlePcUpdate argumentHost malformedUpdate
    (malformedUpdate.get "auto_live").isTruthy = true ∧ after.raised = true ∧
      (c.core.pendingRequests.get? "reg-1-entry").isSome = true ∧
      after.controller.core.pendingRequests.get? "reg-1-entry" = c.core.pendingRequests.get? "reg-1-entry" ∧
      ¬ RetiresPrevious c argumentHost malformedUpdate := by
  intro c after
  have hraised : after.raised = true := by decide
  refine ⟨rfl, hraised, by decide, by decide, fun hretires => ?_⟩
  exact absurd (hretires.returns.symm.trans hraised) (by decide)

end DayVarController
end DynvarSync.Ida
