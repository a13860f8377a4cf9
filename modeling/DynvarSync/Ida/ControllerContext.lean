import DynvarSync.Ida.ControllerDisplay
import DynvarSync.Lib.JsonText

/-! The context of the controller's two engines: what begins it, what is accepted in it, and what is sent. -/
namespace DynvarSync.Ida
open Lib PyText JsonText

/-- No floats in what is sent. -/
def Envelope.Readable (message : Envelope) : Prop := FloatFreeFields message.payload

namespace DayVarCore

/-- A response is refused without effect, or accepted with the `pc_seq` of the context. -/
theorem applyRegResponse_verdict (core : DayVarCore) (payload : Payload) :
    ((core.applyRegResponse payload).accepted = false ∧ (core.applyRegResponse payload).core = core) ∨
      ((core.applyRegResponse payload).accepted = true ∧
        ∃ current, core.currentPc = some current ∧ (payload.get "pc_seq").eqInt current.pcSeq = true) := by
  unfold applyRegResponse
  cases htake : core.takePendingResponse payload .reg with
  | error reason => exact .inl ⟨rfl, rfl⟩
  | ok taken =>
    obtain ⟨current, _, hcurrent, hseq, _⟩ := takePendingResponse_ok htake
    refine .inr ⟨?_, current, hcurrent, hseq⟩
    dsimp only
    split
    · rfl
    · split
      · rfl
      · rfl

theorem applyMemResponse_verdict (core : DayVarCore) (payload : Payload) :
    ((core.applyMemResponse payload).accepted = false ∧ (core.applyMemResponse payload).core = core) ∨
      ((core.applyMemResponse payload).accepted = true ∧
        ∃ current, core.currentPc = some current ∧ (payload.get "pc_seq").eqInt current.pcSeq = true) := by
  unfold applyMemResponse
  cases htake : core.takePendingResponse payload .mem with
  | error reason => exact .inl ⟨rfl, rfl⟩
  | ok taken =>
    obtain ⟨current, _, hcurrent, hseq, _⟩ := takePendingResponse_ok htake
    exact .inr ⟨rfl, current, hcurrent, hseq⟩

section requests

theorem floatFreeItems_str (names : List String) : FloatFreeItems (names.map .str) := by
  induction names with
  | nil => trivial
  | cons name names ih => exact ⟨trivial, ih⟩

theorem makeIdaPcMapped_readable (core : DayVarCore) (pcSeq : Int) (runtimePc : String) (idaEa : Option String)
    (module idaImagebase : String) (ok : Bool) (error : Option String) :
    (core.makeIdaPcMapped pcSeq runtimePc idaEa module idaImagebase ok error).1.Readable := by
  cases idaEa with
  | none =>
    cases error with
    | none => exact ⟨trivial, trivial, trivial, trivial, trivial, trivial⟩
    | some e => exact ⟨trivial, trivial, trivial, trivial, trivial, trivial, trivial⟩
  | some ea =>
    cases error with
    | none => exact ⟨trivial, trivial, trivial, trivial, trivial, trivial, trivial⟩
    | some e => exact ⟨trivial, trivial, trivial, trivial, trivial, trivial, trivial, trivial⟩

theorem buildEntryPlan_readable (core : DayVarCore) (lvars : List VariableRecord) (context : PcContext) :
    ∀ message ∈ (core.buildEntryPlan lvars context).2.toList, message.Readable := by
  unfold buildEntryPlan
  dsimp only
  split
  · intro message h
    cases h
  · exact List.forall_mem_singleton.mpr
      ⟨trivial, trivial, trivial, floatFreeItems_str _, trivial, trivial⟩

theorem requestStackArg_readable (rsp : Int) (pending : PendingRequest) {acc : StackRequests} (row : VariableRecord)
    (h : ∀ message ∈ acc.messages, message.Readable) :
    ∀ message ∈ (requestStackArg rsp pending acc row).messages, message.Readable := by
  unfold requestStackArg
  split
  · exact h
  · exact List.forall_mem_append.mpr ⟨h, List.forall_mem_singleton.mpr
      ⟨trivial, trivial, trivial, trivial, trivial, trivial, trivial, trivial⟩⟩

theorem stackLoop_readable (rsp : Int) (pending : PendingRequest) (rows : List VariableRecord) {acc : StackRequests}
    (h : ∀ message ∈ acc.messages, message.Readable) :
    ∀ message ∈ (rows.foldl (requestStackArg rsp pending) acc).messages, message.Readable := by
  induction rows generalizing acc with
  | nil => exact h
  | cons row rows ih => exact ih (requestStackArg_readable rsp pending row h)

theorem applyRegResponse_readable (core : DayVarCore) (payload : Payload) :
    ∀ message ∈ (core.applyRegResponse payload).memRequests, message.Readable := by
  have hnone : ∀ message ∈ ([] : List Envelope), message.Readable := fun message h => by cases h
  unfold applyRegResponse
  split
  · exact hnone
  · split
    · exact hnone
    · split
      · exact hnone
      · unfold buildStackMemRequests
        dsimp only
        split
        · exact hnone
        · split
          · exact hnone
          · exact stackLoop_readable _ _ _ hnone

end requests

end DayVarCore

namespace VVariableRecovery

/-- A response is refused with the records as they were, or accepted with the `pc_seq` of the context. -/
theorem applyRegResponse_verdict (s : VVariableRecovery) (payload : Payload) :
    ((s.applyRegResponse payload).accepted = false ∧ (s.applyRegResponse payload).recovery.records = s.records ∧
      (s.applyRegResponse payload).memRequests = []) ∨
      ((s.applyRegResponse payload).accepted = true ∧
        ∃ current, s.pcSeq = some current ∧ (payload.get "pc_seq").eqInt current = true) := by
  unfold applyRegResponse
  cases htake : s.takePending payload .reg with
  | error reason => exact .inl ⟨rfl, rfl, rfl⟩
  | ok taken =>
    obtain ⟨current, _, hcurrent, hseq, _⟩ := takePending_ok htake
    refine .inr ⟨?_, current, hcurrent, hseq⟩
    dsimp only
    split
    · rfl
    · split
      · rfl
      · rfl

theorem applyMemResponse_verdict (s : VVariableRecovery) (payload : Payload) :
    ((s.applyMemResponse payload).accepted = false ∧ (s.applyMemResponse payload).recovery.records = s.records) ∨
      ((s.applyMemResponse payload).accepted = true ∧
        ∃ current, s.pcSeq = some current ∧ (payload.get "pc_seq").eqInt current = true) := by
  unfold applyMemResponse
  cases htake : s.takePending payload .mem with
  | error reason => exact .inl ⟨rfl, rfl⟩
  | ok taken =>
    obtain ⟨pending, taken⟩ := taken
    obtain ⟨current, _, hcurrent, hseq, _, _, _, _, rfl⟩ := takePending_ok htake
    dsimp only
    split
    · exact .inl ⟨rfl, rfl⟩
    · split
      · exact .inl ⟨rfl, rfl⟩
      · exact .inr ⟨rfl, current, hcurrent, hseq⟩

theorem beginPc_readable (s : VVariableRecovery) (provider : AnalysisProvider) (lvars : List VariableRecord)
    (functionEa currentEa : Int) (runtimePc : String) (pcSeq : Int) (selection : Option (List Int)) :
    ∀ request ∈ (s.beginPc provider lvars functionEa currentEa runtimePc pcSeq selection).2.toList,
      FloatFreeFields request.payload := by
  unfold beginPc
  dsimp only
  split
  · intro request h
    cases h
  · exact List.forall_mem_singleton.mpr
      ⟨trivial, trivial, trivial, DayVarCore.floatFreeItems_str _, trivial, trivial⟩

theorem applyRegisterIndex_readable (registers : Payload) (pending : PendingVRequest)
    {acc : VVariableRecovery × List Request} (i : Int) (h : ∀ request ∈ acc.2, FloatFreeFields request.payload) :
    ∀ request ∈ (applyRegisterIndex registers pending acc i).2, FloatFreeFields request.payload := by
  unfold applyRegisterIndex
  dsimp only
  split
  · split
    · split
      · exact h
      · exact h
    · split
      · exact h
      · exact List.forall_mem_append.mpr ⟨h, List.forall_mem_singleton.mpr
          ⟨trivial, trivial, trivial, trivial, trivial, trivial, trivial, trivial, trivial⟩⟩
    · exact h
  · exact h

theorem registerLoop_readable (registers : Payload) (pending : PendingVRequest) (indexes : List Int)
    {acc : VVariableRecovery × List Request} (h : ∀ request ∈ acc.2, FloatFreeFields request.payload) :
    ∀ request ∈ (indexes.foldl (applyRegisterIndex registers pending) acc).2, FloatFreeFields request.payload := by
  induction indexes generalizing acc with
  | nil => exact h
  | cons i indexes ih => exact ih (applyRegisterIndex_readable registers pending i h)

theorem applyRegResponse_readable (s : VVariableRecovery) (payload : Payload) :
    ∀ request ∈ (s.applyRegResponse payload).memRequests, FloatFreeFields request.payload := by
  have hnone : ∀ request ∈ ([] : List Request), FloatFreeFields request.payload := fun request h => by cases h
  unfold applyRegResponse
  split
  · exact hnone
  · split
    · exact hnone
    · split
      · exact hnone
      · exact registerLoop_readable _ _ _ hnone

end VVariableRecovery

namespace DayVarController

/-- The `pc_seq` of the context that a `pc_update` begins; it does not depend on the image base. -/
def updateSeq (payload : Payload) : Option Int :=
  if (payload.get "auto_live").isTruthy then
    (pcSeqNumber payload).map fun pcSeq => match mapPcUpdate payload 0 with
      | .error _ => pcSeq
      | .ok mapping => mapping.pcSeq
  else none

/-- The `pc_seq` of the context that a message begins. -/
def contextSeq (message : Payload) : Option Int :=
  match (message.getD "payload" (.obj [])).asObj with
  | none => none
  | some payload => if (message.get "type").eqStr "pc_update" then updateSeq payload else none

/-- Whether a message is a response that the controller accepts. -/
def accepts (c : DayVarController) (message : Payload) : Bool :=
  match (message.getD "payload" (.obj [])).asObj with
  | none => false
  | some payload =>
    if (message.get "type").eqStr "reg_response" then
      if VVariableRecovery.isVRequestId (payload.get "request_id") then (c.vRecovery.applyRegResponse payload).accepted
      else (c.core.applyRegResponse payload).accepted
    else if (message.get "type").eqStr "mem_response" then
      if VVariableRecovery.isVRequestId (payload.get "request_id") then (c.vRecovery.applyMemResponse payload).accepted
      else (c.core.applyMemResponse payload).accepted
    else false

/-- Both engines are in a context of this `pc_seq`. -/
def AtSeq (c : DayVarController) (pcSeq : Option Int) : Prop :=
  c.core.currentPc.map PcContext.pcSeq = pcSeq ∧ c.vRecovery.pcSeq = pcSeq

section contexts
variable {c : DayVarController}

theorem recoverLocals_atSeq (host : HostReply) {context : PcContext} (hcontext : c.core.currentPc = some context)
    (functionStartEa idaEa : Int) {lvars : List VariableRecord}
    (hdistinct : (lvars.map VariableRecord.lvarIndex).Nodup) (previousRows : List VariableRecord) :
    AtSeq (c.recoverLocals host context functionStartEa idaEa lvars previousRows).1 (some context.pcSeq) := by
  obtain ⟨selected, cache, ⟨turns, hafter⟩ | ⟨begun, hbegun, hafter⟩⟩ :=
    recoverLocals_cases c host context functionStartEa idaEa lvars previousRows
  · rw [hafter]
    exact ⟨congrArg (Option.map PcContext.pcSeq) hcontext, rfl⟩
  · rw [hafter]
    refine ⟨congrArg (Option.map PcContext.pcSeq) ((wrapRequests_frame c.core _).1.trans hcontext), ?_⟩
    have hplan := VVariableRecovery.beginLoop_inv c.vRecovery lvars functionStartEa idaEa context.runtimePc
      context.pcSeq (VVariableRecovery.analyze host.analysisProvider functionStartEa idaEa lvars
        (VVariableRecovery.selectedIndexes lvars (some selected)))
      (VVariableRecovery.selectedIndexes lvars (some selected)) hdistinct
    change begun.1.pcSeq = _
    rw [← hbegun, VVariableRecovery.beginPc_eq _ _ _ _ _ _ _ _ rfl]
    dsimp only
    split
    · exact hplan.pcSeq
    · exact hplan.pcSeq

theorem mapped_atSeq (host : HostReply) (mapping : PcMapping) :
    AtSeq (c.mapped host mapping).controller (some mapping.pcSeq) := by
  unfold mapped
  dsimp only
  generalize host.enumerateHexraysVariables mapping.idaEa (formatHex mapping.runtimePc) = enumeration
  split
  · exact ⟨rfl, rfl⟩
  · exact recoverLocals_atSeq host (DayVarCore.buildEntryPlan_display _ _ _).1 _ _ enumeration.distinct _

/-- Steps whose results agree through a function go on agreeing through it. -/
theorem map_bind_congr {α β γ : Type} (x : Except String α) {f g : α → Except String β} {h : β → γ}
    (hfg : ∀ a, (f a).map h = (g a).map h) : (x >>= f).map h = (x >>= g).map h := by
  cases x with
  | error e => rfl
  | ok a => exact hfg a

/-- Where the image is loaded does not touch the sequence number. -/
theorem mapPcUpdate_pcSeq (payload : Payload) (base base' : Int) :
    (mapPcUpdate payload base).map PcMapping.pcSeq = (mapPcUpdate payload base').map PcMapping.pcSeq := by
  unfold mapPcUpdate
  refine map_bind_congr _ fun _ => map_bind_congr _ fun _ => map_bind_congr _ fun _ => ?_
  exact map_bind_congr _ fun _ => map_bind_congr _ fun _ => map_bind_congr _ fun _ => rfl

/-- An automatic update begins the context of its sequence number, or is not handled at all. -/
theorem handlePcUpdate_atSeq (host : HostReply) {payload : Payload} {s : Option Int} (h : AtSeq c s) :
    AtSeq (c.handlePcUpdate host payload).controller ((updateSeq payload).or s) := by
  unfold handlePcUpdate updateSeq
  cases (payload.get "auto_live").isTruthy with
  | false => exact h
  | true =>
    cases hseq : pcSeqNumber payload with
    | none => exact h
    | some pcSeq =>
      have hsame := mapPcUpdate_pcSeq payload host.imagebase 0
      dsimp only
      rw [if_pos rfl, Option.map_some, Option.some_or]
      cases hmap : mapPcUpdate payload host.imagebase with
      | error e =>
        rw [hmap] at hsame
        cases hzero : mapPcUpdate payload 0 with
        | error e' => exact ⟨rfl, rfl⟩
        | ok mapping =>
          rw [hzero] at hsame
          cases hsame
      | ok mapping =>
        rw [hmap] at hsame
        cases hzero : mapPcUpdate payload 0 with
        | error e =>
          rw [hzero] at hsame
          cases hsame
        | ok mapping' =>
          rw [hzero] at hsame
          have hpc : mapping.pcSeq = mapping'.pcSeq := Except.ok.inj hsame
          dsimp only
          rw [← hpc]
          exact mapped_atSeq host mapping

theorem handleRegResponse_atSeq (htracked : Tracked c) {s : Option Int} (h : AtSeq c s) (payload : Payload) :
    AtSeq (c.handleRegResponse payload).controller s := by
  obtain ⟨planned, hinv⟩ := htracked.recovery
  unfold handleRegResponse
  dsimp only
  split
  · have hpc := (wrapRequests_frame c.core (c.vRecovery.applyRegResponse payload).memRequests).1
    have hseq := (VVariableRecovery.applyRegResponse_turn hinv payload).pcSeq
    have hkept : AtSeq { c with
        vRecovery := (c.vRecovery.applyRegResponse payload).recovery
        core := (wrapRequests c.core (c.vRecovery.applyRegResponse payload).memRequests).2 } s :=
      ⟨(congrArg (Option.map PcContext.pcSeq) hpc).trans h.1, hseq.trans h.2⟩
    split
    · exact hkept
    · exact hkept
  · have hpc : (c.core.applyRegResponse payload).core.currentPc = c.core.currentPc := by
      rcases c.core.applyRegResponse_display payload with ⟨heq, _⟩ | ⟨_, hpc, _⟩
      · rw [heq]
      · exact hpc
    have hkept : AtSeq { c with core := (c.core.applyRegResponse payload).core } s :=
      ⟨(congrArg (Option.map PcContext.pcSeq) hpc).trans h.1, h.2⟩
    split
    · exact hkept
    · exact hkept

theorem handleMemResponse_atSeq (htracked : Tracked c) {s : Option Int} (h : AtSeq c s) (payload : Payload) :
    AtSeq (c.handleMemResponse payload).controller s := by
  obtain ⟨planned, hinv⟩ := htracked.recovery
  unfold handleMemResponse
  dsimp only
  split
  · have hseq := (VVariableRecovery.applyMemResponse_turn hinv payload).pcSeq
    have hkept : AtSeq { c with vRecovery := (c.vRecovery.applyMemResponse payload).recovery } s :=
      ⟨h.1, hseq.trans h.2⟩
    split
    · exact hkept
    · exact hkept
  · have hpc : (c.core.applyMemResponse payload).core.currentPc = c.core.currentPc := by
      rcases c.core.applyMemResponse_display payload with ⟨heq, _⟩ | ⟨_, hpc, _⟩
      · rw [heq]
      · exact hpc
    have hkept : AtSeq { c with core := (c.core.applyMemResponse payload).core } s :=
      ⟨(congrArg (Option.map PcContext.pcSeq) hpc).trans h.1, h.2⟩
    split
    · exact hkept
    · exact hkept

/-- A message begins the context it announces, and no other message changes the context. -/
theorem handleMessage_atSeq (htracked : Tracked c) {s : Option Int} (h : AtSeq c s) (host : HostReply)
    (message : Payload) : AtSeq (c.handleMessage host message).controller ((contextSeq message).or s) := by
  unfold handleMessage contextSeq
  cases (message.getD "payload" (.obj [])).asObj with
  | none => exact h
  | some payload =>
    dsimp only
    split
    · exact handlePcUpdate_atSeq host h
    · split
      · exact handleRegResponse_atSeq htracked h payload
      · split
        · exact handleMemResponse_atSeq htracked h payload
        · exact h

/-- What is accepted carries the `pc_seq` of the context. -/
theorem accepts_seq {s : Option Int} (h : AtSeq c s) {message : Payload} (haccepts : accepts c message = true) :
    ∃ pcSeq payload, s = some pcSeq ∧ (message.getD "payload" (.obj [])).asObj = some payload ∧
      ((message.get "type").eqStr "reg_response" || (message.get "type").eqStr "mem_response") = true ∧
      (payload.get "pc_seq").eqInt pcSeq = true := by
  have hcore {current : PcContext} (hcurrent : c.core.currentPc = some current) : s = some current.pcSeq :=
    h.1.symm.trans (congrArg (Option.map PcContext.pcSeq) hcurrent)
  have hrecovery {current : Int} (hcurrent : c.vRecovery.pcSeq = some current) : s = some current :=
    h.2.symm.trans hcurrent
  unfold accepts at haccepts
  cases hpayload : (message.getD "payload" (.obj [])).asObj with
  | none =>
    rw [hpayload] at haccepts
    cases haccepts
  | some payload =>
    rw [hpayload] at haccepts
    dsimp only at haccepts
    split at haccepts
    · rename_i htype
      rw [htype, Bool.true_or]
      split at haccepts
      · rcases c.vRecovery.applyRegResponse_verdict payload with ⟨hrefused, _⟩ | ⟨_, current, hcurrent, hseq⟩
        · exact absurd (hrefused.symm.trans haccepts) Bool.false_ne_true
        · exact ⟨current, payload, hrecovery hcurrent, rfl, rfl, hseq⟩
      · rcases c.core.applyRegResponse_verdict payload with ⟨hrefused, _⟩ | ⟨_, current, hcurrent, hseq⟩
        · exact absurd (hrefused.symm.trans haccepts) Bool.false_ne_true
        · exact ⟨current.pcSeq, payload, hcore hcurrent, rfl, rfl, hseq⟩
    · split at haccepts
      · rename_i htype
        rw [htype, Bool.or_true]
        split at haccepts
        · rcases c.vRecovery.applyMemResponse_verdict payload with ⟨hrefused, _⟩ | ⟨_, current, hcurrent, hseq⟩
          · exact absurd (hrefused.symm.trans haccepts) Bool.false_ne_true
          · exact ⟨current, payload, hrecovery hcurrent, rfl, rfl, hseq⟩
        · rcases c.core.applyMemResponse_verdict payload with ⟨hrefused, _⟩ | ⟨_, current, hcurrent, hseq⟩
          · exact absurd (hrefused.symm.trans haccepts) Bool.false_ne_true
          · exact ⟨current.pcSeq, payload, hcore hcurrent, rfl, rfl, hseq⟩
      · cases haccepts

/-- Only an update or an accepted response changes what the engines hold of the variables. -/
theorem handleMessage_refused (host : HostReply) {message : Payload}
    (htype : (message.get "type").eqStr "pc_update" = false) (h : accepts c message = false) :
    (c.handleMessage host message).controller.core.rows = c.core.rows ∧
      (c.handleMessage host message).controller.vRecovery.records = c.vRecovery.records := by
  unfold accepts at h
  unfold handleMessage
  cases hpayload : (message.getD "payload" (.obj [])).asObj with
  | none => exact ⟨rfl, rfl⟩
  | some payload =>
    rw [hpayload] at h
    dsimp only at h ⊢
    rw [htype, if_neg Bool.false_ne_true]
    split at h
    · rename_i hreg
      rw [if_pos hreg, handleRegResponse]
      split at h
      · rename_i hv
        rcases c.vRecovery.applyRegResponse_verdict payload with ⟨hrefused, hrecords, hnone⟩ | ⟨haccepted, _⟩
        · rw [if_pos hv]
          dsimp only
          rw [hrefused, hnone]
          exact ⟨rfl, hrecords⟩
        · exact absurd (h.symm.trans haccepted) Bool.false_ne_true
      · rename_i hv
        rcases c.core.applyRegResponse_verdict payload with ⟨hrefused, hsame⟩ | ⟨haccepted, _⟩
        · rw [if_neg hv]
          dsimp only
          rw [hrefused, hsame]
          exact ⟨rfl, rfl⟩
        · exact absurd (h.symm.trans haccepted) Bool.false_ne_true
    · rename_i hreg
      rw [if_neg hreg]
      split at h
      · rename_i hmem
        rw [if_pos hmem, handleMemResponse]
        split at h
        · rename_i hv
          rcases c.vRecovery.applyMemResponse_verdict payload with ⟨hrefused, hrecords⟩ | ⟨haccepted, _⟩
          · rw [if_pos hv]
            dsimp only
            rw [hrefused]
            exact ⟨rfl, hrecords⟩
          · exact absurd (h.symm.trans haccepted) Bool.false_ne_true
        · rename_i hv
          rcases c.core.applyMemResponse_verdict payload with ⟨hrefused, hsame⟩ | ⟨haccepted, _⟩
          · rw [if_neg hv]
            dsimp only
            rw [hrefused, hsame]
            exact ⟨rfl, rfl⟩
          · exact absurd (h.symm.trans haccepted) Bool.false_ne_true
      · rename_i hmem
        rw [if_neg hmem]
        exact ⟨rfl, rfl⟩

end contexts

section sent
variable {c : DayVarController}

theorem wrapRequests_readable (core : DayVarCore) {requests : List Request}
    (h : ∀ request ∈ requests, FloatFreeFields request.payload) :
    ∀ message ∈ (wrapRequests core requests).1, message.Readable := by
  induction requests generalizing core with
  | nil =>
    intro message hmem
    cases hmem
  | cons request rest ih =>
    obtain ⟨hfirst, hrest⟩ := List.forall_mem_cons.mp h
    exact List.forall_mem_cons.mpr ⟨hfirst, ih _ hrest⟩

theorem recoverLocals_readable (host : HostReply) (context : PcContext) (functionStartEa idaEa : Int)
    (lvars previousRows : List VariableRecord) :
    ∀ message ∈ (c.recoverLocals host context functionStartEa idaEa lvars previousRows).2, message.Readable := by
  obtain ⟨selected, cache, ⟨turns, hafter⟩ | ⟨begun, hbegun, hafter⟩⟩ :=
    recoverLocals_cases c host context functionStartEa idaEa lvars previousRows
  · rw [hafter]
    intro message h
    cases h
  · rw [hafter, ← hbegun]
    exact wrapRequests_readable _ (VVariableRecovery.beginPc_readable _ _ _ _ _ _ _ _)

theorem mapped_readable (host : HostReply) (mapping : PcMapping) :
    ∀ message ∈ (c.mapped host mapping).sent, message.Readable := by
  have hmapped := c.core.makeIdaPcMapped_readable mapping.pcSeq (formatHex mapping.runtimePc)
    (some (formatHex mapping.idaEa)) mapping.module (formatHex mapping.idaImagebase) true none
  unfold mapped
  dsimp only
  split
  · exact List.forall_mem_singleton.mpr hmapped
  · refine List.forall_mem_append.mpr ⟨List.forall_mem_append.mpr ⟨List.forall_mem_singleton.mpr hmapped,
      DayVarCore.buildEntryPlan_readable _ _ _⟩, ?_⟩
    exact recoverLocals_readable host _ _ _ _ _

/-- The controller sends texts and numbers only. -/
theorem handleMessage_readable (host : HostReply) (message : Payload) :
    ∀ sent ∈ (c.handleMessage host message).sent, sent.Readable := by
  have hnone : ∀ sent ∈ ([] : List Envelope), sent.Readable := fun sent h => by cases h
  unfold handleMessage
  split
  · exact hnone
  · rename_i payload _
    dsimp only
    split
    · unfold handlePcUpdate
      split
      · exact hnone
      · dsimp only
        split
        · exact hnone
        · split
          · exact List.forall_mem_singleton.mpr (DayVarCore.makeIdaPcMapped_readable ..)
          · exact mapped_readable host _
    · split
      · unfold handleRegResponse
        split
        · dsimp only
          split
          · exact hnone
          · exact wrapRequests_readable _ (VVariableRecovery.applyRegResponse_readable _ payload)
        · dsimp only
          split
          · exact hnone
          · exact DayVarCore.applyRegResponse_readable _ payload
      · split
        · unfold handleMemResponse
          split
          · dsimp only
            split
            · exact hnone
            · exact hnone
          · dsimp only
            split
            · exact hnone
            · exact hnone
        · exact hnone

end sent

end DayVarController
end DynvarSync.Ida
