import DynvarSync.Ida.VRecoveryRuns
import DynvarSync.Ida.Core
import DynvarSync.Lib.RequestTable

/-! Correlation of responses with requests in both engines: refusals leave the
state alone, and an accepted response is never accepted again. -/
namespace DynvarSync.Ida
open Lib PyText

namespace VVariableRecovery

/-- One register request opens a context, its answer plans the memory requests. -/
def scheme : RequestScheme String PendingVRequest where
  Opening id p := p.kind = .reg ∧ p.requestId = id ∧ ∃ n, id = vRegRequestId n
  FollowUp id p := p.kind = .mem ∧ p.requestId = id ∧ ∃ n i, id = vMemRequestId n i
  disjoint := by
    rintro i j p q ⟨_, _, n, rfl⟩ ⟨_, _, m, k, rfl⟩ h
    exact vRegRequestId_ne_vMemRequestId n m k h.symm

/-- The same state, the pending table read as a map. -/
def Same (s s' : VVariableRecovery) : Prop :=
  ∃ pending, s' = { s with pending := pending } ∧ pending.Same s.pending

theorem extends_register (s : VVariableRecovery) (i : Int) (registers : Payload) (pending : PendingVRequest)
    (out : List Request) :
    scheme.Extends s.pending (applyRegisterIndex registers pending (s, out) i).1.pending := by
  rcases applyRegisterIndex_cases s i registers pending out with
    ⟨heq, _⟩ | ⟨r, hr, ⟨reason, heq⟩ | ⟨n, heq⟩ | ⟨address, heq⟩⟩
  · rw [heq]
    exact .refl _
  · rw [heq]
    exact .refl _
  · rw [heq, markFresh_pending]
    exact .refl _
  · rw [heq]
    exact .set _ ⟨rfl, rfl, _, _, rfl⟩

theorem extends_registerLoop (registers : Payload) (pending : PendingVRequest) (indexes : List Int)
    (acc : VVariableRecovery × List Request) :
    scheme.Extends acc.1.pending (indexes.foldl (applyRegisterIndex registers pending) acc).1.pending := by
  induction indexes generalizing acc with
  | nil => exact .refl _
  | cons i rest ih => exact (extends_register acc.1 i registers pending acc.2).trans (ih _)

theorem markReadError_pending (s : VVariableRecovery) (indexes : List Int) (reason : String) :
    (s.markReadError indexes reason).pending = s.pending := by
  unfold markReadError
  induction indexes generalizing s with
  | nil => rfl
  | cons i rest ih =>
    rw [List.foldl_cons, ih]
    cases s.records.get? i <;> rfl

theorem memoryLoop_pending (payload : Payload) (pending : PendingVRequest) (indexes : List Int)
    (s : VVariableRecovery) : (indexes.foldl (applyMemoryIndex payload pending) s).pending = s.pending := by
  induction indexes generalizing s with
  | nil => rfl
  | cons i rest ih =>
    rw [List.foldl_cons, ih]
    cases hr : s.records.get? i with
    | none => simp [applyMemoryIndex, hr]
    | some r =>
      rcases applyMemoryIndex_cases payload pending hr with ⟨reason, heq⟩ | ⟨n, storage, reason, heq⟩
      · rw [heq, store_pending]
      · rw [heq, store_pending, markFresh_pending]

/-- A refused register response changes nothing, an accepted one consumes its request. -/
theorem applyRegResponse_correlates {s : VVariableRecovery} (hv : scheme.Valid s.pending) (payload : Payload) :
    ((s.applyRegResponse payload).accepted = false → (s.applyRegResponse payload).recovery = s) ∧
    ((s.applyRegResponse payload).accepted = true → ∃ id, payload.get "request_id" = .str id ∧
      scheme.Accept id s.pending (s.applyRegResponse payload).recovery.pending) := by
  unfold applyRegResponse
  cases htake : s.takePending payload .reg with
  | error reason => exact ⟨fun _ => rfl, by rintro ⟨⟩⟩
  | ok taken =>
    obtain ⟨p, s'⟩ := taken
    obtain ⟨_, id, _, _, _, hid, hp, hkind, rfl⟩ := takePending_ok htake
    have ho : scheme.Opening id p := by
      rcases hv.stages id p hp with ho | hf
      · exact ho
      · exact absurd (hkind.symm.trans hf.1) (by decide)
    dsimp only
    split
    · exact ⟨by rintro ⟨⟩, fun _ => ⟨id, hid, .opening p hp ho (by rw [markReadError_pending]; exact .refl _)⟩⟩
    · split
      · exact ⟨by rintro ⟨⟩, fun _ => ⟨id, hid, .opening p hp ho (by rw [markReadError_pending]; exact .refl _)⟩⟩
      · rename_i registers _
        refine ⟨by rintro ⟨⟩, fun _ => ⟨id, hid, .opening p hp ho ?_⟩⟩
        exact extends_registerLoop registers p p.lvarIndexes ({ s with pending := s.pending.pop id }, [])

/-- A refused memory response at most reorders the table, an accepted one consumes its request. -/
theorem applyMemResponse_correlates {s : VVariableRecovery} (hv : scheme.Valid s.pending) (payload : Payload) :
    ((s.applyMemResponse payload).accepted = false → Same s (s.applyMemResponse payload).recovery) ∧
    ((s.applyMemResponse payload).accepted = true → ∃ id, payload.get "request_id" = .str id ∧
      scheme.Accept id s.pending (s.applyMemResponse payload).recovery.pending) := by
  unfold applyMemResponse
  cases htake : s.takePending payload .mem with
  | error reason => exact ⟨fun _ => ⟨s.pending, rfl, .refl _⟩, by rintro ⟨⟩⟩
  | ok taken =>
    obtain ⟨p, s'⟩ := taken
    obtain ⟨_, id, _, _, _, hid, hp, hkind, rfl⟩ := takePending_ok htake
    have hf : scheme.FollowUp id p := by
      rcases hv.stages id p hp with ho | hf
      · exact absurd (hkind.symm.trans ho.1) (by decide)
      · exact hf
    have hback : Same s { s with pending := (s.pending.pop id).set p.requestId p } := by
      rw [hf.2.1]
      exact ⟨_, rfl, Dict.same_set_pop _ hp⟩
    dsimp only
    split
    · exact ⟨fun _ => hback, by rintro ⟨⟩⟩
    · split
      · exact ⟨fun _ => hback, by rintro ⟨⟩⟩
      · refine ⟨by rintro ⟨⟩, fun _ => ⟨id, hid, .followUp p hp hf ?_⟩⟩
        rw [memoryLoop_pending]

theorem planVariable_pending (ok : Bool) (selected : List Int) (currentEa : Int) (runtimePc : String)
    (pcSeq : Int) (p : PlanState) (lvar : VariableRecord) :
    (planVariable ok selected currentEa runtimePc pcSeq p lvar).recovery.pending = p.recovery.pending := by
  rcases planVariable_cases ok selected currentEa runtimePc pcSeq p lvar with
    ⟨_, _, reason, keep, heq⟩ | ⟨_, n, c, _, _, _, _, heq⟩ | ⟨_, reason, register, _, _, heq⟩
  · rw [heq, store_pending]
  · rw [heq, markFresh_pending]
  · rw [heq, store_pending]

theorem planLoop_pending (ok : Bool) (selected : List Int) (currentEa : Int) (runtimePc : String)
    (pcSeq : Int) (lvars : List VariableRecord) (p : PlanState) :
    (lvars.foldl (planVariable ok selected currentEa runtimePc pcSeq) p).recovery.pending = p.recovery.pending := by
  induction lvars generalizing p with
  | nil => rfl
  | cons lvar lvars ih => rw [List.foldl_cons, ih, planVariable_pending]

theorem beginPc_valid (s : VVariableRecovery) (provider : AnalysisProvider) (lvars : List VariableRecord)
    (functionEa currentEa : Int) (runtimePc : String) (pcSeq : Int) (selection : Option (List Int)) :
    scheme.Valid (s.beginPc provider lvars functionEa currentEa runtimePc pcSeq selection).1.pending := by
  unfold beginPc
  dsimp only
  split
  · rw [planLoop_pending]
    exact RequestScheme.valid_empty
  · rw [planLoop_pending]
    exact RequestScheme.valid_opening ⟨rfl, rfl, pcSeq, rfl⟩

/-- The operation plans no new context. -/
def Op.KeepsContext : Op → Prop
  | .beginPc .. => False
  | _ => True

/-- Outside `begin_pc` the pending table only answers or empties. -/
theorem step_pending {s : VVariableRecovery} (hv : scheme.Valid s.pending) (op : Op) (hop : op.KeepsContext) :
    scheme.Step s.pending (s.step op).pending := by
  cases op with
  | beginPc => exact absurd hop id
  | invalidatePc pcSeq runtimePc => exact .clear rfl
  | clearRuntimeState => exact .clear rfl
  | applyRegResponse payload =>
    obtain ⟨hrefuse, haccept⟩ := applyRegResponse_correlates hv payload
    exact .of_answer (fun h => by rw [step, hrefuse h]) haccept
  | applyMemResponse payload =>
    obtain ⟨hrefuse, haccept⟩ := applyMemResponse_correlates hv payload
    refine .of_answer (fun h => ?_) haccept
    obtain ⟨pending, heq, hsame⟩ := hrefuse h
    rw [step, heq]
    exact hsame

theorem step_valid {s : VVariableRecovery} (hv : scheme.Valid s.pending) (op : Op) :
    scheme.Valid (s.step op).pending := by
  cases op with
  | beginPc provider lvars functionEa currentEa runtimePc pcSeq selection =>
    exact beginPc_valid s provider lvars functionEa currentEa runtimePc pcSeq selection
  | invalidatePc pcSeq runtimePc => exact RequestScheme.valid_empty
  | clearRuntimeState => exact RequestScheme.valid_empty
  | applyRegResponse payload => exact (step_pending hv (.applyRegResponse payload) trivial).valid hv
  | applyMemResponse payload => exact (step_pending hv (.applyMemResponse payload) trivial).valid hv

theorem run_valid {s : VVariableRecovery} (hv : scheme.Valid s.pending) (ops : List Op) :
    scheme.Valid (s.run ops).pending := by
  induction ops generalizing s with
  | nil => exact hv
  | cons op ops ih => exact ih (step_valid hv op)

theorem run_pending {s : VVariableRecovery} (hv : scheme.Valid s.pending) (ops : List Op)
    (hops : ∀ op ∈ ops, op.KeepsContext) : Relation.ReflTransGen scheme.Step s.pending (s.run ops).pending := by
  induction ops generalizing s with
  | nil => exact .refl
  | cons op ops ih =>
    have hstep := step_pending hv op (hops op (List.mem_cons_self ..))
    exact .head hstep (ih (hstep.valid hv) fun o ho => hops o (List.mem_cons_of_mem op ho))

/-- Either apply function, with its verdict. -/
def submit (s : VVariableRecovery) (kind : RequestKind) (payload : Payload) : VVariableRecovery × Bool :=
  let applied := match kind with
    | .reg => s.applyRegResponse payload
    | .mem => s.applyMemResponse payload
  (applied.recovery, applied.accepted)

theorem submit_correlates {s : VVariableRecovery} (hv : scheme.Valid s.pending) (kind : RequestKind)
    (payload : Payload) :
    ((s.submit kind payload).2 = false → Same s (s.submit kind payload).1) ∧
    ((s.submit kind payload).2 = true → ∃ id, payload.get "request_id" = .str id ∧
      scheme.Accept id s.pending (s.submit kind payload).1.pending) := by
  cases kind with
  | reg =>
    obtain ⟨hrefuse, haccept⟩ := applyRegResponse_correlates hv payload
    exact ⟨fun h => ⟨s.pending, hrefuse h, .refl _⟩, haccept⟩
  | mem => exact applyMemResponse_correlates hv payload

theorem submit_absent {s : VVariableRecovery} {payload : Payload} {id : String}
    (hid : payload.get "request_id" = .str id) (hp : s.pending.get? id = none) (kind : RequestKind) :
    s.submit kind payload = (s, false) := by
  obtain ⟨reason, hreg⟩ := takePending_absent hid hp .reg
  obtain ⟨reason', hmem⟩ := takePending_absent hid hp .mem
  cases kind with
  | reg => simp [submit, applyRegResponse, hreg]
  | mem => simp [submit, applyMemResponse, hmem]

end VVariableRecovery

namespace DayVarCore

theorem takePendingResponse_ok {core core' : DayVarCore} {payload : Payload} {kind : RequestKind}
    {p : PendingRequest} (h : core.takePendingResponse payload kind = .ok (p, core')) :
    ∃ current requestId, core.currentPc = some current ∧
      (payload.get "pc_seq").eqInt current.pcSeq = true ∧
      ((payload.get "runtime_pc").isTruthy = true →
        (payload.get "runtime_pc").eqStr current.runtimePc = true) ∧
      payload.get "request_id" = .str requestId ∧ core.pendingRequests.get? requestId = some p ∧
      p.kind = kind ∧ core' = { core with pendingRequests := core.pendingRequests.pop requestId } := by
  unfold takePendingResponse at h
  split at h
  · cases h
  · rename_i current hcur
    split at h
    · cases h
    · rename_i hseq
      split at h
      · cases h
      · rename_i hpc
        split at h
        · cases h
        · rename_i requestId hid
          split at h
          · cases h
          · rename_i p' hp
            split at h
            · cases h
            · rename_i hkind
              cases h
              refine ⟨current, requestId, hcur, by simpa using hseq, ?_,
                (Json.asStr_eq_some_iff _ _).mp hid, hp, not_not.mp hkind, rfl⟩
              intro ht
              simpa [ht] using hpc

theorem takePendingResponse_absent {core : DayVarCore} {payload : Payload} {requestId : String}
    (hid : payload.get "request_id" = .str requestId) (hp : core.pendingRequests.get? requestId = none)
    (kind : RequestKind) : ∃ reason, core.takePendingResponse payload kind = .error reason := by
  cases h : core.takePendingResponse payload kind with
  | error reason => exact ⟨reason, rfl⟩
  | ok r =>
    obtain ⟨_, id, _, _, _, hid', hp', _⟩ := takePendingResponse_ok h
    rw [hid] at hid'
    cases hid'
    rw [hp] at hp'
    cases hp'

theorem regRequestId_ne_memRequestId (m n : Int) (name : String) : regRequestId m ≠ memRequestId n name := by
  intro h
  have ht := congrArg String.toList h
  simp [regRequestId, memRequestId] at ht

/-- One register request opens a context, its answer plans the stack argument reads. -/
def scheme : RequestScheme String PendingRequest where
  Opening id p := p.kind = .reg ∧ ∃ n, id = regRequestId n
  FollowUp id p := p.kind = .mem ∧ ∃ n name, id = memRequestId n name
  disjoint := by
    rintro i j p q ⟨_, n, rfl⟩ ⟨_, m, name, rfl⟩ h
    exact regRequestId_ne_memRequestId n m name h.symm

theorem extends_stackLoop (rsp : Int) (pending : PendingRequest) (rows : List VariableRecord)
    (acc : StackRequests) : scheme.Extends acc.core.pendingRequests
      (rows.foldl (requestStackArg rsp pending) acc).core.pendingRequests := by
  induction rows generalizing acc with
  | nil => exact .refl _
  | cons row rows ih =>
    refine .trans ?_ (ih _)
    unfold requestStackArg
    split
    · exact .refl _
    · exact .set _ ⟨rfl, _, _, rfl⟩

theorem extends_buildStackMemRequests (core : DayVarCore) (registers : Payload) (pending : PendingRequest) :
    scheme.Extends core.pendingRequests (core.buildStackMemRequests registers pending).1.pendingRequests := by
  unfold buildStackMemRequests
  split
  · exact .refl _
  · split
    · exact .refl _
    · exact extends_stackLoop _ pending core.rows { core := core }

theorem applyRegResponse_correlates {core : DayVarCore} (hv : scheme.Valid core.pendingRequests)
    (payload : Payload) :
    ((core.applyRegResponse payload).accepted = false → (core.applyRegResponse payload).core = core) ∧
    ((core.applyRegResponse payload).accepted = true → ∃ id, payload.get "request_id" = .str id ∧
      scheme.Accept id core.pendingRequests (core.applyRegResponse payload).core.pendingRequests) := by
  unfold applyRegResponse
  cases htake : core.takePendingResponse payload .reg with
  | error reason => exact ⟨fun _ => rfl, by rintro ⟨⟩⟩
  | ok taken =>
    obtain ⟨p, core'⟩ := taken
    obtain ⟨_, id, _, _, _, hid, hp, hkind, rfl⟩ := takePendingResponse_ok htake
    have ho : scheme.Opening id p := by
      rcases hv.stages id p hp with ho | hf
      · exact ho
      · exact absurd (hkind.symm.trans hf.1) (by decide)
    dsimp only
    split
    · exact ⟨by rintro ⟨⟩, fun _ => ⟨id, hid, .opening p hp ho (.refl _)⟩⟩
    · split
      · exact ⟨by rintro ⟨⟩, fun _ => ⟨id, hid, .opening p hp ho (.refl _)⟩⟩
      · refine ⟨by rintro ⟨⟩, fun _ => ⟨id, hid, .opening p hp ho ?_⟩⟩
        exact extends_buildStackMemRequests { core with pendingRequests := _, rows := _ } _ p

theorem applyMemResponse_correlates {core : DayVarCore} (hv : scheme.Valid core.pendingRequests)
    (payload : Payload) :
    ((core.applyMemResponse payload).accepted = false → (core.applyMemResponse payload).core = core) ∧
    ((core.applyMemResponse payload).accepted = true → ∃ id, payload.get "request_id" = .str id ∧
      scheme.Accept id core.pendingRequests (core.applyMemResponse payload).core.pendingRequests) := by
  unfold applyMemResponse
  cases htake : core.takePendingResponse payload .mem with
  | error reason => exact ⟨fun _ => rfl, by rintro ⟨⟩⟩
  | ok taken =>
    obtain ⟨p, core'⟩ := taken
    obtain ⟨_, id, _, _, _, hid, hp, hkind, rfl⟩ := takePendingResponse_ok htake
    have hf : scheme.FollowUp id p := by
      rcases hv.stages id p hp with ho | hf
      · exact absurd (hkind.symm.trans ho.1) (by decide)
      · exact hf
    exact ⟨by rintro ⟨⟩, fun _ => ⟨id, hid, .followUp p hp hf (.refl _)⟩⟩

theorem buildEntryPlan_valid (core : DayVarCore) (lvars : List VariableRecord) (context : PcContext) :
    scheme.Valid (core.buildEntryPlan lvars context).1.pendingRequests := by
  unfold buildEntryPlan
  dsimp only
  split
  · exact RequestScheme.valid_empty
  · exact RequestScheme.valid_opening ⟨rfl, context.pcSeq, rfl⟩

/-- The operation plans no new context. -/
def Op.KeepsContext : Op → Prop
  | .buildEntryPlan .. => False
  | _ => True

theorem step_pending {core : DayVarCore} (hv : scheme.Valid core.pendingRequests) (op : Op)
    (hop : op.KeepsContext) : scheme.Step core.pendingRequests (core.step op).pendingRequests := by
  cases op with
  | buildEntryPlan => exact absurd hop id
  | startPcContext context => exact .clear rfl
  | clearPending => exact .clear rfl
  | envelope type payload => exact .refuse (.refl _)
  | applyRegResponse payload =>
    obtain ⟨hrefuse, haccept⟩ := applyRegResponse_correlates hv payload
    exact .of_answer (fun h => by rw [step, hrefuse h]) haccept
  | applyMemResponse payload =>
    obtain ⟨hrefuse, haccept⟩ := applyMemResponse_correlates hv payload
    exact .of_answer (fun h => by rw [step, hrefuse h]) haccept

theorem step_valid {core : DayVarCore} (hv : scheme.Valid core.pendingRequests) (op : Op) :
    scheme.Valid (core.step op).pendingRequests := by
  cases op with
  | buildEntryPlan lvars context => exact buildEntryPlan_valid core lvars context
  | startPcContext context => exact RequestScheme.valid_empty
  | clearPending => exact RequestScheme.valid_empty
  | envelope type payload => exact hv
  | applyRegResponse payload => exact (step_pending hv (.applyRegResponse payload) trivial).valid hv
  | applyMemResponse payload => exact (step_pending hv (.applyMemResponse payload) trivial).valid hv

theorem run_valid {core : DayVarCore} (hv : scheme.Valid core.pendingRequests) (ops : List Op) :
    scheme.Valid (core.run ops).pendingRequests := by
  induction ops generalizing core with
  | nil => exact hv
  | cons op ops ih => exact ih (step_valid hv op)

theorem run_pending {core : DayVarCore} (hv : scheme.Valid core.pendingRequests) (ops : List Op)
    (hops : ∀ op ∈ ops, op.KeepsContext) :
    Relation.ReflTransGen scheme.Step core.pendingRequests (core.run ops).pendingRequests := by
  induction ops generalizing core with
  | nil => exact .refl
  | cons op ops ih =>
    have hstep := step_pending hv op (hops op (List.mem_cons_self ..))
    exact .head hstep (ih (hstep.valid hv) fun o ho => hops o (List.mem_cons_of_mem op ho))

/-- Either apply function, with its verdict. -/
def submit (core : DayVarCore) (kind : RequestKind) (payload : Payload) : DayVarCore × Bool :=
  let applied := match kind with
    | .reg => core.applyRegResponse payload
    | .mem => core.applyMemResponse payload
  (applied.core, applied.accepted)

theorem submit_correlates {core : DayVarCore} (hv : scheme.Valid core.pendingRequests) (kind : RequestKind)
    (payload : Payload) :
    ((core.submit kind payload).2 = false → (core.submit kind payload).1 = core) ∧
    ((core.submit kind payload).2 = true → ∃ id, payload.get "request_id" = .str id ∧
      scheme.Accept id core.pendingRequests (core.submit kind payload).1.pendingRequests) := by
  cases kind with
  | reg => exact applyRegResponse_correlates hv payload
  | mem => exact applyMemResponse_correlates hv payload

theorem submit_absent {core : DayVarCore} {payload : Payload} {id : String}
    (hid : payload.get "request_id" = .str id) (hp : core.pendingRequests.get? id = none) (kind : RequestKind) :
    core.submit kind payload = (core, false) := by
  obtain ⟨reason, hreg⟩ := takePendingResponse_absent hid hp .reg
  obtain ⟨reason', hmem⟩ := takePendingResponse_absent hid hp .mem
  cases kind with
  | reg => simp [submit, applyRegResponse, hreg]
  | mem => simp [submit, applyMemResponse, hmem]

end DayVarCore

/-- In every reachable state of either engine a refused response changes nothing,
and an accepted one is refused, without effect, until the next plan. -/
theorem responses_applied_at_most_once :
    (∀ (maxHistory : Int) (ops : List VVariableRecovery.Op) (kind : RequestKind) (payload : Payload),
      let s := (VVariableRecovery.init maxHistory).run ops
      ((s.submit kind payload).2 = false → s.Same (s.submit kind payload).1) ∧
      ((s.submit kind payload).2 = true → ∀ later : List VVariableRecovery.Op,
        (∀ op ∈ later, op.KeepsContext) → ∀ kind', let s' := (s.submit kind payload).1.run later
        (s'.submit kind' payload).2 = false ∧ s'.Same (s'.submit kind' payload).1)) ∧
    (∀ (ops : List DayVarCore.Op) (kind : RequestKind) (payload : Payload),
      let core := ({} : DayVarCore).run ops
      ((core.submit kind payload).2 = false → (core.submit kind payload).1 = core) ∧
      ((core.submit kind payload).2 = true → ∀ later : List DayVarCore.Op,
        (∀ op ∈ later, op.KeepsContext) → ∀ kind', let core' := (core.submit kind payload).1.run later
        (core'.submit kind' payload).2 = false ∧ (core'.submit kind' payload).1 = core')) := by
  refine ⟨fun maxHistory ops kind payload => ?_, fun ops kind payload => ?_⟩
  · have hv : VVariableRecovery.scheme.Valid ((VVariableRecovery.init maxHistory).run ops).pending :=
      VVariableRecovery.run_valid RequestScheme.valid_empty ops
    obtain ⟨hrefuse, haccept⟩ := VVariableRecovery.submit_correlates hv kind payload
    refine ⟨hrefuse, fun h later hlater kind' => ?_⟩
    obtain ⟨id, hid, ha⟩ := haccept h
    have hpending := VVariableRecovery.run_pending (ha.consumes hv).1.valid later hlater
    intro s'
    rw [VVariableRecovery.submit_absent hid (ha.absent hv hpending) kind']
    exact ⟨rfl, _, rfl, .refl _⟩
  · have hv : DayVarCore.scheme.Valid (({} : DayVarCore).run ops).pendingRequests :=
      DayVarCore.run_valid RequestScheme.valid_empty ops
    obtain ⟨hrefuse, haccept⟩ := DayVarCore.submit_correlates hv kind payload
    refine ⟨hrefuse, fun h later hlater kind' => ?_⟩
    obtain ⟨id, hid, ha⟩ := haccept h
    have hpending := DayVarCore.run_pending (ha.consumes hv).1.valid later hlater
    intro core'
    rw [DayVarCore.submit_absent hid (ha.absent hv hpending) kind']
    exact ⟨rfl, rfl⟩

theorem responses_applied_at_most_once_rbx :
    let s := ((VVariableRecovery.init 256).run [VVariableRecovery.rbxContext 1]).submit .reg
      (VVariableRecovery.rbxResponse 1)
    s.2 = true ∧ ((s.1.run [.applyRegResponse []]).submit .mem (VVariableRecovery.rbxResponse 1)).2 = false :=
  ⟨by decide, ((responses_applied_at_most_once.1 256 [VVariableRecovery.rbxContext 1] .reg
    (VVariableRecovery.rbxResponse 1)).2 (by decide)
    [.applyRegResponse []] (by simp [VVariableRecovery.Op.KeepsContext]) .mem).1⟩

end DynvarSync.Ida
