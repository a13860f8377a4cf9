import DynvarSync.Ida.Correlation
import DynvarSync.Ida.VRecoveryHistory
import DynvarSync.Ida.VRecoveryReplies

/-! What the runtime requests of the two engines carry: register lists of distinct full
registers, and memory reads of supported width at addresses of the machine. -/
namespace DynvarSync.Ida
open Lib PyText

/-- A register list a request may carry. -/
structure RequestRegisters (registers : List String) : Prop where
  nonempty : registers ≠ []
  nodup : registers.Nodup
  known : ∀ register ∈ registers, register ∈ fullRegisterOrder

theorem RequestRegisters.length_le {registers : List String} (h : RequestRegisters registers) : registers.length ≤ 16 :=
  (List.subperm_of_subset h.nodup h.known).length_le

namespace DayVarCore

theorem planVariable_registers (previousRows : Dict (String × String) VariableRecord) (runtimePc : String)
    (atFunctionEntry : Bool) {plan : EntryPlan} (lvar : VariableRecord)
    (h : plan.neededRegisters.Nodup ∧ ∀ register ∈ plan.neededRegisters, register ∈ entryRegisters) :
    (planVariable previousRows runtimePc atFunctionEntry plan lvar).neededRegisters.Nodup ∧
      ∀ register ∈ (planVariable previousRows runtimePc atFunctionEntry plan lvar).neededRegisters,
        register ∈ entryRegisters := by
  rw [planVariable]
  dsimp only
  split
  · split
    · split <;> exact h
    · split
      · rename_i register hregister
        dsimp only
        split
        · exact h
        · rename_i hnew
          refine ⟨List.nodup_append.mpr ⟨h.1, List.nodup_singleton _, ?_⟩, fun r hr => ?_⟩
          · rintro r hr s hs rfl
            exact hnew (List.mem_singleton.mp hs ▸ hr)
          · rcases List.mem_append.mp hr with hr | hr
            · exact h.2 r hr
            · exact List.mem_singleton.mp hr ▸ List.mem_of_getElem? hregister
      · exact h
  · exact h

theorem entryLoop_registers (previousRows : Dict (String × String) VariableRecord) (runtimePc : String)
    (atFunctionEntry : Bool) (lvars : List VariableRecord) {plan : EntryPlan}
    (h : plan.neededRegisters.Nodup ∧ ∀ register ∈ plan.neededRegisters, register ∈ entryRegisters) :
    let plan' := lvars.foldl (planVariable previousRows runtimePc atFunctionEntry) plan
    plan'.neededRegisters.Nodup ∧ ∀ register ∈ plan'.neededRegisters, register ∈ entryRegisters := by
  induction lvars generalizing plan with
  | nil => exact h
  | cons lvar lvars ih => exact ih (planVariable_registers previousRows runtimePc atFunctionEntry lvar h)

theorem withRsp_registers {plan : EntryPlan} (hne : plan.withRsp ≠ [])
    (h : plan.neededRegisters.Nodup ∧ ∀ register ∈ plan.neededRegisters, register ∈ entryRegisters) :
    RequestRegisters plan.withRsp := by
  have hentry : ∀ register ∈ entryRegisters, register ∈ fullRegisterOrder := by decide
  refine ⟨hne, ?_, ?_⟩
  · rw [EntryPlan.withRsp]
    split
    · rename_i hrsp
      refine List.nodup_append.mpr ⟨h.1, List.nodup_singleton _, ?_⟩
      rintro r hr s hs rfl
      exact hrsp.2 (List.mem_singleton.mp hs ▸ hr)
    · exact h.1
  · rw [EntryPlan.withRsp]
    split
    · intro register hr
      rcases List.mem_append.mp hr with hr | hr
      · exact hentry register (h.2 register hr)
      · rw [List.mem_singleton.mp hr]
        decide
    · exact fun register hr => hentry register (h.2 register hr)

/-- The register request of an entry plan. -/
theorem buildEntryPlan_request {core : DayVarCore} {lvars : List VariableRecord} {context : PcContext}
    {message : Envelope} (h : (core.buildEntryPlan lvars context).2 = some message) :
    ∃ id registers, RequestRegisters registers ∧ message = ⟨id, .regRequest,
      [("pc_seq", .int context.pcSeq), ("request_id", .str (regRequestId context.pcSeq)),
       ("runtime_pc", .str context.runtimePc), ("registers", .arr (registers.map .str)),
       ("reason", .str "auto_live_refresh")]⟩ := by
  rw [buildEntryPlan] at h
  dsimp only at h
  split at h
  · cases h
  · rename_i hne
    refine ⟨_, _, withRsp_registers hne ?_, (Option.some.inj h).symm⟩
    exact entryLoop_registers _ _ _ lvars ⟨List.nodup_nil, nofun⟩

/-- Every outstanding request belongs to the current PC. -/
def CurrentRequests (core : DayVarCore) : Prop :=
  ∀ id p, core.pendingRequests.get? id = some p →
    ∃ context, core.currentPc = some context ∧ p.pcSeq = context.pcSeq ∧ p.runtimePc = context.runtimePc

/-- A stack argument read of a context, with its entry in the table. -/
structure IsStackArgRead (context : PcContext) (core : DayVarCore) (message : Envelope) : Prop where
  shape : ∃ (id address : Int) (width : Nat) (name : String), width ∈ supportedWidths ∧
    message = ⟨id, .memRequest, [("pc_seq", .int context.pcSeq), ("request_id", .str (memRequestId context.pcSeq name)),
      ("runtime_pc", .str context.runtimePc), ("address", .str (formatHex address)), ("size", .int width),
      ("reason", .str "stack_arg"), ("variable", .str name)]⟩ ∧
    ∃ q, core.pendingRequests.get? (memRequestId context.pcSeq name) = some q ∧ q.kind = .mem

theorem currentRequests_of_empty {core : DayVarCore} (h : core.pendingRequests = Dict.empty) :
    CurrentRequests core := by
  intro id p hp
  rw [h] at hp
  cases hp

theorem currentRequests_pop {core : DayVarCore} (h : CurrentRequests core) (requestId : String) :
    CurrentRequests { core with pendingRequests := core.pendingRequests.pop requestId } := by
  intro id p hp
  rw [Dict.get?_pop] at hp
  split at hp
  · cases hp
  · exact h id p hp

/-- What the loop over the stack arguments has established. -/
structure StackReads (context : PcContext) (acc : StackRequests) : Prop where
  current : acc.core.currentPc = some context
  table : CurrentRequests acc.core
  asked : ∀ message ∈ acc.messages, IsStackArgRead context acc.core message

theorem requestStackArg_reads {context : PcContext} (rsp : Int) {pending : PendingRequest}
    (hseq : pending.pcSeq = context.pcSeq) (hpc : pending.runtimePc = context.runtimePc) {acc : StackRequests}
    (h : StackReads context acc) (row : VariableRecord) : StackReads context (requestStackArg rsp pending acc row) := by
  have hwidth : runtimeReadSize row.size ∈ supportedWidths := by
    rw [runtimeReadSize]
    split
    · assumption
    · decide
  rw [requestStackArg]
  dsimp only
  split
  · exact ⟨h.current, h.table, fun message hmessage => ⟨(h.asked message hmessage).shape⟩⟩
  · refine ⟨h.current, ?_, ?_⟩
    · intro id p hp
      have hset : (acc.core.pendingRequests.set (memRequestId pending.pcSeq row.name) _).get? id = some p := hp
      rw [Dict.get?_set] at hset
      split at hset
      · cases hset
        exact ⟨context, h.current, hseq, hpc⟩
      · exact h.table id p hset
    · intro message hmessage
      rcases List.mem_append.mp hmessage with hmessage | hmessage
      · obtain ⟨id, address, width, name, hsupported, hshape, q, hq, hkind⟩ := (h.asked message hmessage).shape
        refine ⟨id, address, width, name, hsupported, hshape, ?_⟩
        change ∃ q, (acc.core.pendingRequests.set (memRequestId pending.pcSeq row.name) _).get? _ = some q ∧ _
        rw [Dict.get?_set]
        split
        · exact ⟨_, rfl, rfl⟩
        · exact ⟨q, hq, hkind⟩
      · rw [List.mem_singleton.mp hmessage]
        refine ⟨acc.core.nextMessageId, rsp + stackArgOffset (row.argIndex.getD 0), runtimeReadSize row.size, row.name,
          hwidth, ?_, ?_⟩
        · rw [← hseq, ← hpc]
          rfl
        · change ∃ q, (acc.core.pendingRequests.set (memRequestId pending.pcSeq row.name) _).get? _ = some q ∧ _
          rw [← hseq, Dict.get?_set_self]
          exact ⟨_, rfl, rfl⟩

theorem stackLoop_reads {context : PcContext} (rsp : Int) {pending : PendingRequest}
    (hseq : pending.pcSeq = context.pcSeq) (hpc : pending.runtimePc = context.runtimePc) (rows : List VariableRecord)
    {acc : StackRequests} (h : StackReads context acc) :
    StackReads context (rows.foldl (requestStackArg rsp pending) acc) := by
  induction rows generalizing acc with
  | nil => exact h
  | cons row rows ih => exact ih (requestStackArg_reads rsp hseq hpc h row)

/-- The memory requests of an applied register response, and what the table holds then. -/
theorem applyRegResponse_reads {core : DayVarCore} (h : CurrentRequests core) (payload : Payload) :
    CurrentRequests (core.applyRegResponse payload).core ∧
      ∀ message ∈ (core.applyRegResponse payload).memRequests, ∃ context,
        (core.applyRegResponse payload).core.currentPc = some context ∧
        IsStackArgRead context (core.applyRegResponse payload).core message := by
  rw [applyRegResponse]
  cases htake : core.takePendingResponse payload .reg with
  | error reason => exact ⟨h, by rintro _ ⟨⟩⟩
  | ok taken =>
    obtain ⟨pending, core'⟩ := taken
    obtain ⟨current, requestId, hcurrent, -, -, -, hp, -, rfl⟩ := takePendingResponse_ok htake
    obtain ⟨context, hcontext, hseq, hpc⟩ := h requestId pending hp
    have htable := currentRequests_pop h requestId
    dsimp only
    split
    · exact ⟨htable, by rintro _ ⟨⟩⟩
    · split
      · exact ⟨htable, by rintro _ ⟨⟩⟩
      · rename_i registers _
        rw [buildStackMemRequests]
        split
        · exact ⟨htable, by rintro _ ⟨⟩⟩
        · split
          · exact ⟨htable, by rintro _ ⟨⟩⟩
          · rename_i rsp _
            have hstart : StackReads context { core := { core with
                pendingRequests := core.pendingRequests.pop requestId
                rows := core.rows.map (applyEntryRegister registers pending) } } := ⟨hcontext, htable, by rintro _ ⟨⟩⟩
            have hloop := stackLoop_reads rsp hseq hpc (core.rows.map (applyEntryRegister registers pending)) hstart
            exact ⟨hloop.table, fun message hmessage =>
              ⟨context, hloop.current, ⟨(hloop.asked message hmessage).shape⟩⟩⟩

theorem step_currentRequests {core : DayVarCore} (h : CurrentRequests core) (op : Op) :
    CurrentRequests (core.step op) := by
  cases op with
  | startPcContext context => exact currentRequests_of_empty rfl
  | buildEntryPlan lvars context =>
    rw [step, buildEntryPlan]
    dsimp only
    split
    · exact currentRequests_of_empty rfl
    · intro id p hp
      have hset : (Dict.empty.set (regRequestId context.pcSeq) _).get? id = some p := hp
      rw [Dict.get?_set] at hset
      split at hset
      · cases hset
        exact ⟨context, rfl, rfl, rfl⟩
      · cases hset
  | envelope type payload => exact h
  | clearPending => exact currentRequests_of_empty rfl
  | applyRegResponse payload => exact (applyRegResponse_reads h payload).1
  | applyMemResponse payload =>
    rw [step, applyMemResponse]
    cases htake : core.takePendingResponse payload .mem with
    | error reason => exact h
    | ok taken =>
      obtain ⟨pending, core'⟩ := taken
      obtain ⟨_, requestId, -, -, -, -, -, -, rfl⟩ := takePendingResponse_ok htake
      exact currentRequests_pop h requestId

theorem run_currentRequests {core : DayVarCore} (h : CurrentRequests core) (ops : List Op) :
    CurrentRequests (core.run ops) := by
  induction ops generalizing core with
  | nil => exact h
  | cons op ops ih => exact ih (step_currentRequests h op)

end DayVarCore

/-- Register evidence names a full register, as every entry of the register table does. -/
def AnalysisProvider.NamesRegisters (provider : AnalysisProvider) : Prop :=
  ∀ functionEa currentEa lvars analysis, provider functionEa currentEa lvars = .ok analysis →
    ∀ i e spec, analysis.evidenceByIndex.get? i = some e → e.register = some spec →
      spec.fullRegister ∈ fullRegisterOrder

namespace VVariableRecovery

section registers
variable {analysis : RecoveryAnalysis} {selected : List Int} {currentEa : Int} {runtimePc : String} {pcSeq : Int}

/-- Only evidence of the table has a register. -/
theorem chooseEvidence_register {s : VVariableRecovery} {ok : Bool} {i : Int} {spec : RegisterSpec}
    (h : (s.chooseEvidence ok selected i).register = some spec) :
    ∃ e, s.evidence.get? i = some e ∧ e.register = some spec := by
  rw [chooseEvidence] at h
  split at h
  · split at h
    · cases he : s.evidence.get? i with
      | none =>
        rw [he] at h
        cases h
      | some e =>
        rw [he] at h
        exact ⟨e, rfl, h⟩
    · cases h
  · cases h

/-- The registers asked for so far are distinct full registers. -/
def PlansKnown (p : PlanState) : Prop :=
  p.neededRegisters.Nodup ∧ ∀ register ∈ p.neededRegisters, register ∈ fullRegisterOrder

theorem planVariable_known
    (hknown : ∀ i e spec, analysis.evidenceByIndex.get? i = some e → e.register = some spec →
      spec.fullRegister ∈ fullRegisterOrder)
    {p : PlanState} (hp : p.recovery.evidence = analysis.evidenceByIndex) (h : PlansKnown p) (lvar : VariableRecord) :
    PlansKnown (planVariable analysis.ok selected currentEa runtimePc pcSeq p lvar) := by
  rcases planVariable_cases analysis.ok selected currentEa runtimePc pcSeq p lvar with
    ⟨_, _, reason, keep, heq⟩ | ⟨_, n, c, _, _, _, _, heq⟩ | ⟨hread, reason, register, hreg, hstack, heq⟩
  · rw [heq]
    exact h
  · rw [heq]
    exact h
  · rw [heq]
    have hregister : register ∈ fullRegisterOrder := by
      rcases (RecoveryEvidence.acceptsRead_iff _ _).mp hread with ⟨hk, spec, hspec, _⟩ | ⟨hk, _⟩
      · rw [hreg spec hk hspec]
        obtain ⟨e, he, hregister⟩ := chooseEvidence_register hspec
        exact hknown _ e spec (hp ▸ he) hregister
      · rw [hstack hk]
        decide
    refine ⟨h.1.insert, fun r hr => ?_⟩
    rcases List.mem_insert_iff.mp hr with rfl | hr
    · exact hregister
    · exact h.2 r hr

theorem planLoop_known
    (hknown : ∀ i e spec, analysis.evidenceByIndex.get? i = some e → e.register = some spec →
      spec.fullRegister ∈ fullRegisterOrder)
    (lvars : List VariableRecord) {p : PlanState} (hp : p.recovery.evidence = analysis.evidenceByIndex)
    (h : PlansKnown p) :
    PlansKnown (lvars.foldl (planVariable analysis.ok selected currentEa runtimePc pcSeq) p) := by
  induction lvars generalizing p with
  | nil => exact h
  | cons lvar lvars ih =>
    exact ih ((planVariable_frame analysis.ok selected currentEa runtimePc pcSeq p lvar).1.trans hp)
      (planVariable_known hknown hp h lvar)

theorem sortRegisters_known {p : PlanState} (h : PlansKnown p) (hne : sortRegisters p.neededRegisters ≠ []) :
    RequestRegisters (sortRegisters p.neededRegisters) := by
  have hperm := List.perm_insertionSort registerLe p.neededRegisters
  exact ⟨hne, hperm.symm.nodup h.1, fun register hr => h.2 register (hperm.mem_iff.mp hr)⟩

/-- The register request of a mapped PC. -/
theorem beginPc_request {s : VVariableRecovery} {provider : AnalysisProvider} (hprovider : provider.NamesRegisters)
    {lvars : List VariableRecord} {functionEa : Int} {selection : Option (List Int)} {request : Request}
    (h : (s.beginPc provider lvars functionEa currentEa runtimePc pcSeq selection).2 = some request) :
    ∃ registers, RequestRegisters registers ∧ request = ⟨.regRequest,
      [("pc_seq", .int pcSeq), ("request_id", .str (vRegRequestId pcSeq)), ("runtime_pc", .str runtimePc),
       ("registers", .arr (registers.map .str)), ("reason", .str "v_variable_recovery")]⟩ := by
  rw [beginPc_eq s provider lvars functionEa currentEa runtimePc pcSeq selection rfl] at h
  dsimp only at h
  split at h
  · cases h
  · rename_i hne
    refine ⟨_, sortRegisters_known ?_ hne, (Option.some.inj h).symm⟩
    refine planLoop_known ?_ _ rfl ⟨List.nodup_nil, by rintro _ ⟨⟩⟩
    rw [analyze]
    split
    · rename_i hanalysis
      exact hprovider _ _ _ _ hanalysis
    · intro i e spec he
      cases he

end registers

section memory

/-- The records of the planned reads have a width the engine reads. -/
structure ReadWidths (planned : List Int) (s : VVariableRecovery) : Prop where
  recordKey : ∀ i r, s.records.get? i = some r → r.lvarIndex = i
  supported : ∀ i ∈ planned, ∀ r, s.records.get? i = some r → r.width ∈ supportedWidths

variable {planned : List Int} {s s' : VVariableRecovery}

theorem readWidths_of_empty (hr : s.records = Dict.empty) : ReadWidths planned s := by
  constructor <;> simp [hr]

/-- Replacing a record by one of the same index and width. -/
theorem ReadWidths.store (h : ReadWidths planned s) {i : Int} {r : VVariableRecoveryRecord}
    (hr : s.records.get? i = some r) (r' : VVariableRecoveryRecord)
    (hrecords : s'.records = s.records.set r'.lvarIndex r')
    (hkey : r'.lvarIndex = r.lvarIndex) (hwidth : r'.width = r.width) : ReadWidths planned s' := by
  have hi := h.recordKey i r hr
  constructor
  · intro j q hq
    rw [hrecords, Dict.get?_set] at hq
    split at hq
    · cases hq
      exact (‹j = r'.lvarIndex›).symm
    · exact h.recordKey j q hq
  · intro j hj q hq
    rw [hrecords, Dict.get?_set] at hq
    split at hq
    · rename_i hindex
      cases hq
      rw [hwidth]
      refine h.supported j hj r ?_
      rw [hindex, hkey, hi]
      exact hr
    · exact h.supported j hj q hq

theorem Change.readWidths (h : Change s s') (hs : ReadWidths planned s) : ReadWidths planned s' := by
  cases h with
  | pending _ => exact ⟨hs.recordKey, hs.supported⟩
  | error i r reason hr => exact hs.store hr _ (store_records s _) rfl rfl
  | fresh i r n c hr => exact hs.store hr (r.setFresh (formatHex n) c) (markFresh_records s r _ c) rfl rfl
  | annotate i r storage reason hr => exact hs.store hr _ (store_records s _) rfl rfl

theorem Changes.readWidths (h : Changes s s') (hs : ReadWidths planned s) : ReadWidths planned s' := by
  induction h with
  | refl => exact hs
  | tail _ hstep ih => exact hstep.readWidths ih

/-- A new context's planned reads have supported widths. -/
theorem beginPc_readWidths (s : VVariableRecovery) (provider : AnalysisProvider) {lvars : List VariableRecord}
    (functionEa currentEa : Int) (runtimePc : String) (pcSeq : Int) (selection : Option (List Int))
    (hnodup : (lvars.map VariableRecord.lvarIndex).Nodup) :
    ReadWidths (plannedReads provider lvars functionEa currentEa selection)
      (s.beginPc provider lvars functionEa currentEa runtimePc pcSeq selection).1 := by
  have hi := beginPc_inv s provider lvars functionEa currentEa runtimePc pcSeq selection hnodup
  refine ⟨hi.recordKey, fun i hplanned r hr => ?_⟩
  let selected := selectedIndexes lvars selection
  let analysis := analyze provider functionEa currentEa lvars selected
  obtain ⟨lvar, hlvar, rfl⟩ := List.mem_map.mp hplanned
  obtain ⟨hlocal, hreads⟩ := List.mem_filter.mp hlvar
  obtain ⟨e, he, haccept⟩ := evidence_of_plansRead hreads
  have hok : analysis.ok = true ∧ lvar.lvarIndex ∈ selected := by
    rw [plansRead, Bool.and_eq_true, Bool.and_eq_true, decide_eq_true_eq] at hreads
    exact hreads.1
  have hlocals : ((localVariables lvars).map VariableRecord.lvarIndex).Nodup :=
    hnodup.sublist (List.filter_sublist.map _)
  obtain ⟨r', hplan⟩ := planLoop_planned selected currentEa runtimePc pcSeq hok.1 (localVariables lvars) hlocals
    (s.planningStart analysis lvars functionEa currentEa runtimePc pcSeq) rfl lvar hlocal e hok.2 he
  have hsame : r = r' := by
    have hrecord := hplan.record
    rw [beginPc_eq s provider lvars functionEa currentEa runtimePc pcSeq selection rfl] at hr
    dsimp only at hr
    split at hr
    · exact Option.some.inj (hr.symm.trans hrecord)
    · exact Option.some.inj (hr.symm.trans hrecord)
  rw [hsame, hplan.width]
  rcases (e.acceptsRead_iff lvar.size).mp haccept with ⟨_, _, _, hwidth, _⟩ | ⟨_, _, _, hwidth⟩
  · exact hwidth
  · exact hwidth

theorem step_readWidths (h : ReadWidths planned s) (op : Op) (hop : op.DistinctIndexes) :
    ReadWidths (plannedAfter planned op) (s.step op) := by
  cases op with
  | beginPc provider lvars functionEa currentEa runtimePc pcSeq selection =>
    exact beginPc_readWidths s provider functionEa currentEa runtimePc pcSeq selection hop
  | invalidatePc pcSeq runtimePc => exact readWidths_of_empty rfl
  | clearRuntimeState => exact readWidths_of_empty rfl
  | applyRegResponse payload => exact Changes.readWidths (changes_applyRegResponse s payload) h
  | applyMemResponse payload => exact Changes.readWidths (changes_applyMemResponse s payload) h

theorem run_readWidths (maxHistory : Int) (ops : List Op) (hops : ∀ op ∈ ops, op.DistinctIndexes) :
    ReadWidths (plannedBy ops) ((init maxHistory).run ops) := by
  have hrun : ∀ (ops : List Op) (planned : List Int) (s : VVariableRecovery), (∀ op ∈ ops, op.DistinctIndexes) →
      ReadWidths planned s → ReadWidths (ops.foldl plannedAfter planned) (s.run ops) := by
    intro ops
    induction ops with
    | nil => exact fun _ _ _ h => h
    | cons op ops ih =>
      intro planned s hops h
      obtain ⟨hop, hmore⟩ := List.forall_mem_cons.mp hops
      exact ih _ _ hmore (step_readWidths h op hop)
  exact hrun ops [] (init maxHistory) hops (readWidths_of_empty rfl)

/-- A memory request of the loop that answers a register request. -/
structure IsStackRead (pending : PendingVRequest) (request : Request) : Prop where
  shape : ∃ (i : Int) (address width : Nat) (name : String), address < 2 ^ 64 ∧ width ∈ supportedWidths ∧
    request = ⟨.memRequest, [("pc_seq", .int pending.pcSeq), ("request_id", .str (vMemRequestId pending.pcSeq i)),
      ("runtime_pc", .str pending.runtimePc), ("address", .str (formatHex address)), ("size", .int width),
      ("reason", .str "v_variable_stack"), ("variable", .str name), ("lvar_index", .int i)]⟩

theorem concreteStackAddress_ok {stackPointer : Json} {offset : Int} {text : String}
    (h : concreteStackAddress stackPointer offset = .ok text) : ∃ n : Nat, n < 2 ^ 64 ∧ text = formatHex n := by
  rw [concreteStackAddress] at h
  split at h
  · cases h
  · rename_i number _
    dsimp only at h
    split at h
    · cases h
    · rename_i hrange
      refine ⟨(number + offset).toNat, by omega, ?_⟩
      rw [← Except.ok.inj h, Int.toNat_of_nonneg (by omega)]

theorem waits_address {registers : Payload} {e : RecoveryEvidence} {r : VVariableRecoveryRecord} {address : String}
    (h : readOutcome registers e r = .waits address) : ∃ n : Nat, n < 2 ^ 64 ∧ address = formatHex n := by
  rw [readOutcome] at h
  split at h
  · split at h <;> cases h
  · split at h
    · cases h
    · rename_i haddress
      cases h
      exact concreteStackAddress_ok haddress
  · cases h

/-- One turn of the loop only adds such requests. -/
theorem applyRegisterIndex_requests (registers : Payload) (pending : PendingVRequest)
    (acc : VVariableRecovery × List Request) (i : Int) (hi : i ∈ planned) (hs : ReadWidths planned acc.1)
    (hout : ∀ request ∈ acc.2, IsStackRead pending request) :
    ∀ request ∈ (applyRegisterIndex registers pending acc i).2, IsStackRead pending request := by
  cases hr : acc.1.records.get? i with
  | none =>
    rw [applyRegisterIndex]
    simp only [hr]
    exact hout
  | some r =>
    cases he : acc.1.evidence.get? i with
    | none =>
      rw [applyRegisterIndex]
      simp only [hr, he]
      exact hout
    | some e =>
      rw [applyRegisterIndex_eq registers pending acc hr he]
      cases hread : readOutcome registers e r with
      | fresh value => exact hout
      | failed reason => exact hout
      | ignored => exact hout
      | waits address =>
        intro request hrequest
        rcases List.mem_append.mp hrequest with hrequest | hrequest
        · exact hout request hrequest
        · obtain ⟨n, hn, rfl⟩ := waits_address hread
          rw [List.mem_singleton.mp hrequest]
          exact ⟨i, n, r.width, r.name, hn, hs.supported i hi r hr, rfl⟩

theorem registerLoop_requests_reads (registers : Payload) (pending : PendingVRequest) (indexes : List Int)
    (acc : VVariableRecovery × List Request) (hindexes : ∀ i ∈ indexes, i ∈ planned) (hs : ReadWidths planned acc.1)
    (hout : ∀ request ∈ acc.2, IsStackRead pending request) :
    ∀ request ∈ (indexes.foldl (applyRegisterIndex registers pending) acc).2, IsStackRead pending request := by
  induction indexes generalizing acc with
  | nil => exact hout
  | cons i indexes ih =>
    obtain ⟨hi, hmore⟩ := List.forall_mem_cons.mp hindexes
    exact ih _ hmore (Changes.readWidths (changes_register acc.1 i registers pending acc.2) hs)
      (applyRegisterIndex_requests registers pending acc i hi hs hout)

/-- The memory requests of every reachable state. -/
theorem applyRegResponse_requests (maxHistory : Int) (ops : List Op) (hops : ∀ op ∈ ops, op.DistinctIndexes)
    (payload : Payload) {request : Request}
    (h : request ∈ (((init maxHistory).run ops).applyRegResponse payload).memRequests) :
    ∃ pending, IsStackRead pending request := by
  have hi := run_inv maxHistory ops hops
  have hs := run_readWidths maxHistory ops hops
  generalize (init maxHistory).run ops = s at h hi hs
  rw [applyRegResponse] at h
  split at h
  · cases h
  · rename_i pending s' htake
    obtain ⟨hflying, -, -, -⟩ := takePending_inv hi htake
    split at h
    · cases h
    · split at h
      · cases h
      · rename_i registers _
        exact ⟨pending, registerLoop_requests_reads registers pending pending.lvarIndexes (s', []) hflying.flying
          (Changes.readWidths (changes_take htake) hs) (by rintro _ ⟨⟩) request h⟩

end memory

end VVariableRecovery
end DynvarSync.Ida
