import DynvarSync.Ida.VRecoveryInvariant

/-! Runs of the local recovery engine: contexts, responses of any content, and
what holds in every state they can reach. -/
namespace DynvarSync.Ida.VVariableRecovery
open Lib PyText

section planning
variable {analysis : RecoveryAnalysis} {selected : List Int} {currentEa : Int} {runtimePc : String} {pcSeq : Int}

/-- What the planning loop has established after the variables `done`. -/
structure PlanInv (analysis : RecoveryAnalysis) (selected : List Int) (runtimePc : String) (pcSeq : Int)
    (done : List VariableRecord) (p : PlanState) : Prop where
  inv : Inv (readIndexes analysis selected done) p.runtimeIndexes p.recovery
  indexes : p.runtimeIndexes = readIndexes analysis selected done
  pending : p.recovery.pending = Dict.empty
  evidence : p.recovery.evidence = analysis.evidenceByIndex
  pcSeq : p.recovery.pcSeq = some pcSeq
  runtimePc : p.recovery.runtimePc = runtimePc
  registers : p.neededRegisters = [] → p.runtimeIndexes = []

/-- The evidence chosen for a variable accepts a read exactly when the analysis plans one. -/
theorem chooseEvidence_acceptsRead (selected : List Int) (s : VVariableRecovery) (lvar : VariableRecord)
    (he : s.evidence = analysis.evidenceByIndex) :
    (s.chooseEvidence analysis.ok selected lvar.lvarIndex).acceptsRead lvar.size =
      plansRead analysis selected lvar := by
  unfold chooseEvidence plansRead
  rw [he]
  cases analysis.ok with
  | false => rfl
  | true =>
    by_cases hs : lvar.lvarIndex ∈ selected
    · cases analysis.evidenceByIndex.get? lvar.lvarIndex <;> simp [hs, RecoveryEvidence.acceptsRead]
    · simp [hs, RecoveryEvidence.acceptsRead]

/-- A planned read has its evidence in the table. -/
theorem evidence_of_plansRead {lvar : VariableRecord} (h : plansRead analysis selected lvar = true) :
    ∃ e, analysis.evidenceByIndex.get? lvar.lvarIndex = some e ∧ e.acceptsRead lvar.size = true := by
  unfold plansRead at h
  cases he : analysis.evidenceByIndex.get? lvar.lvarIndex with
  | none => simp [he] at h
  | some e =>
    simp only [he, Bool.and_eq_true] at h
    exact ⟨e, rfl, h.2⟩

theorem readIndexes_append (analysis : RecoveryAnalysis) (selected : List Int) (done : List VariableRecord)
    (lvar : VariableRecord) :
    readIndexes analysis selected (done ++ [lvar]) = readIndexes analysis selected done ++
      if plansRead analysis selected lvar then [lvar.lvarIndex] else [] := by
  unfold readIndexes
  cases h : plansRead analysis selected lvar <;> simp [h]

theorem readIndexes_subset (done : List VariableRecord) :
    ∀ i ∈ readIndexes analysis selected done, i ∈ done.map VariableRecord.lvarIndex := by
  intro i hi
  obtain ⟨lvar, hl, rfl⟩ := List.mem_map.mp hi
  exact List.mem_map_of_mem (List.mem_of_mem_filter hl)

/-- A variable's new record belongs to the context it was planned in. -/
theorem touches_newRecord {s : VVariableRecovery} {lvar : VariableRecord} {e : RecoveryEvidence}
    (hpc : s.pcSeq = some pcSeq) (hrt : s.runtimePc = runtimePc) {r : VVariableRecoveryRecord}
    (hsame : (s.newRecord lvar e pcSeq runtimePc currentEa).SameIdentity r) (hd : r.Displays) :
    Touches s (s.store r) lvar.lvarIndex r := by
  obtain ⟨hidx, _, _, _, _, hrpc, hseq, _⟩ := hsame
  have ht := touches_store s (r := r) ⟨hpc.trans (congrArg some hseq.symm), hrpc.trans hrt.symm⟩ hd
  rw [show r.lvarIndex = lvar.lvarIndex from hidx] at ht
  exact ht

/-- One variable more. -/
theorem planVariable_inv {done : List VariableRecord} {p : PlanState} (lvar : VariableRecord)
    (hp : PlanInv analysis selected runtimePc pcSeq done p)
    (hnew : lvar.lvarIndex ∉ done.map VariableRecord.lvarIndex) :
    PlanInv analysis selected runtimePc pcSeq (done ++ [lvar])
      (planVariable analysis.ok selected currentEa runtimePc pcSeq p lvar) := by
  let record := p.recovery.newRecord lvar
    (p.recovery.chooseEvidence analysis.ok selected lvar.lvarIndex) pcSeq runtimePc currentEa
  have hn : lvar.lvarIndex ∉ readIndexes analysis selected done := fun h => hnew (readIndexes_subset done _ h)
  have haccept := chooseEvidence_acceptsRead selected p.recovery lvar hp.evidence
  have happend := readIndexes_append analysis selected done lvar
  rcases planVariable_cases analysis.ok selected currentEa runtimePc pcSeq p lvar with
    ⟨hread, _, reason, keep, heq⟩ | ⟨hread, n, c, hk, hc, hw, hnat, heq⟩ | ⟨hread, reason, register, _, _, heq⟩
  · rw [haccept] at hread
    rw [hread, if_neg Bool.false_ne_true, List.append_nil] at happend
    have ht := touches_newRecord hp.pcSeq hp.runtimePc (record.setUnavailable_same reason keep)
      (record.setUnavailable_displays reason keep)
    rw [heq]
    exact ⟨happend ▸ inv_skip hp.inv ht rfl hn, happend ▸ hp.indexes, hp.pending, hp.evidence, hp.pcSeq,
      hp.runtimePc, hp.registers⟩
  · rw [haccept] at hread
    rw [hread, if_neg Bool.false_ne_true, List.append_nil] at happend
    have ht : Touches p.recovery _ lvar.lvarIndex _ := touches_markFresh p.recovery (r := record) n
      (p.recovery.chooseEvidence analysis.ok selected lvar.lvarIndex).confidence ⟨hp.pcSeq, hp.runtimePc.symm⟩
    rw [heq]
    exact ⟨happend ▸ inv_skip hp.inv ht (by simp) hn, happend ▸ hp.indexes, by simp [hp.pending],
      by simp [hp.evidence], by simp [hp.pcSeq], by simp [hp.runtimePc], hp.registers⟩
  · rw [haccept] at hread
    rw [hread, if_pos rfl] at happend
    have ht := touches_newRecord hp.pcSeq hp.runtimePc (record.setWaiting_same reason)
      (record.setWaiting_displays reason)
    obtain ⟨e, he, haccepts⟩ := evidence_of_plansRead hread
    rw [heq]
    refine ⟨?_, ?_, hp.pending, hp.evidence, hp.pcSeq, hp.runtimePc, fun h => ?_⟩
    · rw [happend]
      exact inv_plan hp.inv ht rfl (record.setWaiting_unsettled reason) hn
        ⟨e, hp.evidence ▸ he, RecoveryEvidence.readable_of_acceptsRead haccepts⟩
    · rw [happend, hp.indexes]
    · exact absurd (List.mem_insert_self) (h ▸ List.not_mem_nil)

/-- All variables. -/
theorem planLoop_inv (currentEa : Int) (lvars : List VariableRecord) {done : List VariableRecord} {p : PlanState}
    (hp : PlanInv analysis selected runtimePc pcSeq done p)
    (hnodup : ((done ++ lvars).map VariableRecord.lvarIndex).Nodup) :
    PlanInv analysis selected runtimePc pcSeq (done ++ lvars)
      (lvars.foldl (planVariable analysis.ok selected currentEa runtimePc pcSeq) p) := by
  induction lvars generalizing done p with
  | nil => rwa [List.append_nil]
  | cons lvar lvars ih =>
    have hnew : lvar.lvarIndex ∉ done.map VariableRecord.lvarIndex := by
      rw [List.map_append, List.map_cons, List.nodup_append] at hnodup
      exact fun h => hnodup.2.2 _ h _ (List.mem_cons_self ..) rfl
    rw [List.append_cons] at hnodup ⊢
    exact ih (planVariable_inv lvar hp hnew) hnodup

end planning

/-- The memory read of a register request that is about to be registered. -/
theorem inv_request {planned : List Int} {s : VVariableRecovery} {p : PendingVRequest}
    (hi : Inv planned planned s) (hempty : s.pending = Dict.empty) (hkind : p.kind = .reg)
    (hpc : s.pcSeq = some p.pcSeq) (hrt : p.runtimePc = s.runtimePc)
    (hid : p.requestId = vRegRequestId p.pcSeq) (hidx : p.lvarIndexes = planned) :
    Inv planned [] { s with pending := s.pending.set (vRegRequestId p.pcSeq) p } := by
  have hget : ∀ id q, (s.pending.set (vRegRequestId p.pcSeq) p).get? id = some q →
      id = vRegRequestId p.pcSeq ∧ q = p := by
    intro id q hq
    rw [Dict.get?_set, hempty] at hq
    split at hq
    · exact ⟨‹_›, (Option.some.inj hq).symm⟩
    · simp at hq
  refine ⟨hi.recordKey, hi.recordPc, hi.displays, hi.readable, ?_, ?_, ?_, by simp, .nil⟩
  · intro id q hq
    obtain ⟨rfl, rfl⟩ := hget id q hq
    exact ⟨hid, hpc, hrt, fun i hq => ⟨hidx ▸ hq, by simp⟩, hidx ▸ hi.flyingNodup, fun _ => rfl,
      fun h => absurd (hkind.symm.trans h) (by decide)⟩
  · intro id id' q q' j hq hq' _ _
    rw [(hget id q hq).1, (hget id' q' hq').1]
  · intro j hj r hr
    refine iff_of_true ((hi.waiting j hj r hr).mpr (.inl hj)) (.inr ⟨_, p, Dict.get?_set_self .., ?_⟩)
    rwa [hidx]

theorem sortRegisters_eq_nil {registers : List String} (h : sortRegisters registers = []) : registers = [] := by
  have hp := List.perm_insertionSort registerLe registers
  rw [show List.insertionSort registerLe registers = [] from h] at hp
  exact hp.symm.eq_nil

/-- The runtime reads `begin_pc` plans. -/
def plannedReads (provider : AnalysisProvider) (lvars : List VariableRecord) (functionEa currentEa : Int)
    (analysisLvarIndexes : Option (List Int)) : List Int :=
  let selected := selectedIndexes lvars analysisLvarIndexes
  readIndexes (analyze provider functionEa currentEa lvars selected) selected (localVariables lvars)

/-- The loop's state before the first variable. -/
def planningStart (s : VVariableRecovery) (analysis : RecoveryAnalysis) (lvars : List VariableRecord)
    (functionEa currentEa : Int) (runtimePc : String) (pcSeq : Int) : PlanState :=
  { recovery := { s.startContext functionEa currentEa runtimePc pcSeq with
      sourceVariables := localVariables lvars, evidence := analysis.evidenceByIndex } }

/-- The register request a plan opens its context with. -/
def openingRequest (p : PlanState) (pcSeq : Int) (runtimePc : String) : PendingVRequest :=
  { kind := .reg, pcSeq := pcSeq, requestId := vRegRequestId pcSeq, runtimePc := runtimePc
    lvarIndexes := p.runtimeIndexes, registers := sortRegisters p.neededRegisters }

/-- The message of a registered register request. -/
def regRequest (pending : PendingVRequest) : Request :=
  { type := .regRequest, payload :=
      [("pc_seq", .int pending.pcSeq), ("request_id", .str (vRegRequestId pending.pcSeq)),
       ("runtime_pc", .str pending.runtimePc), ("registers", .arr (pending.registers.map .str)),
       ("reason", .str "v_variable_recovery")] }

section begin
variable (s : VVariableRecovery) (provider : AnalysisProvider) (lvars : List VariableRecord)
  (functionEa currentEa : Int) (runtimePc : String) (pcSeq : Int) (selection : Option (List Int))

/-- `begin_pc` is its planning loop followed by the opening request. -/
theorem beginPc_eq {analysis : RecoveryAnalysis}
    (ha : analyze provider functionEa currentEa lvars (selectedIndexes lvars selection) = analysis) :
    s.beginPc provider lvars functionEa currentEa runtimePc pcSeq selection =
      let p := (localVariables lvars).foldl
        (planVariable analysis.ok (selectedIndexes lvars selection) currentEa runtimePc pcSeq)
        (s.planningStart analysis lvars functionEa currentEa runtimePc pcSeq)
      let pending := openingRequest p pcSeq runtimePc
      if pending.registers = [] then (p.recovery, none)
      else ({ p.recovery with pending := p.recovery.pending.set (vRegRequestId pcSeq) pending },
        some (regRequest pending)) := by
  subst ha
  rfl

theorem beginLoop_inv (analysis : RecoveryAnalysis) (selected : List Int)
    (hnodup : (lvars.map VariableRecord.lvarIndex).Nodup) :
    PlanInv analysis selected runtimePc pcSeq (localVariables lvars) ((localVariables lvars).foldl
      (planVariable analysis.ok selected currentEa runtimePc pcSeq)
      (s.planningStart analysis lvars functionEa currentEa runtimePc pcSeq)) := by
  have hlocal : ((localVariables lvars).map VariableRecord.lvarIndex).Nodup :=
    hnodup.sublist (List.filter_sublist.map _)
  have hstart : PlanInv analysis selected runtimePc pcSeq []
      (s.planningStart analysis lvars functionEa currentEa runtimePc pcSeq) :=
    ⟨inv_of_empty rfl rfl, rfl, rfl, rfl, rfl, rfl, fun _ => rfl⟩
  have hplan := planLoop_inv currentEa (localVariables lvars) hstart hlocal
  rwa [List.nil_append] at hplan

/-- A new context satisfies the invariant whatever the previous one was. -/
theorem beginPc_inv (hnodup : (lvars.map VariableRecord.lvarIndex).Nodup) :
    Inv (plannedReads provider lvars functionEa currentEa selection) []
      (s.beginPc provider lvars functionEa currentEa runtimePc pcSeq selection).1 := by
  have hplan := beginLoop_inv s lvars functionEa currentEa runtimePc pcSeq
    (analyze provider functionEa currentEa lvars (selectedIndexes lvars selection))
    (selectedIndexes lvars selection) hnodup
  rw [beginPc_eq s provider lvars functionEa currentEa runtimePc pcSeq selection rfl, plannedReads]
  dsimp only at hplan ⊢
  generalize (localVariables lvars).foldl _ _ = p at hplan ⊢
  have hi := hplan.inv
  split
  · rename_i hnone
    have hnil := hplan.registers (sortRegisters_eq_nil hnone)
    rw [← hplan.indexes, hnil] at hi ⊢
    exact hi
  · rw [hplan.indexes] at hi
    exact inv_request (p := openingRequest p pcSeq runtimePc) hi hplan.pending rfl hplan.pcSeq hplan.runtimePc.symm
      rfl hplan.indexes

end begin

section responses
variable {planned : List Int} {s s' : VVariableRecovery} {payload : Payload} {p : PendingVRequest}

/-- The request a response takes from the table is in flight. -/
theorem takePending_inv (hi : Inv planned [] s) {kind : RequestKind}
    (h : s.takePending payload kind = .ok (p, s')) :
    Inv planned p.lvarIndexes s' ∧ PendingOk planned [] s p.requestId p ∧ p.kind = kind ∧
      s' = { s with pending := s.pending.pop p.requestId } := by
  obtain ⟨current, requestId, _, _, _, _, hp, hkind, rfl⟩ := takePending_ok h
  have hok := hi.pending requestId p hp
  obtain rfl := hok.key
  have hget : ∀ id q, (s.pending.pop p.requestId).get? id = some q → id ≠ p.requestId ∧ s.pending.get? id = some q := by
    intro id q hq
    rw [Dict.get?_pop] at hq
    split at hq
    · cases hq
    · exact ⟨‹_›, hq⟩
  refine ⟨⟨hi.recordKey, hi.recordPc, hi.displays, hi.readable, ?_, ?_, ?_,
    fun i hip => (hok.owned i hip).1, hok.nodup⟩, hok, hkind, rfl⟩
  · intro id q hq
    obtain ⟨hne, hq⟩ := hget id q hq
    have hqok := hi.pending id q hq
    refine hqok.transfer ?_ ?_ fun i hiq =>
      ⟨(hqok.owned i hiq).1, fun hip => hne (hi.unique id _ q p i hq hp hiq hip)⟩ <;> rfl
  · intro id id' q q' i hq hq' hiq hiq'
    exact hi.unique id id' q q' i (hget id q hq).2 (hget id' q' hq').2 hiq hiq'
  · intro i hip r hr
    rw [hi.waiting i hip r hr]
    constructor
    · rintro (h | ⟨id, q, hq, hiq⟩)
      · cases h
      · by_cases hid : id = p.requestId
        · subst hid
          rw [hp] at hq
          cases hq
          exact .inl hiq
        · exact .inr ⟨id, q, (Dict.get?_pop_ne _ hid).trans hq, hiq⟩
    · rintro (h | ⟨id, q, hq, hiq⟩)
      · exact .inr ⟨_, p, hp, h⟩
      · exact .inr ⟨id, q, (hget id q hq).2, hiq⟩

/-- The invariant reads the pending table as a map. -/
theorem inv_congr (hi : Inv planned [] s) {pending : Dict String PendingVRequest}
    (hsame : pending.Same s.pending) : Inv planned [] { s with pending := pending } := by
  refine ⟨hi.recordKey, hi.recordPc, hi.displays, hi.readable, fun id q hq => ?_, ?_, ?_,
    hi.flying, hi.flyingNodup⟩
  · have hok := hi.pending id q (hsame id ▸ hq)
    refine hok.transfer ?_ ?_ hok.owned <;> rfl
  · simpa only [hsame _] using hi.unique
  · simpa only [hsame _] using hi.waiting

theorem turn_markReadError {indexes : List Int} (hi : Inv planned indexes s) (reason : String) :
    Turn planned [] s (s.markReadError indexes reason) := by
  refine turn_foldl id _ (fun _ => True) (fun _ _ _ _ _ => trivial) (fun t i rest _ ht => ?_) indexes s trivial hi
  obtain ⟨r, hr, hturn⟩ := turn_error (s := t) ht reason
  simp only [id, hr]
  exact hturn

/-- A popped table entry, read back by its loop, is one whole turn. -/
private theorem turn_of_take (h : s' = { s with pending := s.pending.pop p.requestId }) {t : VVariableRecovery}
    (hturn : Turn planned [] s' t) : Turn planned [] s t := by
  subst h
  exact ⟨hturn.inv, hturn.settles, hturn.pcSeq, hturn.runtimePc⟩

theorem turn_refl (hi : Inv planned [] s) : Turn planned [] s s := ⟨hi, fun _ _ h _ => h, rfl, rfl⟩

/-- A register response of any content keeps the invariant and every settled record. -/
theorem applyRegResponse_turn (hi : Inv planned [] s) (payload : Payload) :
    Turn planned [] s (s.applyRegResponse payload).recovery := by
  unfold applyRegResponse
  cases htake : s.takePending payload .reg with
  | error reason => exact turn_refl hi
  | ok taken =>
    obtain ⟨p, s'⟩ := taken
    obtain ⟨hi', hok, _, hs'⟩ := takePending_inv hi htake
    apply turn_of_take hs'
    have hpc : s'.pcSeq = some p.pcSeq := by rw [hs']; exact hok.pcSeq
    have hrt : p.runtimePc = s'.runtimePc := by rw [hs']; exact hok.runtimePc
    dsimp only
    split
    · exact turn_markReadError hi' _
    · split
      · exact turn_markReadError hi' _
      · rename_i registers _
        exact turn_foldl Prod.fst _ (fun t => t.pcSeq = some p.pcSeq ∧ p.runtimePc = t.runtimePc)
          (fun t t' h hseq hpc => ⟨hseq.trans h.1, h.2.trans hpc.symm⟩)
          (fun a i rest hg ht => turn_register registers a.2 hg.1 hg.2 ht) p.lvarIndexes (s', []) ⟨hpc, hrt⟩ hi'

/-- A memory response of any content does so too. -/
theorem applyMemResponse_turn (hi : Inv planned [] s) (payload : Payload) :
    Turn planned [] s (s.applyMemResponse payload).recovery := by
  unfold applyMemResponse
  cases htake : s.takePending payload .mem with
  | error reason => exact turn_refl hi
  | ok taken =>
    obtain ⟨p, s'⟩ := taken
    obtain ⟨_, requestId, _, _, _, _, hp, _, hs⟩ := takePending_ok htake
    obtain ⟨hi', hok, _, hs'⟩ := takePending_inv hi htake
    have hback : Turn planned [] s { s' with pending := s'.pending.set p.requestId p } := by
      rw [hs']
      rw [(hi.pending requestId p hp).key]
      exact ⟨inv_congr hi (Dict.same_set_pop _ hp), fun _ _ h _ => h, rfl, rfl⟩
    dsimp only
    split
    · exact hback
    · split
      · exact hback
      · apply turn_of_take hs'
        exact turn_foldl id _ (fun _ => True) (fun _ _ _ _ _ => trivial)
          (fun t i rest _ ht => turn_memory payload p ht) p.lvarIndexes s' trivial hi'

end responses

/-- `begin_pc` is called with an enumeration whose indexes are distinct. -/
def Op.DistinctIndexes : Op → Prop
  | .beginPc _ lvars _ _ _ _ _ => (lvars.map VariableRecord.lvarIndex).Nodup
  | _ => True

def Op.IsResponse : Op → Prop
  | .applyRegResponse _ | .applyMemResponse _ => True
  | _ => False

/-- The runtime reads planned for the current context. -/
def plannedAfter (planned : List Int) : Op → List Int
  | .beginPc provider lvars functionEa currentEa _ _ selection =>
    plannedReads provider lvars functionEa currentEa selection
  | .invalidatePc _ _ | .clearRuntimeState => []
  | .applyRegResponse _ | .applyMemResponse _ => planned

def plannedBy (ops : List Op) : List Int := ops.foldl plannedAfter []

/-- What a displayed context promises: every request and record belongs to it,
statuses agree with the values shown, and the unsettled planned reads are the
pending ones. -/
structure Coherent (planned : List Int) (s : VVariableRecovery) : Prop where
  requestContext : ∀ id p, s.pending.get? id = some p → s.pcSeq = some p.pcSeq ∧ p.runtimePc = s.runtimePc
  recordContext : ∀ i r, s.records.get? i = some r →
    s.pcSeq = some r.currentPcSeq ∧ r.currentRuntimePc = s.runtimePc
  noContext : s.pcSeq = none → (∀ id, s.pending.get? id = none) ∧ ∀ i, s.records.get? i = none
  fresh : ∀ i r, s.records.get? i = some r → r.recoveryStatus = .fresh →
    r.value = r.lastSuccessfulValue ∧ r.value ≠ "" ∧ r.lastSuccessfulPcSeq = s.pcSeq ∧ r.lastUpdatePc = s.runtimePc
  stale : ∀ i r, s.records.get? i = some r → r.recoveryStatus = .stale →
    r.value = r.lastSuccessfulValue ∧ r.value ≠ ""
  blank : ∀ i r, s.records.get? i = some r → r.recoveryStatus = .unavailable ∨ r.recoveryStatus = .error →
    r.value = ""
  unique : ∀ id id' p p' i, s.pending.get? id = some p → s.pending.get? id' = some p' →
    i ∈ p.lvarIndexes → i ∈ p'.lvarIndexes → id = id'
  onlyPlanned : ∀ id p i, s.pending.get? id = some p → i ∈ p.lvarIndexes → i ∈ planned
  waiting : ∀ i r, s.records.get? i = some r → i ∈ planned →
    ((r.recoveryStatus ≠ .fresh ∧ r.recoveryStatus ≠ .error) ↔
      ∃ id p, s.pending.get? id = some p ∧ i ∈ p.lvarIndexes)

theorem Inv.coherent {planned : List Int} {s : VVariableRecovery} (hi : Inv planned [] s) : Coherent planned s := by
  refine ⟨fun id p hp => ⟨(hi.pending id p hp).pcSeq, (hi.pending id p hp).runtimePc⟩, hi.recordPc,
    fun hnone => ⟨?_, ?_⟩,
    fun i r hr hf => ?_, fun i r hr hf => (hi.displays i r hr).stale hf, fun i r hr hf => ?_, hi.unique,
    fun id p i hp hip => ((hi.pending id p hp).owned i hip).1, fun i r hr hip => ?_⟩
  · intro id
    cases hp : s.pending.get? id with
    | none => rfl
    | some p => exact absurd (hnone.symm.trans (hi.pending id p hp).pcSeq) (by simp)
  · intro i
    cases hr : s.records.get? i with
    | none => rfl
    | some r => exact absurd (hnone.symm.trans (hi.recordPc i r hr).1) (by simp)
  · obtain ⟨hv, hne, hseq, hpc⟩ := (hi.displays i r hr).fresh hf
    obtain ⟨hs, hrt⟩ := hi.recordPc i r hr
    exact ⟨hv, hne, hseq.trans hs.symm, hpc.trans hrt⟩
  · exact hf.elim (hi.displays i r hr).unavailable (hi.displays i r hr).error
  · have hw := hi.waiting i hip r hr
    simp only [List.not_mem_nil, false_or] at hw
    exact hw

theorem step_inv {planned : List Int} {s : VVariableRecovery} (hi : Inv planned [] s) (op : Op)
    (hop : op.DistinctIndexes) : Inv (plannedAfter planned op) [] (s.step op) := by
  cases op with
  | beginPc provider lvars functionEa currentEa runtimePc pcSeq selection =>
    exact beginPc_inv s provider lvars functionEa currentEa runtimePc pcSeq selection hop
  | invalidatePc pcSeq runtimePc => exact inv_of_empty rfl rfl
  | clearRuntimeState => exact inv_of_empty rfl rfl
  | applyRegResponse payload => exact (applyRegResponse_turn hi payload).inv
  | applyMemResponse payload => exact (applyMemResponse_turn hi payload).inv

theorem run_inv_from {planned : List Int} {s : VVariableRecovery} (hi : Inv planned [] s) (ops : List Op)
    (hops : ∀ op ∈ ops, op.DistinctIndexes) : Inv (ops.foldl plannedAfter planned) [] (s.run ops) := by
  induction ops generalizing planned s with
  | nil => exact hi
  | cons op ops ih =>
    exact ih (step_inv hi op (hops op (List.mem_cons_self ..))) fun o ho => hops o (List.mem_cons_of_mem op ho)

/-- The invariant of every reachable state. -/
theorem run_inv (maxHistory : Int) (ops : List Op) (hops : ∀ op ∈ ops, op.DistinctIndexes) :
    Inv (plannedBy ops) [] ((init maxHistory).run ops) :=
  run_inv_from (init_inv maxHistory) ops hops

/-- Responses never touch a settled record. -/
theorem run_settles {planned : List Int} {s : VVariableRecovery} (hi : Inv planned [] s) (responses : List Op)
    (hresp : ∀ op ∈ responses, op.IsResponse) : Settles s (s.run responses) := by
  induction responses generalizing s with
  | nil => exact fun _ _ h _ => h
  | cons op ops ih =>
    have hturn : Turn planned [] s (s.step op) := by
      cases op with
      | applyRegResponse payload => exact applyRegResponse_turn hi payload
      | applyMemResponse payload => exact applyMemResponse_turn hi payload
      | _ => exact absurd (hresp _ (List.mem_cons_self ..)) id
    intro i r hr hs
    exact ih hturn.inv (fun o ho => hresp o (List.mem_cons_of_mem op ho)) i r (hturn.settles i r hr hs) hs

/-- Every reachable state is coherent, and within one context a fresh or failed
record is final. -/
theorem reachable_coherent (maxHistory : Int) (ops responses : List Op) (hops : ∀ op ∈ ops, op.DistinctIndexes)
    (hresp : ∀ op ∈ responses, op.IsResponse) :
    Coherent (plannedBy ops) ((init maxHistory).run ops) ∧
      ∀ i r, ((init maxHistory).run ops).records.get? i = some r →
        (r.recoveryStatus = .fresh ∨ r.recoveryStatus = .error) →
        ((init maxHistory).run (ops ++ responses)).records.get? i = some r := by
  have hi := run_inv maxHistory ops hops
  refine ⟨hi.coherent, fun i r hr hs => ?_⟩
  rw [run, List.foldl_append]
  refine run_settles hi responses hresp i r hr fun hu => ?_
  exact hs.elim hu.1 hu.2

/-- A local `v4` kept in `rbx`, used by the examples. -/
def rbxLvar : VariableRecord := { lvarIndex := 4, name := "v4", size := 4, isArg := false, argIndex := none }

def rbxProvider : AnalysisProvider := fun _ _ _ => .ok
  { ok := true
    evidenceByIndex := Dict.empty.set 4
      { lvarIndex := 4, storageKind := .register
        register := some { fullRegister := "rbx", width := 8, bitOffset := 0 } } }

def rbxContext (pcSeq : Int) : Op := .beginPc rbxProvider [rbxLvar] 4198400 4198416 "0x401010" pcSeq none

def rbxResponse (pcSeq : Int) : Payload :=
  [("pc_seq", .int pcSeq), ("request_id", .str (vRegRequestId pcSeq)), ("ok", .bool true),
   ("registers", .obj [("rbx", .str "0x1200000034")])]

theorem reachable_coherent_rbx :
    Coherent (plannedBy [rbxContext 1]) ((init 256).run [rbxContext 1]) ∧
      ∀ i r, ((init 256).run [rbxContext 1]).records.get? i = some r →
        (r.recoveryStatus = .fresh ∨ r.recoveryStatus = .error) →
        ((init 256).run ([rbxContext 1] ++ [.applyRegResponse (rbxResponse 1)])).records.get? i = some r :=
  reachable_coherent 256 [rbxContext 1] [.applyRegResponse (rbxResponse 1)]
    (by simp [rbxContext, Op.DistinctIndexes]) (by simp [Op.IsResponse])

end DynvarSync.Ida.VVariableRecovery
