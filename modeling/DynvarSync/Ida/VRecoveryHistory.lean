import DynvarSync.Ida.VRecoveryRuns

/-! Where stale values come from: the bounded history against the ghost list of
every observation of the run. -/
namespace DynvarSync.Ida
open Lib PyText

def Observation.key (o : Observation) : Int × Int := (o.functionEa, o.lvarIndex)

/-- The observation was made of this value under this variable's identity. -/
structure Observation.Shows (o : Observation) (lvar : VariableRecord) (value : String) : Prop where
  value : o.value = value
  name : o.name = lvar.name
  width : o.width = lvar.size
  typeString : o.typeString = lvar.typeString
  lvarDefea : o.lvarDefea = lvar.lvarDefea

namespace VVariableRecovery

/-- The most recent observation of a key in the whole run. -/
def lastObservation (s : VVariableRecovery) (key : Int × Int) : Option Observation :=
  s.observations.find? fun o => o.key = key

/-- What one turn of a response loop does to the state. -/
inductive Change : VVariableRecovery → VVariableRecovery → Prop
  | pending (s : VVariableRecovery) (pending : Dict String PendingVRequest) : Change s { s with pending }
  | error (s : VVariableRecovery) (i : Int) (r : VVariableRecoveryRecord) (reason : String)
      (hr : s.records.get? i = some r) : Change s (s.store (r.setError reason))
  | fresh (s : VVariableRecovery) (i : Int) (r : VVariableRecoveryRecord) (n : Nat) (c : Confidence)
      (hr : s.records.get? i = some r) : Change s (s.markFresh r (formatHex n) c)
  | annotate (s : VVariableRecovery) (i : Int) (r : VVariableRecoveryRecord) (storage reason : String)
      (hr : s.records.get? i = some r) : Change s (s.store (r.annotate storage reason))

abbrev Changes := Relation.ReflTransGen Change

theorem changes_foldl {σ : Type} (proj : σ → VVariableRecovery) (f : σ → Int → σ)
    (hturn : ∀ a i, Changes (proj a) (proj (f a i))) (indexes : List Int) (a : σ) :
    Changes (proj a) (proj (indexes.foldl f a)) := by
  induction indexes generalizing a with
  | nil => exact .refl
  | cons i rest ih => exact (hturn a i).trans (ih (f a i))

theorem changes_register (s : VVariableRecovery) (i : Int) (registers : Payload) (pending : PendingVRequest)
    (out : List Request) : Changes s (applyRegisterIndex registers pending (s, out) i).1 := by
  rcases applyRegisterIndex_cases s i registers pending out with
    ⟨heq, _⟩ | ⟨r, hr, ⟨reason, heq⟩ | ⟨n, heq⟩ | ⟨address, heq⟩⟩
  · rw [heq]
  · rw [heq]
    exact .single (.error s i r reason hr)
  · rw [heq]
    exact .single (.fresh s i r n _ hr)
  · rw [heq]
    exact .tail (.single (.annotate s i r _ _ hr)) (.pending _ _)

theorem changes_memory (s : VVariableRecovery) (i : Int) (payload : Payload) (pending : PendingVRequest) :
    Changes s (applyMemoryIndex payload pending s i) := by
  cases hr : s.records.get? i with
  | none =>
    unfold applyMemoryIndex
    simp only [hr]
    exact .refl
  | some r =>
    rcases applyMemoryIndex_cases payload pending hr with ⟨reason, heq⟩ | ⟨n, storage, reason, heq⟩
    · rw [heq]
      exact .single (.error s i r reason hr)
    · rw [heq]
      refine .tail (.single (.fresh s i r n .exactStackLocation hr)) (.annotate _ r.lvarIndex _ storage reason ?_)
      rw [markFresh_records, Dict.get?_set_self]

theorem changes_markReadError (s : VVariableRecovery) (indexes : List Int) (reason : String) :
    Changes s (s.markReadError indexes reason) := by
  refine changes_foldl id _ (fun t i => ?_) indexes s
  simp only [id]
  cases hr : t.records.get? i with
  | none => exact .refl
  | some r => exact .single (.error t i r reason hr)

theorem changes_take {s s' : VVariableRecovery} {payload : Payload} {kind : RequestKind} {p : PendingVRequest}
    (h : s.takePending payload kind = .ok (p, s')) : Changes s s' := by
  obtain ⟨_, _, _, _, _, _, _, _, rfl⟩ := takePending_ok h
  exact .single (.pending s _)

theorem changes_applyRegResponse (s : VVariableRecovery) (payload : Payload) :
    Changes s (s.applyRegResponse payload).recovery := by
  unfold applyRegResponse
  cases htake : s.takePending payload .reg with
  | error reason => exact .refl
  | ok taken =>
    obtain ⟨p, s'⟩ := taken
    apply (changes_take htake).trans
    dsimp only
    split
    · exact changes_markReadError s' _ _
    · split
      · exact changes_markReadError s' _ _
      · exact changes_foldl Prod.fst _ (fun a i => changes_register a.1 i _ p a.2) p.lvarIndexes (s', [])

theorem changes_applyMemResponse (s : VVariableRecovery) (payload : Payload) :
    Changes s (s.applyMemResponse payload).recovery := by
  unfold applyMemResponse
  cases htake : s.takePending payload .mem with
  | error reason => exact .refl
  | ok taken =>
    obtain ⟨p, s'⟩ := taken
    apply (changes_take htake).trans
    dsimp only
    split
    · exact .single (.pending s' _)
    · split
      · exact .single (.pending s' _)
      · exact changes_foldl id _ (fun t i => changes_memory t i payload p) p.lvarIndexes s'

/-- The value a stale record shows is the last observation of its key, made under
the identity of the variable the record describes. -/
def StaleOk (s : VVariableRecovery) (i : Int) (r : VVariableRecoveryRecord) : Prop :=
  ∃ lvar ∈ s.sourceVariables, lvar.lvarIndex = i ∧ lvar.functionStartEa = r.functionEa ∧ lvar.name = r.name ∧
    lvar.size = r.width ∧ lvar.typeString = r.typeString ∧
    ∃ o, s.lastObservation (r.functionEa, i) = some o ∧ o.Shows lvar r.value

/-- The history is what pruning left of the last observations, and every stale
record is justified by one. -/
structure Provenance (s : VVariableRecovery) : Prop where
  recordKey : ∀ i r, s.records.get? i = some r → r.lvarIndex = i
  history : ∀ k h, s.history.get? k = some h → ∃ o, s.lastObservation k = some o ∧ o.value = h.value ∧
    o.name = h.name ∧ o.width = h.width ∧ o.typeString = h.typeString ∧ o.lvarDefea = h.lvarDefea
  stale : ∀ i r, s.records.get? i = some r → r.recoveryStatus = .stale → s.StaleOk i r

/-- Storing a record that is not stale, or justified, keeps the provenance. -/
theorem Provenance.store {s : VVariableRecovery} (hs : Provenance s) {r : VVariableRecoveryRecord}
    (hr : r.recoveryStatus = .stale → s.StaleOk r.lvarIndex r) : Provenance (s.store r) := by
  refine ⟨fun j q hq => ?_, hs.history, fun j q hq hst => ?_⟩
  · rw [store_records, Dict.get?_set] at hq
    split at hq
    · cases hq
      exact (‹j = r.lvarIndex›).symm
    · exact hs.recordKey j q hq
  · rw [store_records, Dict.get?_set] at hq
    split at hq
    · rename_i hj
      cases hq
      rw [hj]
      exact hr hst
    · exact hs.stale j q hq hst

/-- A new observation supersedes only the one of its own key. -/
theorem lastObservation_markFresh (s : VVariableRecovery) (r : VVariableRecoveryRecord) (value : String)
    (c : Confidence) (key : Int × Int) : (s.markFresh r value c).lastObservation key =
      if key = (r.functionEa, r.lvarIndex) then
        some { functionEa := r.functionEa, lvarIndex := r.lvarIndex, name := r.name, width := r.width
               typeString := r.typeString, lvarDefea := s.rowLvarDefea r.lvarIndex, value := value }
      else s.lastObservation key := by
  unfold lastObservation
  rw [markFresh_observations, List.find?_cons]
  by_cases h : key = (r.functionEa, r.lvarIndex)
  · simp [Observation.key, h]
  · rw [if_neg h, decide_eq_false]
    exact fun he => h he.symm

theorem Provenance.markFresh {s : VVariableRecovery} (hs : Provenance s) (r : VVariableRecoveryRecord)
    (value : String) (c : Confidence) : Provenance (s.markFresh r value c) := by
  refine ⟨fun j q hq => ?_, fun k h hk => ?_, fun j q hq hst => ?_⟩
  · rw [markFresh_records, Dict.get?_set] at hq
    split at hq
    · cases hq
      exact (‹j = r.lvarIndex›).symm
    · exact hs.recordKey j q hq
  · rw [lastObservation_markFresh]
    rcases markFresh_history s r value c hk with ⟨rfl, rfl⟩ | ⟨hne, hk⟩
    · exact ⟨_, if_pos rfl, rfl, rfl, rfl, rfl, rfl⟩
    · rw [if_neg hne]
      exact hs.history k h hk
  · rw [markFresh_records, Dict.get?_set] at hq
    split at hq
    · cases hq
      cases hst
    · rename_i hj
      obtain ⟨lvar, hl, hidx, hfe, hn, hw, ht, o, ho, hshow⟩ := hs.stale j q hq hst
      refine ⟨lvar, by rwa [markFresh_sourceVariables], hidx, hfe, hn, hw, ht, o, ?_, hshow⟩
      rw [lastObservation_markFresh, if_neg (fun he => hj (congrArg Prod.snd he)), ho]

theorem Change.provenance {s s' : VVariableRecovery} (h : Change s s') (hs : Provenance s) : Provenance s' := by
  cases h with
  | pending _ => exact ⟨hs.recordKey, hs.history, hs.stale⟩
  | error i r reason hr => exact hs.store fun h => by cases h
  | fresh i r n c hr => exact hs.markFresh r _ c
  | annotate i r storage reason hr =>
    refine hs.store fun hst => ?_
    rw [VVariableRecoveryRecord.annotate_lvarIndex, hs.recordKey i r hr]
    exact hs.stale i r hr hst

theorem Changes.provenance {s s' : VVariableRecovery} (h : Changes s s') (hs : Provenance s) : Provenance s' := by
  induction h with
  | refl => exact hs
  | tail _ hstep ih => exact hstep.provenance ih

/-- A new record that went stale shows the history value of its own variable. -/
theorem Provenance.newRecord {s : VVariableRecovery} (hs : Provenance s) {lvar : VariableRecord}
    (hl : lvar ∈ s.sourceVariables) (e : RecoveryEvidence) (pcSeq : Int) (runtimePc : String) (currentEa : Int)
    {r : VVariableRecoveryRecord} (hsame : (s.newRecord lvar e pcSeq runtimePc currentEa).SameIdentity r)
    (hv : r.value = (s.newRecord lvar e pcSeq runtimePc currentEa).lastSuccessfulValue) (hne : r.value ≠ "") :
    s.StaleOk r.lvarIndex r := by
  obtain ⟨hidx, hname, htype, hwidth, hfe, _⟩ := hsame
  have hidx : r.lvarIndex = lvar.lvarIndex := hidx
  have hfe : r.functionEa = lvar.functionStartEa := hfe
  have hvalue : r.value = ((s.matchingHistory lvar).map HistoryValue.value).getD "" := hv
  cases hm : s.matchingHistory lvar with
  | none => exact absurd (by rw [hvalue, hm]; rfl) hne
  | some h =>
    obtain ⟨hget, hid⟩ := Option.filter_eq_some_iff.mp hm
    simp only [decide_eq_true_eq] at hid
    obtain ⟨o, ho, hov, hon, how, hot, hod⟩ := hs.history _ h hget
    refine ⟨lvar, hl, hidx.symm, hfe.symm, hname.symm, hwidth.symm, htype.symm, o, ?_, ?_⟩
    · rw [hfe, hidx, ho]
    · exact ⟨by rw [hov, hvalue, hm]; rfl, hon.trans hid.1, how.trans hid.2.1, hot.trans hid.2.2.1,
        hod.trans hid.2.2.2⟩

theorem planVariable_provenance (ok : Bool) (selected : List Int) (currentEa : Int) (runtimePc : String)
    (pcSeq : Int) {p : PlanState} (hs : Provenance p.recovery) {lvar : VariableRecord}
    (hl : lvar ∈ p.recovery.sourceVariables) :
    Provenance (planVariable ok selected currentEa runtimePc pcSeq p lvar).recovery ∧
      (planVariable ok selected currentEa runtimePc pcSeq p lvar).recovery.sourceVariables =
        p.recovery.sourceVariables := by
  rcases planVariable_cases ok selected currentEa runtimePc pcSeq p lvar with
    ⟨_, _, reason, keep, heq⟩ | ⟨_, n, c, _, _, _, _, heq⟩ | ⟨_, reason, register, _, _, heq⟩
  · rw [heq]
    refine ⟨hs.store fun hst => ?_, rfl⟩
    obtain ⟨hv, hne⟩ := (VVariableRecoveryRecord.setUnavailable_displays _ reason keep).stale hst
    refine hs.newRecord hl _ pcSeq runtimePc currentEa
      (VVariableRecoveryRecord.setUnavailable_same _ reason keep) (hv.trans ?_) hne
    unfold VVariableRecoveryRecord.setUnavailable
    split <;> rfl
  · rw [heq]
    exact ⟨hs.markFresh _ _ _, by simp⟩
  · rw [heq]
    refine ⟨hs.store fun hst => ?_, rfl⟩
    obtain ⟨hv, hne⟩ := (VVariableRecoveryRecord.setWaiting_displays _ reason).stale hst
    refine hs.newRecord hl _ pcSeq runtimePc currentEa
      (VVariableRecoveryRecord.setWaiting_same _ reason) (hv.trans ?_) hne
    unfold VVariableRecoveryRecord.setWaiting
    split <;> rfl

theorem planLoop_provenance (ok : Bool) (selected : List Int) (currentEa : Int) (runtimePc : String)
    (pcSeq : Int) (lvars : List VariableRecord) {p : PlanState} (hs : Provenance p.recovery)
    (hl : ∀ lvar ∈ lvars, lvar ∈ p.recovery.sourceVariables) :
    Provenance (lvars.foldl (planVariable ok selected currentEa runtimePc pcSeq) p).recovery := by
  induction lvars generalizing p with
  | nil => exact hs
  | cons lvar lvars ih =>
    obtain ⟨hs', hsource⟩ := planVariable_provenance ok selected currentEa runtimePc pcSeq hs
      (hl lvar (List.mem_cons_self ..))
    exact ih hs' fun l h => hsource ▸ hl l (List.mem_cons_of_mem lvar h)

/-- Dropping all records keeps the history justified. -/
theorem provenance_of_empty {s s' : VVariableRecovery} (hs : Provenance s) (hr : s'.records = Dict.empty)
    (hh : s'.history = s.history) (ho : s'.observations = s.observations) : Provenance s' := by
  refine ⟨by simp [hr], fun k h hk => ?_, by simp [hr]⟩
  obtain ⟨o, hlast, hrest⟩ := hs.history k h (hh ▸ hk)
  exact ⟨o, by rw [lastObservation, ho]; exact hlast, hrest⟩

theorem step_provenance {s : VVariableRecovery} (hs : Provenance s) (op : Op) : Provenance (s.step op) := by
  cases op with
  | beginPc provider lvars functionEa currentEa runtimePc pcSeq selection =>
    let selected := selectedIndexes lvars selection
    let analysis := analyze provider functionEa currentEa lvars selected
    let started : VVariableRecovery := { s.startContext functionEa currentEa runtimePc pcSeq with
      sourceVariables := localVariables lvars, evidence := analysis.evidenceByIndex }
    have hplan := planLoop_provenance analysis.ok selected currentEa runtimePc pcSeq (localVariables lvars)
      (p := { recovery := started }) (provenance_of_empty hs rfl rfl rfl) fun _ h => h
    change Provenance (s.beginPc provider lvars functionEa currentEa runtimePc pcSeq selection).1
    unfold beginPc
    dsimp only
    split
    · exact hplan
    · exact ⟨hplan.recordKey, hplan.history, hplan.stale⟩
  | invalidatePc pcSeq runtimePc => exact provenance_of_empty hs rfl rfl rfl
  | clearRuntimeState => exact provenance_of_empty hs rfl rfl rfl
  | applyRegResponse payload => exact (changes_applyRegResponse s payload).provenance hs
  | applyMemResponse payload => exact (changes_applyMemResponse s payload).provenance hs

theorem run_provenance (maxHistory : Int) (ops : List Op) : Provenance ((init maxHistory).run ops) := by
  have h : ∀ s, Provenance s → Provenance (run s ops) := by
    induction ops with
    | nil => exact fun _ hs => hs
    | cons op ops ih => exact fun s hs => ih _ (step_provenance hs op)
  exact h _ ⟨by simp [init], by simp [init], by simp [init]⟩

/-- A stale value was the last thing ever observed for its function and index,
under the very identity the variable has now. -/
theorem stale_value_provenance (maxHistory : Int) (ops : List Op) :
    let s := (init maxHistory).run ops
    ∀ i r, s.records.get? i = some r → r.recoveryStatus = .stale →
      ∃ lvar ∈ s.sourceVariables, lvar.lvarIndex = i ∧ lvar.functionStartEa = r.functionEa ∧
        lvar.name = r.name ∧ lvar.size = r.width ∧ lvar.typeString = r.typeString ∧
        ∃ o, s.observations.find? (fun o => o.functionEa = r.functionEa ∧ o.lvarIndex = i) = some o ∧
          o.value = r.value ∧ o.name = lvar.name ∧ o.width = lvar.size ∧ o.typeString = lvar.typeString ∧
          o.lvarDefea = lvar.lvarDefea := by
  intro s i r hr hst
  obtain ⟨lvar, hl, hidx, hfe, hn, hw, ht, o, ho, hshow⟩ := (run_provenance maxHistory ops).stale i r hr hst
  refine ⟨lvar, hl, hidx, hfe, hn, hw, ht, o, ?_, hshow.value, hshow.name, hshow.width, hshow.typeString,
    hshow.lvarDefea⟩
  simpa only [lastObservation, Observation.key, Prod.mk.injEq] using ho

/-- One step further, the value read at the first stop is displayed as stale. -/
def rbxStaleRun : List Op := [rbxContext 1, .applyRegResponse (rbxResponse 1), rbxContext 2]

theorem stale_value_provenance_rbx : ∃ o,
    ((init 256).run rbxStaleRun).observations.find? (fun o => o.functionEa = 0 ∧ o.lvarIndex = 4) = some o ∧
      o.value = "0x34" := by
  have hsome : (((init 256).run rbxStaleRun).records.get? 4).isSome := by decide
  obtain ⟨r, hr⟩ := Option.isSome_iff_exists.mp hsome
  have hview : r.recoveryStatus = .stale ∧ r.functionEa = 0 ∧ r.value = "0x34" := by
    have h : ∀ q ∈ ((init 256).run rbxStaleRun).records.get? 4,
        q.recoveryStatus = .stale ∧ q.functionEa = 0 ∧ q.value = "0x34" := by decide
    exact h r hr
  obtain ⟨_, _, _, _, _, _, _, o, ho, hv, _⟩ :=
    stale_value_provenance 256 rbxStaleRun 4 r hr hview.1
  exact ⟨o, by rwa [hview.2.1] at ho, hv.trans hview.2.2⟩

end VVariableRecovery
end DynvarSync.Ida
