import DynvarSync.Ida.VRecovery
import Mathlib

/-! What each primitive of the local recovery engine changes, and what one turn
of each of its loops can do. -/
namespace DynvarSync.Ida
open Lib PyText

/-- How a record may be displayed: fresh and stale rows show their last success,
the others show nothing. -/
structure VVariableRecoveryRecord.Displays (r : VVariableRecoveryRecord) : Prop where
  fresh : r.recoveryStatus = .fresh → r.value = r.lastSuccessfulValue ∧ r.value ≠ "" ∧
    r.lastSuccessfulPcSeq = some r.currentPcSeq ∧ r.lastUpdatePc = r.currentRuntimePc
  stale : r.recoveryStatus = .stale → r.value = r.lastSuccessfulValue ∧ r.value ≠ ""
  unavailable : r.recoveryStatus = .unavailable → r.value = ""
  error : r.recoveryStatus = .error → r.value = ""

/-- Neither fresh nor failed: the record may still be waiting for a read. -/
def VVariableRecoveryRecord.Unsettled (r : VVariableRecoveryRecord) : Prop :=
  r.recoveryStatus ≠ .fresh ∧ r.recoveryStatus ≠ .error

namespace VVariableRecoveryRecord
variable (r : VVariableRecoveryRecord)

/-- The fields that no status change touches. -/
def SameIdentity (r r' : VVariableRecoveryRecord) : Prop :=
  r'.lvarIndex = r.lvarIndex ∧ r'.name = r.name ∧ r'.typeString = r.typeString ∧ r'.width = r.width ∧
    r'.functionEa = r.functionEa ∧ r'.currentRuntimePc = r.currentRuntimePc ∧
    r'.currentPcSeq = r.currentPcSeq ∧ r'.candidateStorageKind = r.candidateStorageKind

theorem setUnavailable_same (reason : String) (keep : Bool) :
    r.SameIdentity (r.setUnavailable reason keep) := by
  unfold setUnavailable
  split <;> exact ⟨rfl, rfl, rfl, rfl, rfl, rfl, rfl, rfl⟩

theorem setWaiting_same (reason : String) : r.SameIdentity (r.setWaiting reason) := by
  unfold setWaiting
  split <;> exact ⟨rfl, rfl, rfl, rfl, rfl, rfl, rfl, rfl⟩

theorem setError_displays (reason : String) : (r.setError reason).Displays := by
  constructor <;> simp [setError]

theorem setFresh_displays (value : String) (confidence : Confidence) (h : value ≠ "") :
    (r.setFresh value confidence).Displays := by
  constructor <;> simp [setFresh, h]

theorem setUnavailable_displays (reason : String) (keep : Bool) :
    (r.setUnavailable reason keep).Displays := by
  unfold setUnavailable
  split
  · rename_i h
    constructor <;> simp [h.2]
  · constructor <;> simp

theorem setWaiting_displays (reason : String) : (r.setWaiting reason).Displays := by
  unfold setWaiting
  split
  · rename_i h
    constructor <;> simp [h]
  · constructor <;> simp

theorem setWaiting_unsettled (reason : String) : (r.setWaiting reason).Unsettled := by
  unfold setWaiting Unsettled
  split <;> simp

@[simp] theorem setError_settled (reason : String) : ¬ (r.setError reason).Unsettled := by
  simp [setError, Unsettled]

@[simp] theorem setFresh_settled (value : String) (confidence : Confidence) :
    ¬ (r.setFresh value confidence).Unsettled := by
  simp [setFresh, Unsettled]

/-- Another storage text and reason on the same record. -/
def annotate (storage reason : String) : VVariableRecoveryRecord :=
  { r with storage := storage, reason := reason }

theorem Displays.annotate {r : VVariableRecoveryRecord} (h : r.Displays) (storage reason : String) :
    (r.annotate storage reason).Displays := ⟨h.fresh, h.stale, h.unavailable, h.error⟩

@[simp] theorem annotate_lvarIndex (storage reason : String) :
    (r.annotate storage reason).lvarIndex = r.lvarIndex := rfl

@[simp] theorem annotate_unsettled (storage reason : String) :
    (r.annotate storage reason).Unsettled ↔ r.Unsettled := Iff.rfl

end VVariableRecoveryRecord

/-- A runtime read for a variable of this width is accepted. -/
def RecoveryEvidence.acceptsRead (e : RecoveryEvidence) (width : Nat) : Bool :=
  match e.storageKind, e.register, e.stackPointerOffset with
  | .register, some spec, _ => width ∈ supportedWidths && decide (width ≤ spec.width)
  | .stack, _, some _ => decide (width ∈ supportedWidths)
  | _, _, _ => false

/-- Register evidence with a register, or stack evidence with an offset. -/
def RecoveryEvidence.Readable (e : RecoveryEvidence) : Prop :=
  (e.storageKind = .register ∧ e.register.isSome) ∨ (e.storageKind = .stack ∧ e.stackPointerOffset.isSome)

theorem RecoveryEvidence.acceptsRead_iff (e : RecoveryEvidence) (width : Nat) :
    e.acceptsRead width = true ↔
      (e.storageKind = .register ∧ ∃ spec, e.register = some spec ∧ width ∈ supportedWidths ∧
        width ≤ spec.width) ∨
      (e.storageKind = .stack ∧ ∃ offset, e.stackPointerOffset = some offset ∧ width ∈ supportedWidths) := by
  cases hk : e.storageKind <;> cases hr : e.register <;> cases ho : e.stackPointerOffset <;>
    simp [acceptsRead, hk, hr, ho]

theorem RecoveryEvidence.readable_of_acceptsRead {e : RecoveryEvidence} {width : Nat}
    (h : e.acceptsRead width = true) : e.Readable := by
  rcases (e.acceptsRead_iff width).mp h with ⟨hk, spec, hs, _⟩ | ⟨hk, offset, ho, _⟩
  · exact .inl ⟨hk, by simp [hs]⟩
  · exact .inr ⟨hk, by simp [ho]⟩

/-- The analysis proves a readable location for this variable. -/
def plansRead (analysis : RecoveryAnalysis) (selected : List Int) (lvar : VariableRecord) : Bool :=
  analysis.ok && decide (lvar.lvarIndex ∈ selected) &&
    match analysis.evidenceByIndex.get? lvar.lvarIndex with
    | some e => e.acceptsRead lvar.size
    | none => false

namespace VVariableRecovery

section fields
variable (s : VVariableRecovery) (r : VVariableRecoveryRecord) (value : String) (confidence : Confidence)

@[simp] theorem store_records : (s.store r).records = s.records.set r.lvarIndex r := rfl
@[simp] theorem store_pending : (s.store r).pending = s.pending := rfl
@[simp] theorem store_evidence : (s.store r).evidence = s.evidence := rfl
@[simp] theorem store_history : (s.store r).history = s.history := rfl
@[simp] theorem store_pcSeq : (s.store r).pcSeq = s.pcSeq := rfl
@[simp] theorem store_runtimePc : (s.store r).runtimePc = s.runtimePc := rfl
@[simp] theorem store_sourceVariables : (s.store r).sourceVariables = s.sourceVariables := rfl
@[simp] theorem store_observations : (s.store r).observations = s.observations := rfl

/-- Pruning only evicts: what is still there was there before. -/
theorem pruneHistory_get? (k : Int × Int) (h : HistoryValue)
    (hk : s.pruneHistory.history.get? k = some h) : s.history.get? k = some h := by
  unfold pruneHistory at hk
  split at hk
  · exact hk
  · exact Dict.get?_foldl_pop _ hk

private theorem pruneHistory_fields : s.pruneHistory.records = s.records ∧ s.pruneHistory.pending = s.pending ∧
    s.pruneHistory.evidence = s.evidence ∧ s.pruneHistory.pcSeq = s.pcSeq ∧
    s.pruneHistory.runtimePc = s.runtimePc ∧ s.pruneHistory.sourceVariables = s.sourceVariables ∧
    s.pruneHistory.observations = s.observations := by
  unfold pruneHistory
  split <;> exact ⟨rfl, rfl, rfl, rfl, rfl, rfl, rfl⟩

@[simp] theorem markFresh_records : (s.markFresh r value confidence).records =
    s.records.set r.lvarIndex (r.setFresh value confidence) := (pruneHistory_fields _).1
@[simp] theorem markFresh_pending : (s.markFresh r value confidence).pending = s.pending :=
  (pruneHistory_fields _).2.1
@[simp] theorem markFresh_evidence : (s.markFresh r value confidence).evidence = s.evidence :=
  (pruneHistory_fields _).2.2.1
@[simp] theorem markFresh_pcSeq : (s.markFresh r value confidence).pcSeq = s.pcSeq :=
  (pruneHistory_fields _).2.2.2.1
@[simp] theorem markFresh_runtimePc : (s.markFresh r value confidence).runtimePc = s.runtimePc :=
  (pruneHistory_fields _).2.2.2.2.1
@[simp] theorem markFresh_sourceVariables :
    (s.markFresh r value confidence).sourceVariables = s.sourceVariables :=
  (pruneHistory_fields _).2.2.2.2.2.1
@[simp] theorem markFresh_observations : (s.markFresh r value confidence).observations =
    { functionEa := r.functionEa, lvarIndex := r.lvarIndex, name := r.name, width := r.width
      typeString := r.typeString, lvarDefea := s.rowLvarDefea r.lvarIndex, value := value } ::
      s.observations := (pruneHistory_fields _).2.2.2.2.2.2

/-- An entry found after an observation is that observation or an older entry
of another key. -/
theorem markFresh_history {k : Int × Int} {h : HistoryValue}
    (hk : (s.markFresh r value confidence).history.get? k = some h) :
    (k = (r.functionEa, r.lvarIndex) ∧ h =
      { name := r.name, width := r.width, typeString := r.typeString
        lvarDefea := s.rowLvarDefea r.lvarIndex, value := value, pcSeq := r.currentPcSeq
        runtimePc := r.currentRuntimePc, sourceEa := r.sourceEa }) ∨
    (k ≠ (r.functionEa, r.lvarIndex) ∧ s.history.get? k = some h) := by
  have hk := pruneHistory_get? _ _ _ hk
  simp only [Dict.get?_set] at hk
  split at hk
  · exact .inl ⟨‹_›, (Option.some.inj hk).symm⟩
  · exact .inr ⟨‹_›, hk⟩

end fields

/-- The three things one turn of the planning loop can do to the variable's new
record: leave it without a read, find it constant, or plan its register read. -/
theorem planVariable_cases (ok : Bool) (selected : List Int) (currentEa : Int) (runtimePc : String)
    (pcSeq : Int) (p : PlanState) (lvar : VariableRecord) :
    let e := p.recovery.chooseEvidence ok selected lvar.lvarIndex
    let record := p.recovery.newRecord lvar e pcSeq runtimePc currentEa
    let p' := planVariable ok selected currentEa runtimePc pcSeq p lvar
    (e.acceptsRead lvar.size = false ∧
      (ok = true → ∀ c, e.storageKind = .constant → e.constantValue = some c → lvar.size ∉ supportedWidths) ∧
      ∃ reason keep, p' = { p with recovery := p.recovery.store (record.setUnavailable reason keep) }) ∨
    (e.acceptsRead lvar.size = false ∧ ∃ n : Nat, ∃ c, e.storageKind = .constant ∧
      e.constantValue = some c ∧ lvar.size ∈ supportedWidths ∧ n = maskWidth c lvar.size ∧
      p' = { p with recovery := p.recovery.markFresh record (formatHex n) e.confidence }) ∨
    (e.acceptsRead lvar.size = true ∧ ∃ reason register,
      (∀ spec, e.storageKind = .register → e.register = some spec → register = spec.fullRegister) ∧
      (e.storageKind = .stack → register = "rsp") ∧
      p' = { recovery := p.recovery.store (record.setWaiting reason)
             neededRegisters := p.neededRegisters.insert register
             runtimeIndexes := p.runtimeIndexes ++ [lvar.lvarIndex] }) := by
  intro e record p'
  have hp : p' = planVariable ok selected currentEa runtimePc pcSeq p lvar := rfl
  cases ok with
  | false =>
    left
    exact ⟨rfl, nofun, _, _, rfl⟩
  | true =>
    unfold planVariable at hp
    simp only [Bool.not_true, Bool.false_eq_true, if_false] at hp
    split at hp
    · rename_i hk hc
      have hr : e.acceptsRead lvar.size = false := by
        rw [RecoveryEvidence.acceptsRead, show e.storageKind = .constant from hk]
      by_cases hw : lvar.size ∈ supportedWidths
      · right; left
        refine ⟨hr, _, _, hk, hc, hw, rfl, ?_⟩
        simpa [formatConstant, hw] using hp
      · left
        refine ⟨hr, fun _ _ _ _ => hw, reasonUnsupportedWidth, true, ?_⟩
        simpa [formatConstant, hw] using hp
    · rename_i spec hk hs
      by_cases hw : lvar.size ∉ supportedWidths ∨ lvar.size > spec.width
      · rw [if_pos hw] at hp
        left
        have hconst : e.storageKind ≠ .constant := by
          rw [show e.storageKind = .register from hk]
          decide
        refine ⟨?_, fun _ _ hc _ => absurd hc hconst, _, _, hp⟩
        rw [Bool.eq_false_iff, Ne, e.acceptsRead_iff]
        rintro (⟨_, spec', hs', hmem, hle⟩ | ⟨hk', _⟩)
        · rw [show e.register = some spec from hs] at hs'
          cases hs'
          exact hw.elim (fun h => h hmem) (fun h => absurd hle (Nat.not_le.mpr h))
        · rw [show e.storageKind = .register from hk] at hk'
          cases hk'
      · rw [if_neg hw] at hp
        rw [not_or, not_not, Nat.not_lt] at hw
        right; right
        refine ⟨(e.acceptsRead_iff _).mpr (.inl ⟨hk, spec, hs, hw⟩), _, _, ?_, ?_, hp⟩
        · intro spec' _ hs'
          rw [show e.register = some spec from hs] at hs'
          cases hs'
          rfl
        · intro hstack
          rw [show e.storageKind = .register from hk] at hstack
          cases hstack
    · rename_i offset hk ho
      by_cases hw : lvar.size ∈ supportedWidths
      · rw [if_neg (not_not.mpr hw)] at hp
        right; right
        refine ⟨(e.acceptsRead_iff _).mpr (.inr ⟨hk, offset, ho, hw⟩), _, _, ?_, fun _ => rfl, hp⟩
        intro spec' hreg
        rw [show e.storageKind = .stack from hk] at hreg
        cases hreg
      · rw [if_pos hw] at hp
        left
        have hconst : e.storageKind ≠ .constant := by
          rw [show e.storageKind = .stack from hk]
          decide
        refine ⟨?_, fun _ _ hc _ => absurd hc hconst, _, _, hp⟩
        rw [Bool.eq_false_iff, Ne, e.acceptsRead_iff]
        rintro (⟨hk', _⟩ | ⟨_, _, _, hmem⟩)
        · rw [show e.storageKind = .stack from hk] at hk'
          cases hk'
        · exact hw hmem
    · rename_i h1 h2 h3
      left
      refine ⟨?_, fun _ c hk hc => (h1 c hk hc).elim, _, _, hp⟩
      rw [Bool.eq_false_iff, Ne, e.acceptsRead_iff]
      rintro (⟨hk', spec, hs, _⟩ | ⟨hk', offset, ho, _⟩)
      · exact h2 spec hk' hs
      · exact h3 offset hk' ho

/-- Everything a successful lookup of the pending table has checked. -/
theorem takePending_ok {s s' : VVariableRecovery} {payload : Payload} {kind : RequestKind}
    {p : PendingVRequest} (h : s.takePending payload kind = .ok (p, s')) :
    ∃ current requestId, s.pcSeq = some current ∧ (payload.get "pc_seq").eqInt current = true ∧
      ((payload.get "runtime_pc").isTruthy = true → (payload.get "runtime_pc").eqStr s.runtimePc = true) ∧
      payload.get "request_id" = .str requestId ∧ s.pending.get? requestId = some p ∧ p.kind = kind ∧
      s' = { s with pending := s.pending.pop requestId } := by
  unfold takePending at h
  split at h
  · cases h
  · rename_i current hcur
    split at h
    · cases h
    · rename_i hseq
      split at h
      · cases h
      · rename_i hpc
        split at h
        · cases h
        · rename_i requestId hid
          split at h
          · cases h
          · rename_i p' hp
            split at h
            · cases h
            · rename_i hkind
              cases h
              refine ⟨current, requestId, hcur, by simpa using hseq, ?_,
                (Json.asStr_eq_some_iff _ _).mp hid, hp, not_not.mp hkind, rfl⟩
              intro ht
              simpa [ht] using hpc

/-- A response names its request, so a table without that request refuses it. -/
theorem takePending_absent {s : VVariableRecovery} {payload : Payload} {requestId : String}
    (hid : payload.get "request_id" = .str requestId) (hp : s.pending.get? requestId = none)
    (kind : RequestKind) : ∃ reason, s.takePending payload kind = .error reason := by
  cases h : s.takePending payload kind with
  | error reason => exact ⟨reason, rfl⟩
  | ok r =>
    obtain ⟨_, id, _, _, _, hid', hp', _⟩ := takePending_ok h
    rw [hid] at hid'
    cases hid'
    rw [hp] at hp'
    cases hp'

theorem vMemRequestId_injective {pcSeq i j : Int} (h : vMemRequestId pcSeq i = vMemRequestId pcSeq j) :
    i = j := by
  have ht := congrArg String.toList h
  simp only [vMemRequestId, String.toList_append, List.append_cancel_left_eq] at ht
  exact Int.repr_injective (String.toList_inj.mp ht)

theorem vRegRequestId_ne_vMemRequestId (m n i : Int) : vRegRequestId m ≠ vMemRequestId n i := by
  intro h
  have ht := congrArg String.toList h
  simp [vRegRequestId, vMemRequestId] at ht

/-- The memory request planned for a stack variable once `rsp` is known. -/
def memPending (pending : PendingVRequest) (lvarIndex : Int) (address : String) (width : Nat) :
    PendingVRequest :=
  { kind := .mem, pcSeq := pending.pcSeq, requestId := vMemRequestId pending.pcSeq lvarIndex
    runtimePc := pending.runtimePc, lvarIndexes := [lvarIndex], address := address, size := width }

/-- The stack variable's record waits for that memory request. -/
def awaitMemory (s : VVariableRecovery) (r : VVariableRecoveryRecord) (pending : PendingVRequest)
    (lvarIndex : Int) (address : String) : VVariableRecovery :=
  { s.store (r.annotate ("stack:" ++ address) "waiting for exact stack memory read") with
    pending := s.pending.set (vMemRequestId pending.pcSeq lvarIndex)
      (memPending pending lvarIndex address r.width) }

/-- One turn of the register loop fails the record, makes it fresh, or replaces
its register read by a memory read; without readable evidence it does nothing. -/
theorem applyRegisterIndex_cases (s : VVariableRecovery) (i : Int) (registers : Payload)
    (pending : PendingVRequest) (out : List Request) :
    let result := (applyRegisterIndex registers pending (s, out) i).1
    (result = s ∧ ∀ r e, s.records.get? i = some r → s.evidence.get? i = some e → ¬ e.Readable) ∨
    ∃ r, s.records.get? i = some r ∧
      ((∃ reason, result = s.store (r.setError reason)) ∨
        (∃ n : Nat, result = s.markFresh r (formatHex n) .exactRegisterLocation) ∨
        (∃ address, result = s.awaitMemory r pending i address)) := by
  unfold applyRegisterIndex
  cases hr : s.records.get? i with
  | none => exact .inl ⟨by simp only [hr], fun _ _ h => by cases h⟩
  | some r =>
    cases he : s.evidence.get? i with
    | none => exact .inl ⟨by simp only [hr, he], fun _ _ _ h => by cases h⟩
    | some e =>
      simp only [hr, he]
      split
      · rename_i spec _ hspec
        refine .inr ⟨r, rfl, ?_⟩
        cases hx : extractRegisterValue (registers.get spec.fullRegister) spec r.width with
        | error reason => exact .inl ⟨_, rfl⟩
        | ok value =>
          obtain ⟨n, rfl⟩ := extractRegisterValue_ok hx
          exact .inr (.inl ⟨n, rfl⟩)
      · rename_i offset _ _
        refine .inr ⟨r, rfl, ?_⟩
        cases hx : concreteStackAddress (registers.get "rsp") offset with
        | error reason => exact .inl ⟨_, rfl⟩
        | ok address => exact .inr (.inr ⟨address, rfl⟩)
      · rename_i hreg hstack
        refine .inl ⟨rfl, fun r' e' _ he' => ?_⟩
        cases he'
        rintro (⟨hk, hs⟩ | ⟨hk, hs⟩)
        · obtain ⟨spec, hspec⟩ := Option.isSome_iff_exists.mp hs
          exact hreg spec hk hspec
        · obtain ⟨offset, ho⟩ := Option.isSome_iff_exists.mp hs
          exact hstack offset hk ho

/-- One turn of the memory loop fails the record or makes it fresh. -/
theorem applyMemoryIndex_cases {s : VVariableRecovery} {i : Int} {r : VVariableRecoveryRecord}
    (payload : Payload) (pending : PendingVRequest) (hr : s.records.get? i = some r) :
    let result := applyMemoryIndex payload pending s i
    (∃ reason, result = s.store (r.setError reason)) ∨
    (∃ n : Nat, ∃ storage reason, result = (s.markFresh r (formatHex n) .exactStackLocation).store
      ((r.setFresh (formatHex n) .exactStackLocation).annotate storage reason)) := by
  unfold applyMemoryIndex
  simp only [hr]
  split
  · exact .inl ⟨_, rfl⟩
  · cases hx : decodeLittleEndian (payload.getD "bytes_hex" (.str "")).text pending.size with
    | error reason => exact .inl ⟨_, rfl⟩
    | ok value =>
      obtain ⟨n, rfl⟩ := decodeLittleEndian_ok hx
      exact .inr ⟨n, _, _, rfl⟩

end VVariableRecovery
end DynvarSync.Ida
