import DynvarSync.Ida.Controller
import DynvarSync.Ida.RecoveryActions
import DynvarSync.Lib.Eviction

/-! Which entries the bounded history gives up while contexts with arbitrary `pc_seq` values follow one another. -/
namespace DynvarSync.Ida
open Lib PyText Eviction

namespace VVariableRecovery

/-- A begin of recovery that raises has performed some of the same actions. -/
theorem interruptedPc_eq_actions (s : VVariableRecovery) (provider : AnalysisProvider) (lvars : List VariableRecord)
    (functionEa currentEa : Int) (runtimePc : String) (pcSeq : Int) (selected : List Int) (turns : Nat) :
    let analysis := analyze provider functionEa currentEa lvars selected
    s.interruptedPc provider lvars functionEa currentEa runtimePc pcSeq selected turns =
      (.start functionEa currentEa runtimePc pcSeq (localVariables lvars) analysis.evidenceByIndex ::
        ((localVariables lvars).take turns).map (.plan analysis.ok selected currentEa runtimePc)).foldl act s :=
  planLoop_actions _ selected currentEa runtimePc pcSeq _ _ rfl

/-- What an observation stores under its key. -/
def historyEntry (s : VVariableRecovery) (record : VVariableRecoveryRecord) (value : String) : HistoryValue :=
  { name := record.name, width := record.width, typeString := record.typeString
    lvarDefea := s.rowLvarDefea record.lvarIndex, value := value
    pcSeq := record.currentPcSeq, runtimePc := record.currentRuntimePc, sourceEa := record.sourceEa }

def observation (s : VVariableRecovery) (record : VVariableRecoveryRecord) (value : String) : Observation :=
  { functionEa := record.functionEa, lvarIndex := record.lvarIndex, name := record.name
    width := record.width, typeString := record.typeString
    lvarDefea := s.rowLvarDefea record.lvarIndex, value := value }

theorem pruneHistory_eq (s : VVariableRecovery) :
    s.pruneHistory = { s with history := evict HistoryValue.pcSeq s.maxHistory s.history } := by
  unfold pruneHistory evict
  split
  · rfl
  · rfl

theorem markFresh_maxHistory (s : VVariableRecovery) (r : VVariableRecoveryRecord) (value : String)
    (c : Confidence) : (s.markFresh r value c).maxHistory = s.maxHistory := by
  rw [markFresh, pruneHistory_eq]
  rfl

theorem markFresh_history_eq (s : VVariableRecovery) (r : VVariableRecoveryRecord) (value : String) (c : Confidence) :
    (s.markFresh r value c).history = record HistoryValue.pcSeq s.maxHistory s.history (s.observation r value).key
      (s.historyEntry r value) := by
  rw [markFresh, pruneHistory_eq]
  rfl

/-- Every record was made in the current context. -/
def RecordsCurrent (s : VVariableRecovery) : Prop :=
  ∀ i r, s.records.get? i = some r → r.currentPcSeq = s.pcSeq.getD 0

/-- A context starts or ends. -/
def Action.changesContext : Action → Bool
  | .start .. => true
  | .clear => true
  | _ => false

/-- The history and the observations stay. -/
structure Quiet (s s' : VVariableRecovery) : Prop where
  history : s'.history = s.history
  observations : s'.observations = s.observations

/-- One successful observation is recorded, of a variable read in the current context. -/
structure Observes (s s' : VVariableRecovery) (record : VVariableRecoveryRecord) (value : String) : Prop where
  current : record.currentPcSeq = s.pcSeq.getD 0
  history : s'.history = Eviction.record HistoryValue.pcSeq s.maxHistory s.history (s.observation record value).key
    (s.historyEntry record value)
  observations : s'.observations = s.observation record value :: s.observations

/-- What one action within a context does. -/
structure Within (s s' : VVariableRecovery) : Prop where
  pcSeq : s'.pcSeq = s.pcSeq
  maxHistory : s'.maxHistory = s.maxHistory
  records : RecordsCurrent s'
  records_or_observes : Quiet s s' ∨ ∃ r value, Observes s s' r value

theorem recordsCurrent_set {s s' : VVariableRecovery} (h : RecordsCurrent s) (hpcSeq : s'.pcSeq = s.pcSeq)
    {r : VVariableRecoveryRecord} (hr : r.currentPcSeq = s.pcSeq.getD 0)
    (hrecords : s'.records = s.records.set r.lvarIndex r) : RecordsCurrent s' := by
  intro i q hq
  rw [hrecords, Dict.get?_set] at hq
  rw [hpcSeq]
  split at hq
  · obtain rfl := Option.some.inj hq
    exact hr
  · exact h i q hq

section within
variable {s : VVariableRecovery} (h : RecordsCurrent s) {r : VVariableRecoveryRecord}
include h

theorem within_store (hr : r.currentPcSeq = s.pcSeq.getD 0) : Within s (s.store r) :=
  ⟨rfl, rfl, recordsCurrent_set h rfl hr rfl, .inl ⟨rfl, rfl⟩⟩

theorem within_markFresh (hr : r.currentPcSeq = s.pcSeq.getD 0) (value : String) (c : Confidence) :
    Within s (s.markFresh r value c) := by
  refine ⟨markFresh_pcSeq s r value c, markFresh_maxHistory s r value c, ?_, .inr ⟨r, value, hr, ?_, ?_⟩⟩
  · exact recordsCurrent_set (r := r.setFresh value c) h (markFresh_pcSeq s r value c) hr
      (markFresh_records s r value c)
  · exact markFresh_history_eq s r value c
  · exact markFresh_observations s r value c

end within

theorem within_plan {s : VVariableRecovery} (h : RecordsCurrent s) (ok : Bool) (selected : List Int) (currentEa : Int)
    (runtimePc : String) (lvar : VariableRecord) : Within s (s.act (.plan ok selected currentEa runtimePc lvar)) := by
  have hcases := planVariable_cases ok selected currentEa runtimePc (s.pcSeq.getD 0) { recovery := s } lvar
  rw [act]
  rcases hcases with ⟨_, _, reason, keep, heq⟩ | ⟨_, n, c, _, _, _, _, heq⟩ | ⟨_, reason, register, _, _, heq⟩
  · rw [heq]
    exact within_store h (VVariableRecoveryRecord.setUnavailable_same _ reason keep).2.2.2.2.2.2.1
  · rw [heq]
    exact within_markFresh h rfl _ _
  · rw [heq]
    exact within_store h (VVariableRecoveryRecord.setWaiting_same _ reason).2.2.2.2.2.2.1

theorem within_register {s : VVariableRecovery} (h : RecordsCurrent s) (registers : Payload)
    (pending : PendingVRequest) (i : Int) : Within s (s.act (.register registers pending i)) := by
  rw [act]
  rcases applyRegisterIndex_cases s i registers pending [] with
    ⟨heq, _⟩ | ⟨r, hr, ⟨reason, heq⟩ | ⟨n, heq⟩ | ⟨address, heq⟩⟩
  · rw [heq]
    exact ⟨rfl, rfl, h, .inl ⟨rfl, rfl⟩⟩
  · rw [heq]
    exact within_store (r := r.setError reason) h (h i r hr)
  · rw [heq]
    exact within_markFresh h (h i r hr) _ _
  · rw [heq]
    exact ⟨rfl, rfl, recordsCurrent_set (r := r.annotate ("stack:" ++ address) "waiting for exact stack memory read")
      h rfl (h i r hr) rfl, .inl ⟨rfl, rfl⟩⟩

theorem within_memory {s : VVariableRecovery} (h : RecordsCurrent s) (payload : Payload)
    (pending : PendingVRequest) (i : Int) : Within s (s.act (.memory payload pending i)) := by
  rw [act]
  cases hr : s.records.get? i with
  | none =>
    have heq : applyMemoryIndex payload pending s i = s := by
      unfold applyMemoryIndex
      rw [hr]
    rw [heq]
    exact ⟨rfl, rfl, h, .inl ⟨rfl, rfl⟩⟩
  | some r =>
    rcases applyMemoryIndex_cases payload pending hr with ⟨reason, heq⟩ | ⟨n, storage, reason, heq⟩
    · rw [heq]
      exact within_store (r := r.setError reason) h (h i r hr)
    · rw [heq]
      have hfresh := within_markFresh h (h i r hr) (formatHex n) .exactStackLocation
      have hstored := within_store (r := (r.setFresh (formatHex n) .exactStackLocation).annotate storage reason)
        hfresh.records ((h i r hr).trans (by rw [hfresh.pcSeq]))
      exact ⟨hstored.pcSeq.trans hfresh.pcSeq, hstored.maxHistory.trans hfresh.maxHistory, hstored.records,
        .inr ⟨r, formatHex n, h i r hr, markFresh_history_eq s r _ _, markFresh_observations s r _ _⟩⟩

theorem within_readError {s : VVariableRecovery} (h : RecordsCurrent s) (indexes : List Int) (reason : String) :
    Within s (s.act (.readError indexes reason)) := by
  have hloop : ∀ t : VVariableRecovery, RecordsCurrent t → t.pcSeq = s.pcSeq → t.maxHistory = s.maxHistory → Quiet s t →
      Within s (t.markReadError indexes reason) := by
    induction indexes with
    | nil => exact fun t ht hpc hmax hquiet => ⟨hpc, hmax, ht, .inl hquiet⟩
    | cons i indexes ih =>
      intro t ht hpc hmax hquiet
      unfold markReadError at ih ⊢
      rw [List.foldl_cons]
      cases hr : t.records.get? i with
      | none =>
        dsimp only
        exact ih t ht hpc hmax hquiet
      | some r =>
        dsimp only
        have hstored := within_store (r := r.setError reason) ht (ht i r hr)
        exact ih _ hstored.records hpc hmax ⟨hquiet.history, hquiet.observations⟩
  exact hloop s h rfl rfl ⟨rfl, rfl⟩

/-- An action within a context keeps it; every record stays of the context it was made in. -/
theorem act_within {s : VVariableRecovery} (h : RecordsCurrent s) {a : Action} (ha : a.changesContext = false) :
    Within s (s.act a) := by
  cases a with
  | start => cases ha
  | clear => cases ha
  | plan ok selected currentEa runtimePc lvar => exact within_plan h ok selected currentEa runtimePc lvar
  | register registers pending i => exact within_register h registers pending i
  | memory payload pending i => exact within_memory h payload pending i
  | readError indexes reason => exact within_readError h indexes reason
  | await pending => exact ⟨rfl, rfl, h, .inl ⟨rfl, rfl⟩⟩

/-- A context that starts or ends leaves the history as it is. -/
theorem act_boundary (s : VVariableRecovery) {a : Action} (ha : a.changesContext = true) :
    Quiet s (s.act a) ∧ (s.act a).maxHistory = s.maxHistory ∧ RecordsCurrent (s.act a) := by
  cases a with
  | start => exact ⟨⟨rfl, rfl⟩, rfl, fun i r hr => by cases hr⟩
  | clear => exact ⟨⟨rfl, rfl⟩, rfl, fun i r hr => by cases hr⟩
  | _ => cases ha

/-- The successful observation that an action makes. -/
def observed (s : VVariableRecovery) (a : Action) : Option Observation :=
  if s.observations.length < (s.act a).observations.length then (s.act a).observations.head? else none

theorem Quiet.observed {s : VVariableRecovery} {a : Action} (h : Quiet s (s.act a)) : s.observed a = none := by
  rw [VVariableRecovery.observed, h.observations]
  exact if_neg (lt_irrefl _)

theorem Observes.observed {s : VVariableRecovery} {a : Action} {r : VVariableRecoveryRecord} {value : String}
    (h : Observes s (s.act a) r value) : s.observed a = some (s.observation r value) := by
  rw [VVariableRecovery.observed, h.observations]
  exact if_pos (Nat.lt_succ_self _)

/-- The engine with the contexts counted, and for every key the context that recorded it last. -/
structure Traced where
  recovery : VVariableRecovery
  contexts : Nat := 0
  recordedIn : Int × Int → Nat := fun _ => 0

namespace Traced

def init (maxHistory : Int) : Traced := { recovery := VVariableRecovery.init maxHistory }

def act (t : Traced) (a : Action) : Traced :=
  { recovery := t.recovery.act a
    contexts := if a.changesContext then t.contexts + 1 else t.contexts
    recordedIn := (t.recovery.observed a).elim t.recordedIn fun o => Function.update t.recordedIn o.key t.contexts }

/-- The key was recorded in the current context. -/
def Current (t : Traced) (key : Int × Int) : Prop := t.recordedIn key = t.contexts

/-- After an observation the history is within its limit and holds what was observed, and no entry of the current
context went while one of an earlier context stayed. -/
structure KeepsObserved (limit : Nat) (t t' : Traced) (o : Observation) : Prop where
  bounded : t'.recovery.history.size ≤ limit
  recorded : ∃ h, t'.recovery.history.get? o.key = some h ∧ h.name = o.name ∧ h.width = o.width ∧
    h.typeString = o.typeString ∧ h.lvarDefea = o.lvarDefea ∧ h.value = o.value ∧
    h.pcSeq = t.recovery.pcSeq.getD 0
  others : ∀ gone, t'.Current gone → (gone = o.key ∨ ∃ h, t.recovery.history.get? gone = some h) →
    t'.recovery.history.get? gone = none → ∀ left h, t'.recovery.history.get? left = some h → t'.Current left

def Keeps (limit : Nat) (t : Traced) (a : Action) : Prop :=
  ∀ o, t.recovery.observed a = some o → KeepsObserved limit t (t.act a) o

/-- An observation finds room, its key, no entry of an earlier context, or one with a lower `pc_seq`, or with the same
one and before all entries of the current context. -/
def FindsRoom (limit : Nat) (t : Traced) (a : Action) : Prop :=
  ∀ o, t.recovery.observed a = some o →
    HasRoom HistoryValue.pcSeq limit t.recovery.history o.key t.Current (t.recovery.pcSeq.getD 0)

/-- What holds after every action: entries of the current context carry its `pc_seq`. -/
structure Sound (limit : Nat) (t : Traced) : Prop where
  capacity : t.recovery.maxHistory = limit
  bounded : t.recovery.history.size ≤ limit
  earlier : ∀ key h, t.recovery.history.get? key = some h → t.recordedIn key ≤ t.contexts
  current : ∀ key h, t.recovery.history.get? key = some h → t.Current key → h.pcSeq = t.recovery.pcSeq.getD 0
  records : RecordsCurrent t.recovery

theorem init_sound (maxHistory : Int) : Sound (max 1 maxHistory).toNat (init maxHistory) := by
  refine ⟨rfl, Nat.zero_le _, fun _ _ h => ?_, fun _ _ h => ?_, fun _ _ h => ?_⟩
  · cases h
  · cases h
  · cases h

section step
variable {limit : Nat} {t : Traced} {a : Action}

theorem act_recordedIn_quiet (h : Quiet t.recovery (t.recovery.act a)) : (t.act a).recordedIn = t.recordedIn := by
  rw [act, h.observed]
  rfl

theorem act_recordedIn_observes {r : VVariableRecoveryRecord} {value : String}
    (h : Observes t.recovery (t.recovery.act a) r value) : (t.act a).recordedIn =
      Function.update t.recordedIn (t.recovery.observation r value).key t.contexts := by
  rw [act, h.observed]
  rfl

theorem act_contexts (ha : a.changesContext = false) : (t.act a).contexts = t.contexts := by
  rw [act, ha]
  rfl

/-- Recording makes its own key current and no other. -/
theorem act_current {r : VVariableRecoveryRecord} {value : String} (ha : a.changesContext = false)
    (h : Observes t.recovery (t.recovery.act a) r value) (key : Int × Int) :
    (t.act a).Current key ↔ key = (t.recovery.observation r value).key ∨ t.Current key := by
  unfold Current
  rw [act_recordedIn_observes h, act_contexts ha, Function.update_apply]
  split
  · rename_i hkey
    exact iff_of_true rfl (.inl hkey)
  · rename_i hkey
    exact (or_iff_right hkey).symm

theorem act_sound (h : Sound limit t) (a : Action) : Sound limit (t.act a) := by
  cases ha : a.changesContext with
  | true =>
    obtain ⟨hquiet, hmax, hrecords⟩ := act_boundary t.recovery ha
    have hcontexts : (t.act a).contexts = t.contexts + 1 := by
      rw [act, ha]
      rfl
    have hkept : ∀ key x, (t.act a).recovery.history.get? key = some x → (t.act a).recordedIn key ≤ t.contexts := by
      intro key x hx
      rw [act_recordedIn_quiet hquiet]
      exact h.earlier key x (hquiet.history ▸ hx)
    refine ⟨hmax.trans h.capacity, ?_, fun key x hx => ?_, fun key x hx hcurrent => ?_, hrecords⟩
    · change (t.recovery.act a).history.size ≤ limit
      rw [hquiet.history]
      exact h.bounded
    · rw [hcontexts]
      exact (hkept key x hx).trans (Nat.le_succ _)
    · have hle := hkept key x hx
      rw [hcurrent, hcontexts] at hle
      omega
  | false =>
    have hwithin := act_within h.records ha
    have hcontexts := act_contexts (t := t) ha
    have hcapacity : (t.act a).recovery.maxHistory = limit := hwithin.maxHistory.trans h.capacity
    rcases hwithin.records_or_observes with hquiet | ⟨r, value, hobserves⟩
    · have hrecorded := act_recordedIn_quiet (t := t) hquiet
      have hhistory : (t.act a).recovery.history = t.recovery.history := hquiet.history
      refine ⟨hcapacity, ?_, fun key x hx => ?_, fun key x hx hcurrent => ?_, hwithin.records⟩
      · rw [hhistory]
        exact h.bounded
      · rw [hrecorded, hcontexts]
        exact h.earlier key x (hhistory ▸ hx)
      · unfold Current at hcurrent
        rw [hrecorded, hcontexts] at hcurrent
        exact (h.current key x (hhistory ▸ hx) hcurrent).trans (by rw [← hwithin.pcSeq]; rfl)
    · have hhistory : (t.act a).recovery.history = Eviction.record HistoryValue.pcSeq limit t.recovery.history
          (t.recovery.observation r value).key (t.recovery.historyEntry r value) := h.capacity ▸ hobserves.history
      refine ⟨hcapacity, ?_, fun key x hx => ?_, fun key x hx hcurrent => ?_, hwithin.records⟩
      · rw [hhistory]
        exact size_record_le _ h.bounded
      · rw [hhistory] at hx
        rw [act_recordedIn_observes hobserves, hcontexts, Function.update_apply]
        split
        · exact le_rfl
        · rcases get?_record _ hx with ⟨hkey, _⟩ | ⟨_, hold⟩
          · contradiction
          · exact h.earlier key x hold
      · rw [hhistory] at hx
        have hpcSeq : (t.act a).recovery.pcSeq = t.recovery.pcSeq := hwithin.pcSeq
        rw [hpcSeq]
        rcases get?_record _ hx with ⟨_, rfl⟩ | ⟨hne, hold⟩
        · exact hobserves.current
        · exact h.current key x hold (((act_current ha hobserves key).mp hcurrent).resolve_left hne)

/-- What was promised of an observation is what the bounded dictionary keeps. -/
theorem keepsObserved_iff {r : VVariableRecoveryRecord} {value : String} (h : Sound limit t)
    (hobserves : Observes t.recovery (t.recovery.act a) r value) :
    KeepsObserved limit t (t.act a) (t.recovery.observation r value) ↔
      KeepsCurrent HistoryValue.pcSeq limit t.recovery.history (t.recovery.observation r value).key
        (t.recovery.historyEntry r value) (t.act a).Current := by
  have hhistory : (t.act a).recovery.history = Eviction.record HistoryValue.pcSeq limit t.recovery.history
      (t.recovery.observation r value).key (t.recovery.historyEntry r value) := h.capacity ▸ hobserves.history
  constructor
  · intro hkeeps
    obtain ⟨hbounded, ⟨x, hx, _⟩, hothers⟩ := hkeeps
    rw [hhistory] at hbounded hx hothers
    refine ⟨hbounded, ?_, fun gone y hcurrent hy => hothers gone hcurrent ?_⟩
    · rcases get?_record _ hx with ⟨_, rfl⟩ | ⟨hne, _⟩
      · exact hx
      · exact absurd rfl hne
    · rw [Dict.get?_set] at hy
      split at hy
      · rename_i hkey
        exact .inl hkey
      · exact .inr ⟨y, hy⟩
  · intro hkeeps
    obtain ⟨hbounded, hrecorded, hothers⟩ := hkeeps
    refine ⟨hhistory ▸ hbounded, ⟨_, hhistory ▸ hrecorded, rfl, rfl, rfl, rfl, rfl, hobserves.current⟩, ?_⟩
    intro gone hcurrent hthere hgone
    rw [hhistory] at hgone ⊢
    rcases hthere with rfl | ⟨x, hx⟩
    · rw [hrecorded] at hgone
      cases hgone
    · by_cases hkey : gone = (t.recovery.observation r value).key
      · rw [hkey, hrecorded] at hgone
        cases hgone
      · exact hothers gone x hcurrent (by rw [Dict.get?_set_ne _ _ hkey, hx]) hgone

theorem keeps_iff (h : Sound limit t) (hlimit : 0 < limit) (a : Action) : Keeps limit t a ↔ FindsRoom limit t a := by
  unfold Keeps FindsRoom
  cases ha : a.changesContext with
  | true =>
    rw [(act_boundary t.recovery ha).1.observed]
    exact iff_of_true (fun o ho => by cases ho) (fun o ho => by cases ho)
  | false =>
    rcases (act_within h.records ha).records_or_observes with hquiet | ⟨r, value, hobserves⟩
    · rw [hquiet.observed]
      exact iff_of_true (fun o ho => by cases ho) (fun o ho => by cases ho)
    · rw [hobserves.observed]
      simp only [Option.some.injEq, forall_eq']
      have hcurrent := act_current ha hobserves
      have hown : (t.act a).Current (t.recovery.observation r value).key := (hcurrent _).mpr (.inl rfl)
      have hothers : ∀ other, other ≠ (t.recovery.observation r value).key →
          (t.Current other ↔ (t.act a).Current other) :=
        fun other hne => (or_iff_right hne).symm.trans (hcurrent other).symm
      have hkeeps := keepsCurrent_iff HistoryValue.pcSeq (v := t.recovery.historyEntry r value) hlimit h.bounded hown
        fun other x hne hx hother =>
          (h.current other x hx ((hothers other hne).mpr hother)).trans hobserves.current.symm
      rw [hasRoom_congr HistoryValue.pcSeq hothers, ← hobserves.current]
      exact Iff.trans (keepsObserved_iff h hobserves) hkeeps

end step

end Traced

/-- In every run of the engine each observation is kept as promised exactly when each of them finds room, and the
runs of its operations are such runs. -/
theorem history_keeps_observed_iff (maxHistory : Int) :
    (∀ actions : List Action,
      Run.Along Traced.act (Traced.Keeps (max 1 maxHistory).toNat) (Traced.init maxHistory) actions ↔
        Run.Along Traced.act (Traced.FindsRoom (max 1 maxHistory).toNat) (Traced.init maxHistory) actions) ∧
    ∀ ops : List Op, (init maxHistory).run ops = ((init maxHistory).runActions ops).foldl act (init maxHistory) := by
  refine ⟨fun actions => ?_, run_eq_actions (init maxHistory)⟩
  exact Run.along_congr Traced.act (I := Traced.Sound (max 1 maxHistory).toNat) (fun _ a h => Traced.act_sound h a)
    (fun _ a h => Traced.keeps_iff h (by omega) a) (Traced.init_sound maxHistory) actions

/-- One local of this function holding a constant, at this PC sequence number. -/
def constantContext (functionStartEa pcSeq : Int) : Op :=
  .beginPc
    (fun _ _ _ => .ok
      { ok := true
        evidenceByIndex := Dict.empty.set 4 { lvarIndex := 4, storageKind := .constant, constantValue := some 7 } })
    [{ lvarIndex := 4, name := "v4", size := 4, functionStartEa := functionStartEa, isArg := false, argIndex := none }]
    functionStartEa functionStartEa "0x401000" pcSeq none

/-- Room for one entry, and a sequence that starts again: what the second context observes is gone at once. -/
theorem restarted_sequence_loses_observed :
    ¬ ∀ (maxHistory : Int) (ops : List Op),
      Run.Along Traced.act (Traced.Keeps (max 1 maxHistory).toNat) (Traced.init maxHistory)
        ((init maxHistory).runActions ops) := by
  intro h
  let ops := [constantContext 0x1000 5, constantContext 0x2000 1]
  let o : Observation :=
    { functionEa := 0x2000, lvarIndex := 4, name := "v4", width := 4, typeString := "", lvarDefea := "",
      value := "0x7" }
  obtain ⟨_, _, _, _, hkeeps, _⟩ := h 1 ops
  obtain ⟨x, hx, _⟩ := (hkeeps o (by decide)).recorded
  have hlost : ((((init 1).runActions ops).take 5).foldl Traced.act (Traced.init 1)).recovery.history.get?
    o.key = none := by
    decide
  exact absurd (hlost.symm.trans hx) (by simp)

end VVariableRecovery
end DynvarSync.Ida
