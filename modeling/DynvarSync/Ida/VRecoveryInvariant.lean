import DynvarSync.Ida.VRecoveryLemmas

/-! The reachable states of the local recovery engine. One invariant carries
all loops: the indexes still to be handled by a running loop are in flight. -/
namespace DynvarSync.Ida
open Lib PyText

/-- The indexes of those variables an analysis proves a readable location for. -/
def readIndexes (analysis : RecoveryAnalysis) (selected : List Int) (lvars : List VariableRecord) : List Int :=
  (lvars.filter (plansRead analysis selected)).map VariableRecord.lvarIndex

namespace VVariableRecovery

/-- An entry of the pending table belongs to the current context and to its key. -/
structure PendingOk (planned inflight : List Int) (s : VVariableRecovery) (id : String)
    (p : PendingVRequest) : Prop where
  key : p.requestId = id
  pcSeq : s.pcSeq = some p.pcSeq
  runtimePc : p.runtimePc = s.runtimePc
  owned : ∀ i ∈ p.lvarIndexes, i ∈ planned ∧ i ∉ inflight
  nodup : p.lvarIndexes.Nodup
  reg : p.kind = .reg → id = vRegRequestId p.pcSeq
  mem : p.kind = .mem → ∃ i, id = vMemRequestId p.pcSeq i ∧ p.lvarIndexes = [i]

/-- `planned` are the variables with a planned read, `inflight` those of them
whose pending entry a running loop holds in its hands. -/
structure Inv (planned inflight : List Int) (s : VVariableRecovery) : Prop where
  recordKey : ∀ i r, s.records.get? i = some r → r.lvarIndex = i
  recordPc : ∀ i r, s.records.get? i = some r →
    s.pcSeq = some r.currentPcSeq ∧ r.currentRuntimePc = s.runtimePc
  displays : ∀ i r, s.records.get? i = some r → r.Displays
  readable : ∀ i ∈ planned, ∃ r e, s.records.get? i = some r ∧ s.evidence.get? i = some e ∧ e.Readable
  pending : ∀ id p, s.pending.get? id = some p → PendingOk planned inflight s id p
  unique : ∀ id id' p p' i, s.pending.get? id = some p → s.pending.get? id' = some p' →
    i ∈ p.lvarIndexes → i ∈ p'.lvarIndexes → id = id'
  waiting : ∀ i ∈ planned, ∀ r, s.records.get? i = some r →
    (r.Unsettled ↔ i ∈ inflight ∨ ∃ id p, s.pending.get? id = some p ∧ i ∈ p.lvarIndexes)
  flying : ∀ i ∈ inflight, i ∈ planned
  flyingNodup : inflight.Nodup

theorem init_inv (maxHistory : Int) : Inv [] [] (init maxHistory) := by
  constructor <;> simp [init]

/-- A context without records and requests satisfies the invariant. -/
theorem inv_of_empty {s : VVariableRecovery} (hr : s.records = Dict.empty) (hp : s.pending = Dict.empty) :
    Inv [] [] s := by
  constructor <;> simp [hr, hp]

/-- Only the record at `i` was replaced, by a displayable record of the same context. -/
structure Touches (s s' : VVariableRecovery) (i : Int) (r : VVariableRecoveryRecord) : Prop where
  records : ∀ j, s'.records.get? j = if j = i then some r else s.records.get? j
  evidence : s'.evidence = s.evidence
  pcSeq : s'.pcSeq = s.pcSeq
  runtimePc : s'.runtimePc = s.runtimePc
  key : r.lvarIndex = i
  recordPc : s.pcSeq = some r.currentPcSeq ∧ r.currentRuntimePc = s.runtimePc
  displays : r.Displays

theorem touches_store (s : VVariableRecovery) {r : VVariableRecoveryRecord}
    (hpc : s.pcSeq = some r.currentPcSeq ∧ r.currentRuntimePc = s.runtimePc) (hd : r.Displays) :
    Touches s (s.store r) r.lvarIndex r := by
  refine ⟨fun j => ?_, rfl, rfl, rfl, rfl, hpc, hd⟩
  rw [store_records, Dict.get?_set]

theorem touches_markFresh (s : VVariableRecovery) {r : VVariableRecoveryRecord} (n : Nat) (c : Confidence)
    (hpc : s.pcSeq = some r.currentPcSeq ∧ r.currentRuntimePc = s.runtimePc) :
    Touches s (s.markFresh r (formatHex n) c) r.lvarIndex (r.setFresh (formatHex n) c) := by
  refine ⟨fun j => ?_, by simp, by simp, by simp, rfl, hpc, r.setFresh_displays _ _ (formatHex_ne_empty n)⟩
  rw [markFresh_records, Dict.get?_set]

/-- Annotating the replaced record replaces it once more. -/
theorem Touches.annotate {s s' : VVariableRecovery} {i : Int} {r : VVariableRecoveryRecord}
    (ht : Touches s s' i r) (storage reason : String) :
    Touches s (s'.store (r.annotate storage reason)) i (r.annotate storage reason) := by
  refine ⟨fun j => ?_, ht.evidence, ht.pcSeq, ht.runtimePc, ht.key, ht.recordPc,
    ht.displays.annotate storage reason⟩
  rw [store_records, Dict.get?_set, ht.records, VVariableRecoveryRecord.annotate_lvarIndex, ht.key]
  split <;> rfl

section steps
variable {planned inflight rest : List Int} {s s' : VVariableRecovery} {i : Int}
  {r : VVariableRecoveryRecord}

theorem Touches.inv_record (ht : Touches s s' i r) (hi : Inv planned inflight s) :
    ∀ j r', s'.records.get? j = some r' → r'.lvarIndex = j ∧
      (s'.pcSeq = some r'.currentPcSeq ∧ r'.currentRuntimePc = s'.runtimePc) ∧ r'.Displays := by
  intro j r' hr'
  rw [ht.records] at hr'
  rw [ht.pcSeq, ht.runtimePc]
  split at hr'
  · rename_i hj
    cases hr'
    exact ⟨hj ▸ ht.key, ht.recordPc, ht.displays⟩
  · exact ⟨hi.recordKey j r' hr', hi.recordPc j r' hr', hi.displays j r' hr'⟩

theorem Touches.inv_planned (ht : Touches s s' i r) (hi : Inv planned inflight s) :
    ∀ j ∈ planned, ∃ r e, s'.records.get? j = some r ∧ s'.evidence.get? j = some e ∧ e.Readable := by
  intro j hj
  obtain ⟨r', e, hr', he, hread⟩ := hi.readable j hj
  rw [ht.records, ht.evidence]
  by_cases h : j = i
  · exact ⟨r, e, if_pos h, he, hread⟩
  · exact ⟨r', e, by rw [if_neg h, hr'], he, hread⟩

theorem PendingOk.transfer {id : String} {p : PendingVRequest} (h : PendingOk planned inflight s id p)
    (hpc : s'.pcSeq = s.pcSeq) (hrt : s'.runtimePc = s.runtimePc) {planned' inflight' : List Int}
    (hp : ∀ i ∈ p.lvarIndexes, i ∈ planned' ∧ i ∉ inflight') : PendingOk planned' inflight' s' id p :=
  ⟨h.key, hpc ▸ h.pcSeq, hrt ▸ h.runtimePc, hp, h.nodup, h.reg, h.mem⟩

/-- The loop settles the next index in flight. -/
theorem inv_settle (hi : Inv planned (i :: rest) s) (ht : Touches s s' i r)
    (hpend : s'.pending = s.pending) (hs : ¬ r.Unsettled) : Inv planned rest s' := by
  have hrec := ht.inv_record hi
  have hnotin := (List.nodup_cons.mp hi.flyingNodup).1
  refine ⟨fun j r' h => (hrec j r' h).1, fun j r' h => (hrec j r' h).2.1,
    fun j r' h => (hrec j r' h).2.2, ht.inv_planned hi, ?_, ?_, ?_,
    fun j hj => hi.flying j (List.mem_cons_of_mem i hj), (List.nodup_cons.mp hi.flyingNodup).2⟩
  · intro id p hp
    have hok := hi.pending id p (hpend ▸ hp)
    exact hok.transfer ht.pcSeq ht.runtimePc fun j hj =>
      ⟨(hok.owned j hj).1, fun h => (hok.owned j hj).2 (List.mem_cons_of_mem i h)⟩
  · rw [hpend]
    exact hi.unique
  · intro j hj r' hr'
    rw [ht.records] at hr'
    rw [hpend]
    split at hr'
    · rename_i hji
      cases hr'
      subst hji
      constructor
      · exact fun h => absurd h hs
      · rintro (h | ⟨id, p, hp, hjp⟩)
        · exact absurd h hnotin
        · exact absurd (List.mem_cons_self ..) ((hi.pending id p hp).owned j hjp).2
    · rename_i hji
      rw [hi.waiting j hj r' hr', List.mem_cons, or_iff_right hji]

/-- The loop replaces the register read of the next index by its memory read. -/
theorem inv_wait (hi : Inv planned (i :: rest) s) (ht : Touches s s' i r) (hu : r.Unsettled)
    {p : PendingVRequest} (hkind : p.kind = .mem) (hpc : s.pcSeq = some p.pcSeq)
    (hrt : p.runtimePc = s.runtimePc) (hid : p.requestId = vMemRequestId p.pcSeq i)
    (hidx : p.lvarIndexes = [i])
    (hpend : s'.pending = s.pending.set (vMemRequestId p.pcSeq i) p) : Inv planned rest s' := by
  have hrec := ht.inv_record hi
  have hnotin := (List.nodup_cons.mp hi.flyingNodup).1
  have hiplan := hi.flying i (List.mem_cons_self ..)
  have hfree : ∀ id q, s.pending.get? id = some q → i ∉ q.lvarIndexes := fun id q hq hiq =>
    ((hi.pending id q hq).owned i hiq).2 (List.mem_cons_self ..)
  have hnew : s.pending.get? (vMemRequestId p.pcSeq i) = none := by
    cases hq : s.pending.get? (vMemRequestId p.pcSeq i) with
    | none => rfl
    | some q =>
      have hok := hi.pending _ q hq
      have hseq : p.pcSeq = q.pcSeq := Option.some.inj (hpc.symm.trans hok.pcSeq)
      cases hk : q.kind with
      | reg => exact absurd (hok.reg hk).symm (vRegRequestId_ne_vMemRequestId _ _ _)
      | mem =>
        obtain ⟨j, hj, hjs⟩ := hok.mem hk
        rw [← hseq] at hj
        rw [← vMemRequestId_injective hj] at hjs
        exact absurd (by simp [hjs]) (hfree _ q hq)
  have hget : ∀ id q, s'.pending.get? id = some q →
      (id = vMemRequestId p.pcSeq i ∧ q = p) ∨ (id ≠ vMemRequestId p.pcSeq i ∧ s.pending.get? id = some q) := by
    intro id q hq
    rw [hpend, Dict.get?_set] at hq
    split at hq
    · exact .inl ⟨‹_›, (Option.some.inj hq).symm⟩
    · exact .inr ⟨‹_›, hq⟩
  refine ⟨fun j r' h => (hrec j r' h).1, fun j r' h => (hrec j r' h).2.1,
    fun j r' h => (hrec j r' h).2.2, ht.inv_planned hi, ?_, ?_, ?_,
    fun j hj => hi.flying j (List.mem_cons_of_mem i hj), (List.nodup_cons.mp hi.flyingNodup).2⟩
  · intro id q hq
    rcases hget id q hq with ⟨rfl, rfl⟩ | ⟨_, hq⟩
    · refine ⟨hid, by rw [ht.pcSeq, hpc], by rw [ht.runtimePc, hrt], ?_, by simp [hidx],
        fun h => absurd (h.symm.trans hkind) (by decide), fun _ => ⟨i, rfl, hidx⟩⟩
      intro j hj
      rw [hidx, List.mem_singleton] at hj
      exact hj ▸ ⟨hiplan, hnotin⟩
    · have hok := hi.pending id q hq
      exact hok.transfer ht.pcSeq ht.runtimePc fun j hj =>
        ⟨(hok.owned j hj).1, fun h => (hok.owned j hj).2 (List.mem_cons_of_mem i h)⟩
  · intro id id' q q' j hq hq' hj hj'
    rcases hget id q hq with ⟨rfl, rfl⟩ | ⟨_, hq⟩ <;> rcases hget id' q' hq' with ⟨rfl, rfl⟩ | ⟨_, hq'⟩
    · rfl
    · rw [hidx, List.mem_singleton] at hj
      exact absurd (hj ▸ hj') (hfree id' q' hq')
    · rw [hidx, List.mem_singleton] at hj'
      exact absurd (hj' ▸ hj) (hfree id q hq)
    · exact hi.unique id id' q q' j hq hq' hj hj'
  · intro j hj r' hr'
    rw [ht.records] at hr'
    split at hr'
    · rename_i hji
      cases hr'
      refine iff_of_true hu (.inr ⟨_, p, by rw [hpend, Dict.get?_set_self], ?_⟩)
      rw [hidx, hji]
      exact List.mem_singleton_self i
    · rename_i hji
      rw [hi.waiting j hj r' hr', List.mem_cons, or_iff_right hji]
      constructor
      · rintro (h | ⟨id, q, hq, hjq⟩)
        · exact .inl h
        · refine .inr ⟨id, q, ?_, hjq⟩
          rw [hpend, Dict.get?_set_ne _ _ (fun h => by rw [h, hnew] at hq; cases hq), hq]
      · rintro (h | ⟨id, q, hq, hjq⟩)
        · exact .inl h
        · rcases hget id q hq with ⟨rfl, rfl⟩ | ⟨_, hq⟩
          · rw [hidx, List.mem_singleton] at hjq
            exact absurd hjq hji
          · exact .inr ⟨id, q, hq, hjq⟩

/-- Planning leaves a variable without a read. -/
theorem inv_skip (hi : Inv planned inflight s) (ht : Touches s s' i r)
    (hpend : s'.pending = s.pending) (hn : i ∉ planned) : Inv planned inflight s' := by
  have hrec := ht.inv_record hi
  refine ⟨fun j r' h => (hrec j r' h).1, fun j r' h => (hrec j r' h).2.1,
    fun j r' h => (hrec j r' h).2.2, ht.inv_planned hi, ?_, ?_, ?_, hi.flying, hi.flyingNodup⟩
  · intro id p hp
    have hok := hi.pending id p (hpend ▸ hp)
    exact hok.transfer ht.pcSeq ht.runtimePc hok.owned
  · rw [hpend]
    exact hi.unique
  · intro j hj r' hr'
    rw [ht.records, if_neg (fun h : j = i => hn (h ▸ hj))] at hr'
    rw [hpend]
    exact hi.waiting j hj r' hr'

/-- Planning puts a variable's register read in flight. -/
theorem inv_plan (hi : Inv planned inflight s) (ht : Touches s s' i r)
    (hpend : s'.pending = s.pending) (hu : r.Unsettled) (hn : i ∉ planned)
    (he : ∃ e, s.evidence.get? i = some e ∧ e.Readable) : Inv (planned ++ [i]) (inflight ++ [i]) s' := by
  have hrec := ht.inv_record hi
  have hfree : ∀ id q, s.pending.get? id = some q → ∀ j ∈ q.lvarIndexes, j ≠ i := fun id q hq j hj h =>
    hn (h ▸ ((hi.pending id q hq).owned j hj).1)
  refine ⟨fun j r' h => (hrec j r' h).1, fun j r' h => (hrec j r' h).2.1,
    fun j r' h => (hrec j r' h).2.2, ?_, ?_, ?_, ?_, ?_, ?_⟩
  · intro j hj
    rcases List.mem_append.mp hj with hj | hj
    · exact ht.inv_planned hi j hj
    · obtain ⟨e, he, hread⟩ := he
      rw [List.mem_singleton.mp hj, ht.records, if_pos rfl, ht.evidence]
      exact ⟨r, e, rfl, he, hread⟩
  · intro id p hp
    have hok := hi.pending id p (hpend ▸ hp)
    refine hok.transfer ht.pcSeq ht.runtimePc fun j hj => ?_
    have hji := hfree id p (hpend ▸ hp) j hj
    simp [hok.owned j hj, hji]
  · rw [hpend]
    exact hi.unique
  · intro j hj r' hr'
    rw [hpend]
    rw [ht.records] at hr'
    split at hr'
    · rename_i hji
      cases hr'
      exact iff_of_true hu (.inl (by simp [hji]))
    · rename_i hji
      have hj : j ∈ planned := by simpa [hji] using hj
      rw [hi.waiting j hj r' hr', List.mem_append, List.mem_singleton, or_iff_left hji]
  · intro j hj
    rcases List.mem_append.mp hj with hj | hj
    · exact List.mem_append_left _ (hi.flying j hj)
    · exact List.mem_append_right _ hj
  · exact List.Nodup.append hi.flyingNodup (List.nodup_singleton i)
      (by simpa using fun h => hn (hi.flying i h))

end steps

/-- Fresh and failed records keep their content. -/
def Settles (s s' : VVariableRecovery) : Prop :=
  ∀ i r, s.records.get? i = some r → ¬ r.Unsettled → s'.records.get? i = some r

/-- A turn of a response loop over `i :: rest`, or several of them. -/
structure Turn (planned rest : List Int) (s s' : VVariableRecovery) : Prop where
  inv : Inv planned rest s'
  settles : Settles s s'
  pcSeq : s'.pcSeq = s.pcSeq
  runtimePc : s'.runtimePc = s.runtimePc

theorem Turn.trans {planned mid rest : List Int} {s t u : VVariableRecovery} (h : Turn planned mid s t)
    (h' : Turn planned rest t u) : Turn planned rest s u :=
  ⟨h'.inv, fun i r hr hs => h'.settles i r (h.settles i r hr hs) hs, h'.pcSeq.trans h.pcSeq,
    h'.runtimePc.trans h.runtimePc⟩

section loops
variable {planned rest : List Int} {s s' : VVariableRecovery} {i : Int} {r r' : VVariableRecoveryRecord}

/-- The record of the next index in flight, with its evidence. -/
theorem Inv.head (hi : Inv planned (i :: rest) s) : ∃ r e, s.records.get? i = some r ∧
    s.evidence.get? i = some e ∧ e.Readable ∧ r.Unsettled ∧ r.lvarIndex = i ∧ r.Displays ∧
    s.pcSeq = some r.currentPcSeq ∧ r.currentRuntimePc = s.runtimePc := by
  have hplan := hi.flying i (List.mem_cons_self ..)
  obtain ⟨r, e, hr, he, hread⟩ := hi.readable i hplan
  exact ⟨r, e, hr, he, hread, (hi.waiting i hplan r hr).mpr (.inl (List.mem_cons_self ..)),
    hi.recordKey i r hr, hi.displays i r hr, hi.recordPc i r hr⟩

theorem Touches.settles (ht : Touches s s' i r') (hr : s.records.get? i = some r) (hu : r.Unsettled) :
    Settles s s' := by
  intro j q hq hs
  rw [ht.records, if_neg, hq]
  rintro rfl
  rw [hr] at hq
  cases hq
  exact hs hu

private theorem turn_settle (hi : Inv planned (i :: rest) s) (hr : s.records.get? i = some r)
    (hu : r.Unsettled) (ht : Touches s s' i r') (hpend : s'.pending = s.pending) (hs : ¬ r'.Unsettled) :
    Turn planned rest s s' :=
  ⟨inv_settle hi ht hpend hs, ht.settles hr hu, ht.pcSeq, ht.runtimePc⟩

/-- A failed read settles the next index. -/
theorem turn_error (hi : Inv planned (i :: rest) s) (reason : String) :
    ∃ r, s.records.get? i = some r ∧ Turn planned rest s (s.store (r.setError reason)) := by
  obtain ⟨r, e, hr, _, _, hu, hkey, hd, hpc⟩ := hi.head
  have ht := touches_store s (r := r.setError reason) hpc (r.setError_displays reason)
  rw [show (r.setError reason).lvarIndex = i from hkey] at ht
  exact ⟨r, hr, turn_settle hi hr hu ht rfl (r.setError_settled reason)⟩

theorem turn_register (registers : Payload) {pending : PendingVRequest} (out : List Request)
    (hpc : s.pcSeq = some pending.pcSeq) (hrt : pending.runtimePc = s.runtimePc)
    (hi : Inv planned (i :: rest) s) :
    Turn planned rest s (applyRegisterIndex registers pending (s, out) i).1 := by
  obtain ⟨r, e, hr, he, hread, hu, hkey, hd, hrpc⟩ := hi.head
  rcases applyRegisterIndex_cases s i registers pending out with ⟨_, hnot⟩ | ⟨r', hr', hcases⟩
  · exact absurd hread (hnot r e hr he)
  rw [hr] at hr'
  cases hr'
  rcases hcases with ⟨reason, heq⟩ | ⟨n, heq⟩ | ⟨address, heq⟩
  · obtain ⟨r', hr', hturn⟩ := turn_error hi reason
    rw [hr] at hr'
    cases hr'
    rw [heq]
    exact hturn
  · rw [heq]
    have ht := touches_markFresh s n .exactRegisterLocation hrpc
    rw [hkey] at ht
    exact turn_settle hi hr hu ht (by simp) (r.setFresh_settled _ _)
  · rw [heq]
    have ht := (touches_store s hrpc hd).annotate ("stack:" ++ address) "waiting for exact stack memory read"
    rw [hkey] at ht
    have ht' : Touches s (s.awaitMemory r pending i address) i _ :=
      ⟨fun j => ?_, ht.evidence, ht.pcSeq, ht.runtimePc, ht.key, ht.recordPc, ht.displays⟩
    · exact ⟨inv_wait (p := memPending pending i address r.width) hi ht' hu rfl hpc hrt rfl rfl rfl,
        ht'.settles hr hu, rfl, rfl⟩
    · rw [← ht.records]
      simp [awaitMemory, Dict.get?_set]
      split <;> rfl

theorem turn_memory (payload : Payload) (pending : PendingVRequest) (hi : Inv planned (i :: rest) s) :
    Turn planned rest s (applyMemoryIndex payload pending s i) := by
  obtain ⟨r, e, hr, he, hread, hu, hkey, hd, hrpc⟩ := hi.head
  rcases applyMemoryIndex_cases payload pending hr with ⟨reason, heq⟩ | ⟨n, storage, reason, heq⟩
  · obtain ⟨r', hr', hturn⟩ := turn_error hi reason
    rw [hr] at hr'
    cases hr'
    rw [heq]
    exact hturn
  · rw [heq]
    have ht := touches_markFresh s n .exactStackLocation hrpc
    rw [hkey] at ht
    exact turn_settle hi hr hu (ht.annotate storage reason) (by simp) (by simp)

/-- Turns compose to a loop over the indexes in flight. -/
theorem turn_foldl {σ : Type} (proj : σ → VVariableRecovery) (f : σ → Int → σ) (good : VVariableRecovery → Prop)
    (hgood : ∀ s s', good s → s'.pcSeq = s.pcSeq → s'.runtimePc = s.runtimePc → good s')
    (hturn : ∀ a i rest, good (proj a) → Inv planned (i :: rest) (proj a) →
      Turn planned rest (proj a) (proj (f a i)))
    (indexes : List Int) (a : σ) (hg : good (proj a)) (hi : Inv planned indexes (proj a)) :
    Turn planned [] (proj a) (proj (indexes.foldl f a)) := by
  induction indexes generalizing a with
  | nil => exact ⟨hi, fun _ _ h _ => h, rfl, rfl⟩
  | cons i rest ih =>
    have h := hturn a i rest hg hi
    exact h.trans (ih (f a i) (hgood _ _ hg h.pcSeq h.runtimePc) h.inv)

end loops

end VVariableRecovery
end DynvarSync.Ida
