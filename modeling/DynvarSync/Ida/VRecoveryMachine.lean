import DynvarSync.Ida.VRecoveryReplies

/-! One context answered by one machine from the first request to the last
reply, for any mix of evidence and any order of the memory replies. -/
namespace DynvarSync.Ida.VVariableRecovery
open Lib PyText Windbg

/-- The machine answers the planned register request, if there is one. -/
def answerRegisters (m : Machine) (planned : VVariableRecovery × Option Request) :
    VVariableRecovery × List Request :=
  match planned.2 with
  | none => (planned.1, [])
  | some request =>
    let applied := planned.1.applyRegResponse (m.regResponse request.payload)
    (applied.recovery, applied.memRequests)

/-- The machine answers memory requests one by one. -/
def answerMemory (m : Machine) (s : VVariableRecovery) (requests : List Request) : VVariableRecovery :=
  requests.foldl (fun s request => (s.applyMemResponse (m.memResponse request.payload)).recovery) s

/-- The value each kind of evidence of an accepted width calls for. -/
structure ShowsMachine (m : Machine) (lvar : VariableRecord) (e : RecoveryEvidence)
    (r : VVariableRecoveryRecord) : Prop where
  register : ∀ spec, e.storageKind = .register → e.register = some spec → lvar.size ∈ supportedWidths →
    lvar.size ≤ spec.width → r.recoveryStatus = .fresh ∧ r.value = registerValue m spec lvar.size
  stack : ∀ offset, e.storageKind = .stack → e.stackPointerOffset = some offset → lvar.size ∈ supportedWidths →
    let address := ((m.registers "rsp").toNat : Int) + offset
    if 0 ≤ address ∧ address < 2 ^ 64 then
      r.recoveryStatus = .fresh ∧ r.value = m.memoryText address.toNat lvar.size
    else r.recoveryStatus = .error
  constant : ∀ c, e.storageKind = .constant → e.constantValue = some c → lvar.size ∈ supportedWidths →
    r.recoveryStatus = .fresh ∧ r.value = formatHex (maskWidth c lvar.size)

section answers
variable (m : Machine) (pending : PendingVRequest) (names : List String)

/-- The follow-up read of a variable whose register read gave an address. -/
def Read.memRead? (registers : Payload) (x : Read) : Option MemRead :=
  match readOutcome registers x.evidence x.record with
  | .waits address => some
      { index := x.index, address := ((intAuto address).getD 0).toNat
        record := x.record.annotate ("stack:" ++ address) "waiting for exact stack memory read" }
  | _ => none

theorem exists_reads (s : VVariableRecovery) (indexes : List Int)
    (h : ∀ i ∈ indexes, ∃ r e, s.records.get? i = some r ∧ s.evidence.get? i = some e ∧ r.lvarIndex = i) :
    ∃ reads : List Read, reads.map Read.index = indexes ∧ ∀ x ∈ reads, x.Ready s := by
  induction indexes with
  | nil => exact ⟨[], rfl, fun _ h => by cases h⟩
  | cons i rest ih =>
    obtain ⟨r, e, hr, he, hi⟩ := h i (List.mem_cons_self ..)
    obtain ⟨reads, hmap, hready⟩ := ih fun j hj => h j (List.mem_cons_of_mem i hj)
    refine ⟨⟨i, r, e⟩ :: reads, by rw [List.map_cons, hmap], fun x hx => ?_⟩
    rcases List.mem_cons.mp hx with rfl | hx
    · exact ⟨hr, he, hi⟩
    · exact hready x hx

/-- A stack address in range is the text of a natural number. -/
theorem readOutcome_stack {e : RecoveryEvidence} {r : VVariableRecoveryRecord} {offset : Int}
    (hk : e.storageKind = .stack) (ho : e.stackPointerOffset = some offset) (hn : "rsp" ∈ names) :
    let address := ((m.registers "rsp").toNat : Int) + offset
    if 0 ≤ address ∧ address < 2 ^ 64 then
      readOutcome (m.registerTexts names) e r = .waits (formatHex (address.toNat : Int))
    else ∃ reason, readOutcome (m.registerTexts names) e r = .failed reason := by
  have h := concreteStackAddress_machine m offset hn
  dsimp only
  unfold readOutcome
  split
  · rename_i hrange
    rw [if_pos hrange] at h
    simp only [hk, ho, h, Int.toNat_of_nonneg hrange.1]
  · rename_i hrange
    rw [if_neg hrange] at h
    simp only [hk, ho, h]
    exact ⟨_, rfl⟩

theorem readOutcome_register {e : RecoveryEvidence} {r : VVariableRecoveryRecord} {spec : RegisterSpec}
    (hk : e.storageKind = .register) (hs : e.register = some spec) (hn : spec.fullRegister ∈ names)
    (hw : r.width ∈ supportedWidths) (hle : r.width ≤ spec.width) (ho : 0 ≤ spec.bitOffset) :
    readOutcome (m.registerTexts names) e r = .fresh (registerValue m spec r.width) := by
  unfold readOutcome
  simp only [hk, hs, extractRegisterValue_machine m hn hw hle ho]

theorem readOutcome_waits {registers : Payload} {e : RecoveryEvidence} {r : VVariableRecoveryRecord}
    {address : String} (h : readOutcome registers e r = .waits address) : ∃ n : Nat, address = formatHex n := by
  unfold readOutcome at h
  split at h
  · split at h <;> cases h
  · split at h
    · cases h
    · rename_i offset _ _ _ hc
      cases h
      unfold concreteStackAddress at hc
      split at hc
      · cases hc
      · rename_i number _
        dsimp only at hc
        split at hc
        · cases hc
        · rename_i hrange
          cases hc
          rw [not_or, Int.not_lt] at hrange
          exact ⟨_, congrArg formatHex (Int.toNat_of_nonneg hrange.1).symm⟩
  · cases h

theorem request?_eq_map (registers : Payload) (x : Read) :
    x.request? registers pending = (x.memRead? registers).map (MemRead.request pending) := by
  unfold Read.request? Read.memRead?
  cases h : readOutcome registers x.evidence x.record with
  | waits address =>
    obtain ⟨n, rfl⟩ := readOutcome_waits h
    simp only [Option.map_some, MemRead.request, intAuto_formatHex]
    rfl
  | fresh value => rfl
  | failed reason => rfl
  | ignored => rfl

/-- After the register loop the follow-up read is ready for its reply. -/
theorem memRead_ready {registers : Payload} {x : Read} {y : MemRead} {s : VVariableRecovery}
    (hpc : s.pcSeq = some pending.pcSeq) (hrt : s.runtimePc = pending.runtimePc)
    (hidx : x.record.lvarIndex = x.index) (hw : x.record.width ∈ supportedWidths)
    (hx : x.Answered registers pending s) (hy : x.memRead? registers = some y) :
    y.Ready pending s ∧ y.index = x.index ∧ y.record.width = x.record.width := by
  unfold Read.memRead? at hy
  unfold Read.Answered at hx
  split at hy
  · rename_i address h
    rw [h] at hx
    obtain ⟨n, rfl⟩ := readOutcome_waits h
    cases hy
    refine ⟨⟨hpc, hrt, ?_, hx.1, hidx, hw⟩, rfl, rfl⟩
    rw [intAuto_formatHex]
    exact hx.2
  · cases hy

/-- The machine's register reply is accepted and read by the loop. -/
theorem applyRegResponse_machine {s : VVariableRecovery} (hkind : pending.kind = .reg)
    (hpc : s.pcSeq = some pending.pcSeq) (hrt : s.runtimePc = pending.runtimePc)
    (hget : s.pending.get? (vRegRequestId pending.pcSeq) = some pending) :
    let applied := s.applyRegResponse (m.regResponse (regRequest pending).payload)
    (applied.recovery, applied.memRequests) =
      pending.lvarIndexes.foldl (applyRegisterIndex (m.registerTexts pending.registers) pending)
        ({ s with pending := s.pending.pop (vRegRequestId pending.pcSeq) }, []) := by
  have hreply : m.regResponse (regRequest pending).payload =
      [("pc_seq", .int pending.pcSeq), ("request_id", .str (vRegRequestId pending.pcSeq)),
       ("runtime_pc", .str pending.runtimePc), ("ok", .bool true),
       ("registers", .obj (m.registerTexts pending.registers))] := by
    have hnames : Machine.requestedRegisters (regRequest pending).payload = pending.registers := by
      rw [Machine.requestedRegisters]
      exact Machine.filterMap_asStr_map pending.registers
    rw [Machine.regResponse, hnames]
    simp [regRequest]
  have htake : s.takePending (m.regResponse (regRequest pending).payload) .reg =
      .ok (pending, { s with pending := s.pending.pop (vRegRequestId pending.pcSeq) }) := by
    rw [hreply]
    simp [takePending, hpc, hrt, Json.asStr, hget, hkind]
  unfold applyRegResponse
  rw [htake, hreply]
  simp [Json.asObj]

theorem memReads_sublist (registers : Payload) (reads : List Read) :
    ((reads.filterMap (Read.memRead? registers)).map MemRead.index).Sublist (reads.map Read.index) := by
  induction reads with
  | nil => exact .slnil
  | cons x reads ih =>
    rw [List.map_cons]
    cases h : x.memRead? registers with
    | none =>
      rw [List.filterMap_cons_none h]
      exact ih.cons _
    | some y =>
      have hidx : y.index = x.index := by
        unfold Read.memRead? at h
        split at h <;> cases h
        rfl
      rw [List.filterMap_cons_some h, List.map_cons, hidx]
      exact ih.cons_cons _

end answers

/-- Where a variable stands once the register request is answered: its memory
read is outstanding, or its record already shows the machine. -/
def Stands (m : Machine) (lvar : VariableRecord) (e : RecoveryEvidence) (memReads : List MemRead)
    (s : VVariableRecovery) : Prop :=
  (∃ x ∈ memReads, x.index = lvar.lvarIndex ∧ x.record.width = lvar.size ∧ ∃ offset,
    e.storageKind = .stack ∧ e.stackPointerOffset = some offset ∧
    (0 ≤ ((m.registers "rsp").toNat : Int) + offset ∧ ((m.registers "rsp").toNat : Int) + offset < 2 ^ 64) ∧
    x.address = (((m.registers "rsp").toNat : Int) + offset).toNat) ∨
  (lvar.lvarIndex ∉ memReads.map MemRead.index ∧
    ∃ r, s.records.get? lvar.lvarIndex = some r ∧ ShowsMachine m lvar e r)

section stages
variable {m : Machine} {analysis : RecoveryAnalysis} {selected : List Int} {runtimePc : String} {pcSeq : Int}
  {lvars : List VariableRecord} {p : PlanState}

/-- With distinct indexes, a variable's index is planned exactly when its evidence accepts a read. -/
theorem mem_readIndexes_iff (hok : analysis.ok = true) (hnodup : (lvars.map VariableRecord.lvarIndex).Nodup)
    {lvar : VariableRecord} (hl : lvar ∈ lvars) (hs : lvar.lvarIndex ∈ selected) {e : RecoveryEvidence}
    (he : analysis.evidenceByIndex.get? lvar.lvarIndex = some e) :
    lvar.lvarIndex ∈ readIndexes analysis selected lvars ↔ e.acceptsRead lvar.size = true := by
  have hplans : plansRead analysis selected lvar = e.acceptsRead lvar.size := by
    simp [plansRead, hok, hs, he]
  constructor
  · intro h
    obtain ⟨other, hother, hidx⟩ := List.mem_map.mp h
    obtain ⟨hmem, hread⟩ := List.mem_filter.mp hother
    rw [List.inj_on_of_nodup_map hnodup hmem hl hidx] at hread
    exact hplans ▸ hread
  · intro h
    exact List.mem_map_of_mem (List.mem_filter.mpr ⟨hl, hplans.trans h⟩)

/-- Distinct follow-up reads have distinct sources. -/
theorem not_mem_memReads {registers : Payload} {reads : List Read} (hnodup : (reads.map Read.index).Nodup) {x : Read}
    (hx : x ∈ reads) (hnone : x.memRead? registers = none) :
    x.index ∉ (reads.filterMap (Read.memRead? registers)).map MemRead.index := by
  intro h
  obtain ⟨y, hy, hidx⟩ := List.mem_map.mp h
  obtain ⟨x', hx', hsome⟩ := List.mem_filterMap.mp hy
  have hsame : y.index = x'.index := by
    unfold Read.memRead? at hsome
    split at hsome <;> cases hsome
    rfl
  rw [List.inj_on_of_nodup_map hnodup hx' hx (hsame.symm.trans hidx), hnone] at hsome
  cases hsome

/-- A read the machine has answered stands as its evidence says. -/
theorem stands_of_answered {reads : List Read} (hnodup : (reads.map Read.index).Nodup) {x : Read} (hx : x ∈ reads)
    {lvar : VariableRecord} (hi : x.index = lvar.lvarIndex) (hplan : Planned lvar x.evidence p x.record)
    (haccept : x.evidence.acceptsRead lvar.size = true)
    (hspec : ∀ spec, x.evidence.storageKind = .register → x.evidence.register = some spec → 0 ≤ spec.bitOffset)
    {pending : PendingVRequest}
    (hnames : ∀ register ∈ p.neededRegisters, register ∈ pending.registers) {s : VVariableRecovery}
    (hanswered : x.Answered (m.registerTexts pending.registers) pending s) :
    Stands m lvar x.evidence (reads.filterMap (Read.memRead? (m.registerTexts pending.registers))) s := by
  unfold Read.Answered at hanswered
  rcases (x.evidence.acceptsRead_iff _).mp haccept with ⟨hk, spec, hreg, hw, hle⟩ | ⟨hk, offset, ho, hw⟩
  · have hout := readOutcome_register m pending.registers (r := x.record) hk hreg
      (hnames _ (hplan.register haccept spec hk hreg)) (by rwa [hplan.width]) (by rwa [hplan.width])
      (hspec spec hk hreg)
    rw [hout] at hanswered
    have hnone : x.memRead? (m.registerTexts pending.registers) = none := by rw [Read.memRead?, hout]
    refine .inr ⟨hi ▸ not_mem_memReads hnodup hx hnone, _, hi ▸ hanswered, ?_, ?_, ?_⟩
    · intro spec' _ hreg' _ _
      rw [hreg] at hreg'
      cases hreg'
      exact ⟨rfl, by rw [← hplan.width]; rfl⟩
    · exact fun _ hk' => absurd (hk.symm.trans hk') (by decide)
    · exact fun _ hk' => absurd (hk.symm.trans hk') (by decide)
  · have hout := readOutcome_stack m pending.registers (r := x.record) hk ho (hnames _ (hplan.stack haccept hk))
    dsimp only at hout
    split at hout
    · rename_i hrange
      have hsome := Read.memRead?.eq_def (m.registerTexts pending.registers) x
      rw [hout] at hsome
      refine .inl ⟨_, List.mem_filterMap.mpr ⟨x, hx, hsome⟩, hi, hplan.width, offset, hk, ho, hrange, ?_⟩
      rw [intAuto_formatHex]
      rfl
    · rename_i hrange
      obtain ⟨reason, hout⟩ := hout
      rw [hout] at hanswered
      have hnone : x.memRead? (m.registerTexts pending.registers) = none := by rw [Read.memRead?, hout]
      refine .inr ⟨hi ▸ not_mem_memReads hnodup hx hnone, _, hi ▸ hanswered, ?_, ?_, ?_⟩
      · exact fun _ hk' => absurd (hk.symm.trans hk') (by decide)
      · intro offset' _ ho' _
        rw [ho] at ho'
        cases ho'
        rw [if_neg hrange]
        rfl
      · exact fun _ hk' => absurd (hk.symm.trans hk') (by decide)

/-- The register stage, once the plan's register request is registered. -/
theorem register_stage (hok : analysis.ok = true) (hnodup : (lvars.map VariableRecord.lvarIndex).Nodup)
    (hp : PlanInv analysis selected runtimePc pcSeq lvars p)
    (hplanned : ∀ lvar ∈ lvars, ∀ e, lvar.lvarIndex ∈ selected →
      analysis.evidenceByIndex.get? lvar.lvarIndex = some e → ∃ r, Planned lvar e p r)
    (hspec : ∀ i e spec, analysis.evidenceByIndex.get? i = some e → e.storageKind = .register →
      e.register = some spec → 0 ≤ spec.bitOffset)
    (pending : PendingVRequest) (hpc : pending.pcSeq = pcSeq) (hrt : pending.runtimePc = runtimePc)
    (hidx : pending.lvarIndexes = p.runtimeIndexes)
    (hnames : ∀ register ∈ p.neededRegisters, register ∈ pending.registers) (table : Dict String PendingVRequest) :
    ∃ memReads : List MemRead,
      let mid := pending.lvarIndexes.foldl (applyRegisterIndex (m.registerTexts pending.registers) pending)
        ({ p.recovery with pending := table }, [])
      mid.2 = memReads.map (MemRead.request pending) ∧ (memReads.map MemRead.index).Nodup ∧
        (∀ x ∈ memReads, x.Ready pending mid.1) ∧
        ∀ lvar ∈ lvars, lvar.lvarIndex ∈ selected → ∀ e, analysis.evidenceByIndex.get? lvar.lvarIndex = some e →
          Stands m lvar e memReads mid.1 := by
  let registers := m.registerTexts pending.registers
  obtain ⟨reads, hmap, hready⟩ : ∃ reads : List Read, reads.map Read.index = pending.lvarIndexes ∧
      ∀ x ∈ reads, x.Ready { p.recovery with pending := table } := by
    refine exists_reads _ _ fun i hi => ?_
    rw [hidx, hp.indexes] at hi
    obtain ⟨r, e, hr, he, _⟩ := hp.inv.readable i hi
    exact ⟨r, e, hr, he, hp.inv.recordKey i r hr⟩
  have hindexes : reads.map Read.index = readIndexes analysis selected lvars := by rw [hmap, hidx, hp.indexes]
  have hreadsNodup : (reads.map Read.index).Nodup := by
    rw [hmap, hidx]
    exact hp.inv.flyingNodup
  obtain ⟨hanswered, hframe, hmidPc, hmidRt⟩ :=
    registerLoop_answered registers pending reads { p.recovery with pending := table } hreadsNodup hready
  have hrequests := registerLoop_requests registers pending reads { p.recovery with pending := table } [] hreadsNodup
    hready
  rw [hmap] at hanswered hframe hmidPc hmidRt hrequests
  have hsource : ∀ x ∈ reads, ∃ lvar ∈ lvars, lvar.lvarIndex = x.index ∧ lvar.lvarIndex ∈ selected ∧
      analysis.evidenceByIndex.get? lvar.lvarIndex = some x.evidence ∧
      x.evidence.acceptsRead lvar.size = true ∧ Planned lvar x.evidence p x.record := by
    intro x hx
    have hmem : x.index ∈ readIndexes analysis selected lvars := hindexes ▸ List.mem_map_of_mem hx
    obtain ⟨lvar, hl, hli⟩ := List.mem_map.mp hmem
    obtain ⟨hl, hread⟩ := List.mem_filter.mp hl
    obtain ⟨e, he, haccept⟩ := evidence_of_plansRead hread
    have hs : lvar.lvarIndex ∈ selected := by
      simp only [plansRead, Bool.and_eq_true, decide_eq_true_eq] at hread
      exact hread.1.2
    have hevidence : p.recovery.evidence.get? x.index = some x.evidence := (hready x hx).evidence
    rw [hp.evidence, ← hli, he] at hevidence
    cases hevidence
    obtain ⟨r, hr⟩ := hplanned lvar hl x.evidence hs he
    have hrecord : p.recovery.records.get? x.index = some x.record := (hready x hx).record
    rw [← hli, hr.record] at hrecord
    cases hrecord
    exact ⟨lvar, hl, hli, hs, he, haccept, hr⟩
  refine ⟨reads.filterMap (Read.memRead? registers), ?_, ?_, ?_, ?_⟩
  · rw [hrequests, List.nil_append, List.map_filterMap]
    exact List.filterMap_congr fun x _ => request?_eq_map pending registers x
  · exact hreadsNodup.sublist (memReads_sublist registers reads)
  · intro y hy
    obtain ⟨x, hx, hsome⟩ := List.mem_filterMap.mp hy
    obtain ⟨lvar, _, _, _, _, haccept, hplan⟩ := hsource x hx
    have hw : x.record.width ∈ supportedWidths := by
      rw [hplan.width]
      rcases (x.evidence.acceptsRead_iff _).mp haccept with ⟨_, _, _, hw, _⟩ | ⟨_, _, _, hw⟩ <;> exact hw
    exact (memRead_ready pending (hmidPc.trans (hp.pcSeq.trans (by rw [hpc])))
      (hmidRt.trans (hp.runtimePc.trans hrt.symm)) (hready x hx).index hw (hanswered x hx) hsome).1
  · intro lvar hl hs e he
    obtain ⟨r, hr⟩ := hplanned lvar hl e hs he
    by_cases haccept : e.acceptsRead lvar.size = true
    · obtain ⟨x, hx, hxi⟩ := List.mem_map.mp (hindexes ▸ (mem_readIndexes_iff hok hnodup hl hs he).mpr haccept)
      have hxe : p.recovery.evidence.get? x.index = some x.evidence := (hready x hx).evidence
      have hxr : p.recovery.records.get? x.index = some x.record := (hready x hx).record
      rw [hp.evidence, hxi, he] at hxe
      rw [hxi, hr.record] at hxr
      cases hxe
      cases hxr
      exact stands_of_answered hreadsNodup hx hxi hr haccept (fun spec => hspec _ _ spec he) hnames (hanswered x hx)
    · have hnot : lvar.lvarIndex ∉ reads.map Read.index := by
        rw [hindexes]
        exact fun h => haccept ((mem_readIndexes_iff hok hnodup hl hs he).mp h)
      have hkept := hframe lvar.lvarIndex (by rwa [← hmap])
      refine .inr ⟨fun h => hnot ((memReads_sublist registers reads).subset h), r, hkept.trans hr.record, ?_, ?_,
        hr.constant⟩
      · exact fun spec hk hreg hw hle => absurd ((e.acceptsRead_iff _).mpr (.inl ⟨hk, spec, hreg, hw, hle⟩)) haccept
      · exact fun offset hk ho hw => absurd ((e.acceptsRead_iff _).mpr (.inr ⟨hk, offset, ho, hw⟩)) haccept

/-- The reply order permutes the memory reads, and decides nothing. -/
theorem memory_stage {pending : PendingVRequest} {memReads : List MemRead} {mid : VVariableRecovery}
    (hnodup : (memReads.map MemRead.index).Nodup) (hready : ∀ x ∈ memReads, x.Ready pending mid)
    {order : List Request} (horder : order.Perm (memReads.map (MemRead.request pending))) :
    (∀ x ∈ memReads, (answerMemory m mid order).records.get? x.index = some (x.result m)) ∧
      ∀ i, i ∉ memReads.map MemRead.index → (answerMemory m mid order).records.get? i = mid.records.get? i := by
  obtain ⟨reads, hperm, rfl⟩ := AnyOrder.exists_perm_of_perm_map (MemRead.request pending) horder
  have hindex : (reads.map MemRead.index).Perm (memReads.map MemRead.index) := hperm.map _
  obtain ⟨hdone, hkept⟩ := memoryReplies_answered m pending reads mid (hindex.nodup_iff.mpr hnodup)
    fun x hx => hready x (hperm.subset hx)
  rw [answerMemory, List.foldl_map]
  exact ⟨fun x hx => hdone x (hperm.symm.subset hx), fun i hi => hkept i fun h => hi (hindex.subset h)⟩

/-- The result of the memory read of a variable shows the machine. -/
theorem showsMachine_of_stands {lvar : VariableRecord} {e : RecoveryEvidence} {memReads : List MemRead}
    {mid final : VVariableRecovery} (hstands : Stands m lvar e memReads mid)
    (hdone : ∀ x ∈ memReads, final.records.get? x.index = some (x.result m))
    (hkept : ∀ i, i ∉ memReads.map MemRead.index → final.records.get? i = mid.records.get? i) :
    ∃ r, final.records.get? lvar.lvarIndex = some r ∧ ShowsMachine m lvar e r := by
  rcases hstands with ⟨x, hx, hi, hw, offset, hk, ho, hrange, haddress⟩ | ⟨hnot, r, hr, hshow⟩
  · refine ⟨x.result m, hi ▸ hdone x hx, ?_, ?_, ?_⟩
    · exact fun _ hk' => absurd (hk.symm.trans hk') (by decide)
    · intro offset' _ ho' _
      rw [ho] at ho'
      cases ho'
      rw [if_pos hrange, ← haddress, ← hw]
      exact ⟨rfl, rfl⟩
    · exact fun _ hk' => absurd (hk.symm.trans hk') (by decide)
  · exact ⟨r, (hkept _ hnot).trans hr, hshow⟩

end stages

/-- The register stage of a context from its beginning. -/
theorem opening_stage (m : Machine) (s : VVariableRecovery) {provider : AnalysisProvider}
    {analysis : RecoveryAnalysis} {lvars : List VariableRecord} {functionEa currentEa : Int} (runtimePc : String)
    (pcSeq : Int) {selection : Option (List Int)} (hnodup : (lvars.map VariableRecord.lvarIndex).Nodup)
    (hprovider : provider functionEa currentEa ((localVariables lvars).filter fun lvar =>
      lvar.lvarIndex ∈ selectedIndexes lvars selection) = .ok analysis) (hok : analysis.ok = true)
    (hspec : ∀ i e spec, analysis.evidenceByIndex.get? i = some e → e.storageKind = .register →
      e.register = some spec → 0 ≤ spec.bitOffset) :
    let mid := answerRegisters m (s.beginPc provider lvars functionEa currentEa runtimePc pcSeq selection)
    ∃ (pending : PendingVRequest) (memReads : List MemRead), mid.2 = memReads.map (MemRead.request pending) ∧
      (memReads.map MemRead.index).Nodup ∧ (∀ x ∈ memReads, x.Ready pending mid.1) ∧
      ∀ lvar ∈ localVariables lvars, lvar.lvarIndex ∈ selectedIndexes lvars selection → ∀ e,
        analysis.evidenceByIndex.get? lvar.lvarIndex = some e → Stands m lvar e memReads mid.1 := by
  intro mid
  let selected := selectedIndexes lvars selection
  have hlocal : ((localVariables lvars).map VariableRecord.lvarIndex).Nodup :=
    hnodup.sublist (List.filter_sublist.map _)
  have ha : analyze provider functionEa currentEa lvars selected = analysis := by rw [analyze, hprovider]
  have hmid : mid = answerRegisters m
    (s.beginPc provider lvars functionEa currentEa runtimePc pcSeq selection) := rfl
  rw [beginPc_eq s provider lvars functionEa currentEa runtimePc pcSeq selection ha] at hmid
  have hp := beginLoop_inv s lvars functionEa currentEa runtimePc pcSeq analysis selected hnodup
  have hplanned := planLoop_planned selected currentEa runtimePc pcSeq hok (localVariables lvars) hlocal
    (s.planningStart analysis lvars functionEa currentEa runtimePc pcSeq) rfl
  generalize (localVariables lvars).foldl (planVariable analysis.ok selected currentEa runtimePc pcSeq)
    (s.planningStart analysis lvars functionEa currentEa runtimePc pcSeq) = p at hp hplanned hmid
  have hnames : ∀ register ∈ p.neededRegisters, register ∈ (openingRequest p pcSeq runtimePc).registers :=
    fun register h => (List.perm_insertionSort registerLe p.neededRegisters).symm.subset h
  obtain ⟨memReads, hstage⟩ := register_stage hok hlocal hp hplanned hspec
    (openingRequest p pcSeq runtimePc) rfl rfl rfl hnames
    ((p.recovery.pending.set (vRegRequestId pcSeq) (openingRequest p pcSeq runtimePc)).pop (vRegRequestId pcSeq))
  refine ⟨openingRequest p pcSeq runtimePc, memReads, ?_⟩
  by_cases hnone : (openingRequest p pcSeq runtimePc).registers = []
  · have hindexes : (openingRequest p pcSeq runtimePc).lvarIndexes = [] := hp.registers (sortRegisters_eq_nil hnone)
    rw [if_pos hnone] at hmid
    rw [hindexes] at hstage
    rw [hmid]
    obtain ⟨hrequests, hmemNodup, _, hstands⟩ := hstage
    obtain rfl : memReads = [] := List.map_eq_nil_iff.mp hrequests.symm
    exact ⟨rfl, .nil, by simp, hstands⟩
  · have happlied := applyRegResponse_machine m (openingRequest p pcSeq runtimePc)
      (s := { p.recovery with pending :=
        p.recovery.pending.set (vRegRequestId pcSeq) (openingRequest p pcSeq runtimePc) })
      rfl hp.pcSeq hp.runtimePc (Dict.get?_set_self ..)
    rw [if_neg hnone] at hmid
    have hmid' := hmid.trans happlied
    rw [hmid']
    exact hstage

/-- One machine answers a context: every selected local of an accepted width ends
with the value its evidence names, and the reply order decides nothing. -/
theorem local_values_any_order (m : Machine) (s : VVariableRecovery) (provider : AnalysisProvider)
    (analysis : RecoveryAnalysis) (lvars : List VariableRecord) (functionEa currentEa : Int) (runtimePc : String)
    (pcSeq : Int) (selection : Option (List Int)) (hnodup : (lvars.map VariableRecord.lvarIndex).Nodup)
    (hprovider : provider functionEa currentEa ((localVariables lvars).filter fun lvar =>
      lvar.lvarIndex ∈ selectedIndexes lvars selection) = .ok analysis) (hok : analysis.ok = true)
    (hspec : ∀ i e spec, analysis.evidenceByIndex.get? i = some e → e.storageKind = .register →
      e.register = some spec → 0 ≤ spec.bitOffset) :
    let mid := answerRegisters m (s.beginPc provider lvars functionEa currentEa runtimePc pcSeq selection)
    ∀ order, order.Perm mid.2 →
      (∀ lvar ∈ localVariables lvars, lvar.lvarIndex ∈ selectedIndexes lvars selection → ∀ e,
        analysis.evidenceByIndex.get? lvar.lvarIndex = some e →
        ∃ r, (answerMemory m mid.1 order).records.get? lvar.lvarIndex = some r ∧ ShowsMachine m lvar e r) ∧
      ∀ order', order'.Perm mid.2 →
        (answerMemory m mid.1 order').records.Same (answerMemory m mid.1 order).records := by
  intro mid
  obtain ⟨pending, memReads, hrequests, hmemNodup, hready, hstands⟩ :=
    opening_stage m s runtimePc pcSeq hnodup hprovider hok hspec
  intro order horder
  have hfinal : ∀ order', order'.Perm mid.2 →
      (∀ x ∈ memReads, (answerMemory m mid.1 order').records.get? x.index = some (x.result m)) ∧
        ∀ i, i ∉ memReads.map MemRead.index → (answerMemory m mid.1 order').records.get? i = mid.1.records.get? i :=
    fun order' h => memory_stage hmemNodup hready (hrequests ▸ h)
  obtain ⟨hdone, hkept⟩ := hfinal order horder
  refine ⟨fun lvar hl hs e he => showsMachine_of_stands (hstands lvar hl hs e he) hdone hkept,
    fun order' horder' i => ?_⟩
  obtain ⟨hdone', hkept'⟩ := hfinal order' horder'
  by_cases hi : i ∈ memReads.map MemRead.index
  · obtain ⟨x, hx, rfl⟩ := List.mem_map.mp hi
    rw [hdone x hx, hdone' x hx]
  · rw [hkept i hi, hkept' i hi]

/-- Two locals, one in `bh` and one at `rsp + 0x20`. -/
def mixedLvars : List VariableRecord :=
  [{ lvarIndex := 4, name := "v4", size := 1, isArg := false, argIndex := none },
   { lvarIndex := 7, name := "v7", size := 2, isArg := false, argIndex := none }]

def mixedAnalysis : RecoveryAnalysis :=
  { ok := true
    evidenceByIndex := (Dict.empty.set 4
      { lvarIndex := 4, storageKind := .register
        register := some { fullRegister := "rbx", width := 1, bitOffset := 8 } }).set 7
      { lvarIndex := 7, storageKind := .stack, stackPointerOffset := some 0x20 } }

def mixedMachine : Machine := { registers := fun _ => 0x1234, memory := fun address => UInt8.ofNat address }

theorem local_values_any_order_mixed :
    let mid := answerRegisters mixedMachine
      ((init 256).beginPc (fun _ _ _ => .ok mixedAnalysis) mixedLvars 0 0 "0x401010" 1 none)
    ∃ r, (answerMemory mixedMachine mid.1 mid.2).records.get? 7 = some r ∧ r.recoveryStatus = .fresh ∧
      r.value = mixedMachine.memoryText 0x1254 2 := by
  have hspec : ∀ i e spec, mixedAnalysis.evidenceByIndex.get? i = some e → e.storageKind = .register →
      e.register = some spec → 0 ≤ spec.bitOffset := by
    intro i e spec he _ hs
    simp only [mixedAnalysis, Dict.get?_set] at he
    split at he
    · cases he
      cases hs
    · split at he
      · cases he
        cases hs
        decide
      · cases he
  obtain ⟨h, _⟩ := local_values_any_order mixedMachine (init 256) (fun _ _ _ => .ok mixedAnalysis) mixedAnalysis
    mixedLvars 0 0 "0x401010" 1 none (by decide) rfl rfl hspec _ (.refl _)
  obtain ⟨r, hr, hshow⟩ := h { lvarIndex := 7, name := "v7", size := 2, isArg := false, argIndex := none }
    (by decide) (by decide) _ rfl
  have hstack := hshow.stack 0x20 rfl rfl (by decide)
  rw [show (mixedMachine.registers "rsp").toNat = 0x1234 from rfl] at hstack
  norm_num at hstack
  exact ⟨r, hr, hstack⟩

end DynvarSync.Ida.VVariableRecovery
