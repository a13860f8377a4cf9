import DynvarSync.Ida.VRecoveryRuns
import DynvarSync.Lib.AnyOrder
import DynvarSync.Windbg.Machine

/-! A context answered by one machine: what every local variable then shows, in
whatever order the memory replies arrive. -/
namespace DynvarSync.Ida.VVariableRecovery
open Lib PyText Windbg

/-- The projection of the register evidence. -/
def registerValue (m : Machine) (spec : RegisterSpec) (width : Nat) : String :=
  formatHex ((m.registers spec.fullRegister).extractLsb' spec.bitOffset.toNat (width * 8)).toNat

section conversions
variable (m : Machine) {names : List String}

theorem parseRuntimeInt_text (n : Nat) : parseRuntimeInt (.str (formatHexPadded 16 n)) = .ok n := by
  simp [parseRuntimeInt, intAuto_formatHexPadded]

theorem extractRegisterValue_machine {spec : RegisterSpec} {width : Nat} (hn : spec.fullRegister ∈ names)
    (hw : width ∈ supportedWidths) (hs : width ≤ spec.width) (ho : 0 ≤ spec.bitOffset) :
    extractRegisterValue (Payload.get (m.registerTexts names) spec.fullRegister) spec width =
      .ok (registerValue m spec width) := by
  rw [m.registerTexts_get hn, extractRegisterValue_of_int _ spec width _ (parseRuntimeInt_text _) hw hs ho,
    maskWidth_shiftRight, registerValue, BitVec.extractLsb'_toNat]

theorem concreteStackAddress_machine (offset : Int) (hn : "rsp" ∈ names) :
    concreteStackAddress (Payload.get (m.registerTexts names) "rsp") offset =
      if 0 ≤ ((m.registers "rsp").toNat : Int) + offset ∧ ((m.registers "rsp").toNat : Int) + offset < 2 ^ 64 then
        .ok (formatHex ((m.registers "rsp").toNat + offset))
      else .error "resolved stack address is outside the x64 address space" := by
  rw [m.registerTexts_get hn, concreteStackAddress, parseRuntimeInt_text]
  dsimp only
  by_cases h : 0 ≤ ((m.registers "rsp").toNat : Int) + offset ∧ ((m.registers "rsp").toNat : Int) + offset < 2 ^ 64
  · rw [if_pos h, if_neg (by omega)]
  · rw [if_neg h, if_pos (by omega)]

end conversions

/-- What the register response decides for one variable. -/
inductive ReadOutcome where
  | fresh (value : String)
  | failed (reason : String)
  | waits (address : String)
  | ignored

def readOutcome (registers : Payload) (e : RecoveryEvidence) (r : VVariableRecoveryRecord) : ReadOutcome :=
  match e.storageKind, e.register, e.stackPointerOffset with
  | .register, some spec, _ =>
    match extractRegisterValue (registers.get spec.fullRegister) spec r.width with
    | .error reason => .failed ("register read failed: " ++ reason)
    | .ok value => .fresh value
  | .stack, _, some offset =>
    match concreteStackAddress (registers.get "rsp") offset with
    | .error reason => .failed (reasonUnresolvedStack ++ ": " ++ reason)
    | .ok address => .waits address
  | _, _, _ => .ignored

theorem readOutcome_ignored (registers : Payload) {e : RecoveryEvidence} (r : VVariableRecoveryRecord)
    (hreg : ∀ spec, e.storageKind = .register → e.register = some spec → False)
    (hstack : ∀ offset, e.storageKind = .stack → e.stackPointerOffset = some offset → False) :
    readOutcome registers e r = .ignored := by
  unfold readOutcome
  split
  · exact (hreg _ ‹_› ‹_›).elim
  · exact (hstack _ ‹_› ‹_›).elim
  · rfl

/-- The memory request of a stack variable. -/
def memRequest (pending : PendingVRequest) (r : VVariableRecoveryRecord) (i : Int) (address : String) : Request :=
  { type := .memRequest, payload :=
      [("pc_seq", .int pending.pcSeq), ("request_id", .str (vMemRequestId pending.pcSeq i)),
       ("runtime_pc", .str pending.runtimePc), ("address", .str address), ("size", .int r.width),
       ("reason", .str "v_variable_stack"), ("variable", .str r.name), ("lvar_index", .int i)] }

/-- One turn of the register loop carries out its outcome. -/
theorem applyRegisterIndex_eq (registers : Payload) (pending : PendingVRequest)
    (acc : VVariableRecovery × List Request) {i : Int} {r : VVariableRecoveryRecord} {e : RecoveryEvidence}
    (hr : acc.1.records.get? i = some r) (he : acc.1.evidence.get? i = some e) :
    applyRegisterIndex registers pending acc i =
      match readOutcome registers e r with
      | .fresh value => (acc.1.markFresh r value .exactRegisterLocation, acc.2)
      | .failed reason => (acc.1.store (r.setError reason), acc.2)
      | .waits address => (acc.1.awaitMemory r pending i address, acc.2 ++ [memRequest pending r i address])
      | .ignored => acc := by
  unfold applyRegisterIndex
  simp only [hr, he]
  split
  · rename_i spec hk hs
    simp only [readOutcome, hk, hs]
    cases extractRegisterValue (registers.get spec.fullRegister) spec r.width <;> rfl
  · rename_i offset hk ho
    simp only [readOutcome, hk, ho]
    cases concreteStackAddress (registers.get "rsp") offset <;> rfl
  · rename_i hreg hstack
    rw [readOutcome_ignored registers r hreg hstack]

/-- A variable whose register read is in flight, as the loop finds it. -/
structure Read where
  index : Int
  record : VVariableRecoveryRecord
  evidence : RecoveryEvidence

section registerLoop
variable (registers : Payload) (pending : PendingVRequest)

/-- The record is as planned. -/
structure Read.Ready (x : Read) (s : VVariableRecovery) : Prop where
  record : s.records.get? x.index = some x.record
  evidence : s.evidence.get? x.index = some x.evidence
  index : x.record.lvarIndex = x.index

/-- The record shows the outcome, or waits for its memory read. -/
def Read.Answered (x : Read) (s : VVariableRecovery) : Prop :=
  match readOutcome registers x.evidence x.record with
  | .fresh value => s.records.get? x.index = some (x.record.setFresh value .exactRegisterLocation)
  | .failed reason => s.records.get? x.index = some (x.record.setError reason)
  | .waits address =>
    s.records.get? x.index =
        some (x.record.annotate ("stack:" ++ address) "waiting for exact stack memory read") ∧
      s.pending.get? (vMemRequestId pending.pcSeq x.index) =
        some (memPending pending x.index address x.record.width)
  | .ignored => s.records.get? x.index = some x.record

/-- One turn touches its own record and memory request only. -/
theorem register_frame {s : VVariableRecovery} {y : Read} (hy : y.Ready s) (out : List Request) :
    let s' := (applyRegisterIndex registers pending (s, out) y.index).1
    s'.evidence = s.evidence ∧ s'.pcSeq = s.pcSeq ∧ s'.runtimePc = s.runtimePc ∧
      ∀ i, i ≠ y.index → s'.records.get? i = s.records.get? i ∧
        s'.pending.get? (vMemRequestId pending.pcSeq i) = s.pending.get? (vMemRequestId pending.pcSeq i) := by
  rw [applyRegisterIndex_eq registers pending (s, out) hy.record hy.evidence]
  have hother : ∀ i : Int, i ≠ y.index → vMemRequestId pending.pcSeq i ≠ vMemRequestId pending.pcSeq y.index :=
    fun i hi h => hi (vMemRequestId_injective h)
  cases readOutcome registers y.evidence y.record with
  | fresh value =>
    refine ⟨by simp, by simp, by simp, fun i hi => ⟨?_, by simp⟩⟩
    rw [markFresh_records, hy.index, Dict.get?_set_ne _ _ hi]
  | failed reason =>
    refine ⟨rfl, rfl, rfl, fun i hi => ⟨?_, rfl⟩⟩
    rw [store_records, show (y.record.setError reason).lvarIndex = y.index from hy.index, Dict.get?_set_ne _ _ hi]
  | waits address =>
    refine ⟨rfl, rfl, rfl, fun i hi => ⟨?_, Dict.get?_set_ne _ _ (hother i hi)⟩⟩
    change (s.records.set (y.record.annotate _ _).lvarIndex _).get? i = _
    rw [VVariableRecoveryRecord.annotate_lvarIndex, hy.index, Dict.get?_set_ne _ _ hi]
  | ignored => exact ⟨rfl, rfl, rfl, fun i _ => ⟨rfl, rfl⟩⟩

theorem register_answered {s : VVariableRecovery} {x : Read} (hx : x.Ready s) (out : List Request) :
    x.Answered registers pending (applyRegisterIndex registers pending (s, out) x.index).1 := by
  rw [applyRegisterIndex_eq registers pending (s, out) hx.record hx.evidence]
  unfold Read.Answered
  cases readOutcome registers x.evidence x.record with
  | fresh value =>
    dsimp only
    rw [markFresh_records, hx.index, Dict.get?_set_self]
  | failed reason =>
    dsimp only
    rw [store_records, show (x.record.setError reason).lvarIndex = x.index from hx.index, Dict.get?_set_self]
  | waits address =>
    refine ⟨?_, Dict.get?_set_self ..⟩
    change (s.records.set (x.record.annotate _ _).lvarIndex _).get? x.index = _
    rw [VVariableRecoveryRecord.annotate_lvarIndex, hx.index, Dict.get?_set_self]
  | ignored => exact hx.record

theorem Read.Answered.congr {x : Read} {s s' : VVariableRecovery} (h : x.Answered registers pending s)
    (hr : s'.records.get? x.index = s.records.get? x.index)
    (hp : s'.pending.get? (vMemRequestId pending.pcSeq x.index) =
      s.pending.get? (vMemRequestId pending.pcSeq x.index)) : x.Answered registers pending s' := by
  unfold Read.Answered at h ⊢
  rwa [hr, hp]

theorem Read.Ready.turn {x y : Read} {s : VVariableRecovery} (hne : x.index ≠ y.index) (hy : y.Ready s)
    (hx : x.Ready s) (out : List Request) :
    x.Ready (applyRegisterIndex registers pending (s, out) y.index).1 := by
  obtain ⟨he, _, _, hframe⟩ := register_frame registers pending hy out
  exact ⟨(hframe x.index hne).1.trans hx.record, he ▸ hx.evidence, hx.index⟩

/-- The whole register loop answers every read. -/
theorem registerLoop_answered (reads : List Read) (s : VVariableRecovery)
    (hnodup : (reads.map Read.index).Nodup) (hready : ∀ x ∈ reads, x.Ready s) :
    let result := (reads.map Read.index).foldl (applyRegisterIndex registers pending) (s, [])
    (∀ x ∈ reads, x.Answered registers pending result.1) ∧
      (∀ i, i ∉ reads.map Read.index → result.1.records.get? i = s.records.get? i) ∧
      result.1.pcSeq = s.pcSeq ∧ result.1.runtimePc = s.runtimePc := by
  let apply (acc : VVariableRecovery × List Request) (x : Read) := applyRegisterIndex registers pending acc x.index
  let Ready (x : Read) (acc : VVariableRecovery × List Request) : Prop := x.Ready acc.1
  have hturn : ∀ (x y : Read) (acc : VVariableRecovery × List Request), x.index ≠ y.index →
      Ready y acc → Ready x acc → Ready x (apply acc y) :=
    fun x y acc hne hy hx => Read.Ready.turn registers pending hne hy hx acc.2
  dsimp only
  rw [List.foldl_map]
  refine ⟨?_, fun i hi => ?_, ?_, ?_⟩
  · refine AnyOrder.answered Read.index apply Ready (fun x acc => x.Answered registers pending acc.1) ?_ hturn ?_
      reads (s, []) hnodup hready
    · exact fun x acc hx => register_answered registers pending hx acc.2
    · intro x y acc hne hy hx
      obtain ⟨_, _, _, hframe⟩ := register_frame registers pending hy acc.2
      exact hx.congr registers pending (hframe x.index hne).1 (hframe x.index hne).2
  · refine AnyOrder.preserved Read.index apply Ready (fun acc => acc.1.records.get? i = s.records.get? i) hturn reads
      (s, []) ?_ hnodup hready rfl
    intro y hy acc hready' h
    have hne : i ≠ y.index := fun h => hi (h ▸ List.mem_map_of_mem hy)
    exact ((register_frame registers pending hready' acc.2).2.2.2 i hne).1.trans h
  · refine AnyOrder.preserved Read.index apply Ready (fun acc => acc.1.pcSeq = s.pcSeq) hturn reads
      (s, []) ?_ hnodup hready rfl
    exact fun y _ acc hready' h => (register_frame registers pending hready' acc.2).2.1.trans h
  · refine AnyOrder.preserved Read.index apply Ready (fun acc => acc.1.runtimePc = s.runtimePc) hturn reads
      (s, []) ?_ hnodup hready rfl
    exact fun y _ acc hready' h => (register_frame registers pending hready' acc.2).2.2.1.trans h

/-- The memory read a variable still needs. -/
def Read.request? (x : Read) : Option Request :=
  match readOutcome registers x.evidence x.record with
  | .waits address => some (memRequest pending x.record x.index address)
  | _ => none

/-- The requests come out in the order of the reads. -/
theorem registerLoop_requests (reads : List Read) (s : VVariableRecovery) (out : List Request)
    (hnodup : (reads.map Read.index).Nodup) (hready : ∀ x ∈ reads, x.Ready s) :
    ((reads.map Read.index).foldl (applyRegisterIndex registers pending) (s, out)).2 =
      out ++ reads.filterMap (Read.request? registers pending) := by
  induction reads generalizing s out with
  | nil => simp
  | cons y reads ih =>
    rw [List.map_cons, List.nodup_cons] at hnodup
    have hy := hready y (List.mem_cons_self ..)
    have hrest : ∀ x ∈ reads, x.Ready (applyRegisterIndex registers pending (s, out) y.index).1 := by
      intro x hx
      have hne : x.index ≠ y.index := fun h => hnodup.1 (h ▸ List.mem_map_of_mem hx)
      exact Read.Ready.turn registers pending hne hy (hready x (List.mem_cons_of_mem y hx)) out
    have hout : (applyRegisterIndex registers pending (s, out) y.index).2 =
        out ++ (y.request? registers pending).toList := by
      rw [applyRegisterIndex_eq registers pending (s, out) hy.record hy.evidence, Read.request?]
      cases readOutcome registers y.evidence y.record <;> simp
    rw [List.map_cons, List.foldl_cons, ih _ _ hnodup.2 hrest, hout, List.append_assoc]
    cases h : y.request? registers pending <;> simp [h]

end registerLoop

/-- A stack variable whose memory read is outstanding. -/
structure MemRead where
  index : Int
  record : VVariableRecoveryRecord
  address : Nat

section memoryReplies
variable (m : Machine) (pending : PendingVRequest)

def MemRead.request (x : MemRead) : Request := memRequest pending x.record x.index (formatHex x.address)

structure MemRead.Ready (x : MemRead) (s : VVariableRecovery) : Prop where
  pcSeq : s.pcSeq = some pending.pcSeq
  runtimePc : s.runtimePc = pending.runtimePc
  pending : s.pending.get? (vMemRequestId pending.pcSeq x.index) =
    some (memPending pending x.index (formatHex x.address) x.record.width)
  record : s.records.get? x.index = some x.record
  index : x.record.lvarIndex = x.index
  width : x.record.width ∈ supportedWidths

/-- The record after its reply. -/
def MemRead.result (x : MemRead) : VVariableRecoveryRecord :=
  (x.record.setFresh (m.memoryText x.address x.record.width) .exactStackLocation).annotate
    ("stack:" ++ formatHex x.address)
    ("exact stack memory read raw=" ++ toHex (m.readMemory x.address x.record.width))

/-- The machine's reply is accepted and displayed. -/
theorem applyMemResponse_machine {x : MemRead} {s : VVariableRecovery} (hx : x.Ready pending s) :
    (s.applyMemResponse (m.memResponse (x.request pending).payload)).recovery =
      ({ s with pending := s.pending.pop (vMemRequestId pending.pcSeq x.index) }.markFresh x.record
        (m.memoryText x.address x.record.width) .exactStackLocation).store (x.result m) := by
  have haddress : Machine.requestedAddress (x.request pending).payload = x.address := by
    simp [Machine.requestedAddress, MemRead.request, memRequest, Json.asStr, intAuto_formatHex]
  have hsize : Machine.requestedSize (x.request pending).payload = x.record.width := by
    simp [Machine.requestedSize, MemRead.request, memRequest]
  have hreply : m.memResponse (x.request pending).payload =
      [("pc_seq", .int pending.pcSeq), ("request_id", .str (vMemRequestId pending.pcSeq x.index)),
       ("runtime_pc", .str pending.runtimePc), ("ok", .bool true), ("address", .str (formatHex x.address)),
       ("size", .int x.record.width),
       ("bytes_hex", .str (toHex (m.readMemory x.address x.record.width)))] := by
    rw [Machine.memResponse, haddress, hsize]
    simp [MemRead.request, memRequest]
  have htake : s.takePending (m.memResponse (x.request pending).payload) .mem =
      .ok (memPending pending x.index (formatHex x.address) x.record.width,
        { s with pending := s.pending.pop (vMemRequestId pending.pcSeq x.index) }) := by
    rw [hreply]
    simp [takePending, hx.pcSeq, hx.runtimePc, Json.asStr, hx.pending, memPending]
  have hdecode : decodeLittleEndian (toHex (m.readMemory x.address x.record.width)) x.record.width =
      .ok (m.memoryText x.address x.record.width) := by
    have h := decodeLittleEndian_toHex (m.readMemory x.address x.record.width)
      (by rw [m.readMemory_length]; exact hx.width)
    rwa [m.readMemory_length] at h
  unfold applyMemResponse
  rw [htake, hreply]
  simp [memPending, applyMemoryIndex, hx.record, Json.text, hdecode, MemRead.result,
    VVariableRecoveryRecord.annotate]

/-- A reply touches its own record and request only. -/
theorem memory_frame {y : MemRead} {s : VVariableRecovery} (hy : y.Ready pending s) :
    let s' := (s.applyMemResponse (m.memResponse (y.request pending).payload)).recovery
    s'.pcSeq = s.pcSeq ∧ s'.runtimePc = s.runtimePc ∧ s'.records.get? y.index = some (y.result m) ∧
      ∀ i, i ≠ y.index → s'.records.get? i = s.records.get? i ∧
        s'.pending.get? (vMemRequestId pending.pcSeq i) = s.pending.get? (vMemRequestId pending.pcSeq i) := by
  rw [applyMemResponse_machine m pending hy]
  have hindex : (y.result m).lvarIndex = y.index := hy.index
  refine ⟨by simp, by simp, ?_, fun i hi => ⟨?_, ?_⟩⟩
  · rw [store_records, hindex, Dict.get?_set_self]
  · rw [store_records, hindex, Dict.get?_set_ne _ _ hi, markFresh_records, hy.index, Dict.get?_set_ne _ _ hi]
  · rw [store_pending, markFresh_pending, Dict.get?_pop_ne _ fun h => hi (vMemRequestId_injective h)]

/-- All memory replies, in any order. -/
theorem memoryReplies_answered (reads : List MemRead) (s : VVariableRecovery)
    (hnodup : (reads.map MemRead.index).Nodup) (hready : ∀ x ∈ reads, x.Ready pending s) :
    let final := reads.foldl (fun s x => (s.applyMemResponse (m.memResponse (x.request pending).payload)).recovery) s
    (∀ x ∈ reads, final.records.get? x.index = some (x.result m)) ∧
      ∀ i, i ∉ reads.map MemRead.index → final.records.get? i = s.records.get? i := by
  have hturn : ∀ (x y : MemRead) (s : VVariableRecovery), x.index ≠ y.index → y.Ready pending s → x.Ready pending s →
      x.Ready pending (s.applyMemResponse (m.memResponse (y.request pending).payload)).recovery := by
    intro x y s hne hy hx
    obtain ⟨hseq, hpc, _, hframe⟩ := memory_frame m pending hy
    exact ⟨hseq.trans hx.pcSeq, hpc.trans hx.runtimePc, (hframe x.index hne).2.trans hx.pending,
      (hframe x.index hne).1.trans hx.record, hx.index, hx.width⟩
  refine ⟨?_, fun i hi => ?_⟩
  · refine AnyOrder.answered MemRead.index _ (fun x s => x.Ready pending s)
      (fun x s => s.records.get? x.index = some (x.result m)) ?_ hturn ?_ reads s hnodup hready
    · exact fun x s hx => (memory_frame m pending hx).2.2.1
    · exact fun x y s hne hy hx => ((memory_frame m pending hy).2.2.2 x.index hne).1.trans hx
  · refine AnyOrder.preserved MemRead.index _ (fun x s => x.Ready pending s)
      (fun t => t.records.get? i = s.records.get? i) hturn reads s ?_ hnodup hready rfl
    intro y hy t hyt h
    have hne : i ≠ y.index := fun h => hi (h ▸ List.mem_map_of_mem hy)
    exact ((memory_frame m pending hyt).2.2.2 i hne).1.trans h

end memoryReplies

section planning
variable {analysis : RecoveryAnalysis} {selected : List Int} {currentEa : Int} {runtimePc : String} {pcSeq : Int}

/-- Planning one variable touches its own record only. -/
theorem planVariable_frame (ok : Bool) (selected : List Int) (currentEa : Int) (runtimePc : String) (pcSeq : Int)
    (p : PlanState) (lvar : VariableRecord) :
    let p' := planVariable ok selected currentEa runtimePc pcSeq p lvar
    p'.recovery.evidence = p.recovery.evidence ∧
      (∀ i, i ≠ lvar.lvarIndex → p'.recovery.records.get? i = p.recovery.records.get? i) ∧
      ∀ register ∈ p.neededRegisters, register ∈ p'.neededRegisters := by
  rcases planVariable_cases ok selected currentEa runtimePc pcSeq p lvar with
    ⟨_, _, reason, keep, heq⟩ | ⟨_, n, c, _, _, _, _, heq⟩ | ⟨_, reason, register, _, _, heq⟩
  · rw [heq]
    refine ⟨rfl, fun i hi => ?_, fun _ h => h⟩
    rw [store_records, (VVariableRecoveryRecord.setUnavailable_same _ reason keep).1]
    exact Dict.get?_set_ne _ _ hi
  · rw [heq]
    refine ⟨by simp, fun i hi => ?_, fun _ h => h⟩
    rw [markFresh_records]
    exact Dict.get?_set_ne _ _ hi
  · rw [heq]
    refine ⟨rfl, fun i hi => ?_, fun _ h => List.mem_insert_of_mem h⟩
    rw [store_records, (VVariableRecoveryRecord.setWaiting_same _ reason).1]
    exact Dict.get?_set_ne _ _ hi

/-- What planning leaves for a variable with this evidence. -/
structure Planned (lvar : VariableRecord) (e : RecoveryEvidence) (p : PlanState) (r : VVariableRecoveryRecord) :
    Prop where
  record : p.recovery.records.get? lvar.lvarIndex = some r
  width : r.width = lvar.size
  constant : ∀ c, e.storageKind = .constant → e.constantValue = some c → lvar.size ∈ supportedWidths →
    r.recoveryStatus = .fresh ∧ r.value = formatHex (maskWidth c lvar.size)
  register : e.acceptsRead lvar.size = true → ∀ spec, e.storageKind = .register → e.register = some spec →
    spec.fullRegister ∈ p.neededRegisters
  stack : e.acceptsRead lvar.size = true → e.storageKind = .stack → "rsp" ∈ p.neededRegisters

theorem planVariable_planned (hok : analysis.ok = true) {p : PlanState} {lvar : VariableRecord} {e : RecoveryEvidence}
    (hp : p.recovery.evidence = analysis.evidenceByIndex) (hs : lvar.lvarIndex ∈ selected)
    (he : analysis.evidenceByIndex.get? lvar.lvarIndex = some e) :
    ∃ r, Planned lvar e (planVariable analysis.ok selected currentEa runtimePc pcSeq p lvar) r := by
  have hchosen : p.recovery.chooseEvidence analysis.ok selected lvar.lvarIndex = e := by
    simp [chooseEvidence, hok, hs, hp, he]
  have hcases := planVariable_cases analysis.ok selected currentEa runtimePc pcSeq p lvar
  dsimp only at hcases
  rw [hchosen] at hcases
  let record := p.recovery.newRecord lvar e pcSeq runtimePc currentEa
  rcases hcases with ⟨hread, hconst, reason, keep, heq⟩ | ⟨hread, n, c, hk, hc, hw, hn, heq⟩ |
    ⟨hread, reason, register, hreg, hstack, heq⟩
  · obtain ⟨hidx, _, _, hwidth, _⟩ := record.setUnavailable_same reason keep
    refine ⟨record.setUnavailable reason keep, ?_, hwidth, fun c hk hc hw => absurd hw (hconst hok c hk hc), ?_, ?_⟩
    · rw [heq, store_records, hidx]
      exact Dict.get?_set_self ..
    · exact fun h => absurd (hread.symm.trans h) Bool.false_ne_true
    · exact fun h => absurd (hread.symm.trans h) Bool.false_ne_true
  · refine ⟨record.setFresh (formatHex n) e.confidence, ?_, rfl, fun c' hk' hc' _ => ⟨rfl, ?_⟩, ?_, ?_⟩
    · rw [heq, markFresh_records]
      exact Dict.get?_set_self ..
    · rw [hc] at hc'
      cases hc'
      rw [← hn]
      rfl
    · exact fun h => absurd (hread.symm.trans h) Bool.false_ne_true
    · exact fun h => absurd (hread.symm.trans h) Bool.false_ne_true
  · obtain ⟨hidx, _, _, hwidth, _⟩ := record.setWaiting_same reason
    rw [heq]
    refine ⟨record.setWaiting reason, ?_, hwidth, fun c hk _ _ => ?_, fun _ spec hk hspec => ?_, fun _ hk => ?_⟩
    · rw [store_records, hidx]
      exact Dict.get?_set_self ..
    · rcases (e.acceptsRead_iff _).mp hread with ⟨hk', _⟩ | ⟨hk', _⟩
      · exact absurd (hk.symm.trans hk') (by decide)
      · exact absurd (hk.symm.trans hk') (by decide)
    · rw [← hreg spec hk hspec]
      exact List.mem_insert_self
    · rw [← hstack hk]
      exact List.mem_insert_self

/-- Planning all variables leaves each of them planned. -/
theorem planLoop_planned (selected : List Int) (currentEa : Int) (runtimePc : String) (pcSeq : Int)
    (hok : analysis.ok = true) (lvars : List VariableRecord)
    (hnodup : (lvars.map VariableRecord.lvarIndex).Nodup) (p : PlanState)
    (hp : p.recovery.evidence = analysis.evidenceByIndex) :
    ∀ lvar ∈ lvars, ∀ e, lvar.lvarIndex ∈ selected → analysis.evidenceByIndex.get? lvar.lvarIndex = some e →
      ∃ r, Planned lvar e (lvars.foldl (planVariable analysis.ok selected currentEa runtimePc pcSeq) p) r := by
  refine AnyOrder.answered VariableRecord.lvarIndex (planVariable analysis.ok selected currentEa runtimePc pcSeq)
    (fun _ p => p.recovery.evidence = analysis.evidenceByIndex)
    (fun lvar p => ∀ e, lvar.lvarIndex ∈ selected → analysis.evidenceByIndex.get? lvar.lvarIndex = some e →
      ∃ r, Planned lvar e p r) ?_ ?_ ?_ lvars p hnodup fun _ _ => hp
  · exact fun lvar p hp e hs he => planVariable_planned hok hp hs he
  · exact fun _ y p _ _ hp => (planVariable_frame analysis.ok selected currentEa runtimePc pcSeq p y).1.trans hp
  · intro x y p hne _ hx e hs he
    obtain ⟨_, hrecord, hneeded⟩ := planVariable_frame analysis.ok selected currentEa runtimePc pcSeq p y
    obtain ⟨r, h⟩ := hx e hs he
    exact ⟨r, (hrecord x.lvarIndex hne).trans h.record, h.width, h.constant,
      fun ha spec hk hr => hneeded _ (h.register ha spec hk hr), fun ha hk => hneeded _ (h.stack ha hk)⟩

end planning

end DynvarSync.Ida.VVariableRecovery
