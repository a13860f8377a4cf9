import DynvarSync.Ida.ProvenRows
import DynvarSync.Session.MachineAnswers

/-! How far the answers of a machine have come in the recovery of one PC, and that every request on the way is one the
extension has room for. -/
namespace DynvarSync.Session
open Lib PyText Ida Windbg VVariableRecovery

/-- The engine's state once some of its requests are answered, and those that are still to be answered. -/
inductive Stage (m : Machine) (opened : VVariableRecovery × Option Request) : VVariableRecovery → List Request → Prop
  | asked {request : Request} (h : opened.2 = some request) : Stage m opened opened.1 [request]
  | reading {answered left : List Request} (h : (answerRegisters m opened).2 = answered ++ left) :
      Stage m opened (answerMemory m (answerRegisters m opened).1 answered) left

/-- The extension can answer every request of an opened recovery. -/
structure Asks (m : Machine) (opened : VVariableRecovery × Option Request) : Prop where
  registers : ∀ request ∈ opened.2, Askable request ∧ request.type = .regRequest
  memory : ∀ request ∈ (answerRegisters m opened).2, Askable request ∧ request.type = .memRequest

section responses
variable {s s' : VVariableRecovery}

theorem changes_pcSeq (h : Changes s s') : s'.pcSeq = s.pcSeq := by
  induction h with
  | refl => rfl
  | tail _ hchange ih =>
    cases hchange with
    | pending _ => exact ih
    | error _ _ _ _ => exact ih
    | fresh _ r n c _ => exact (markFresh_pcSeq _ r (formatHex n) c).trans ih
    | annotate _ _ _ _ _ => exact ih

theorem answerMemory_pcSeq (m : Machine) (s : VVariableRecovery) (requests : List Request) :
    (answerMemory m s requests).pcSeq = s.pcSeq := by
  induction requests generalizing s with
  | nil => rfl
  | cons request rest ih => exact (ih _).trans (changes_pcSeq (changes_applyMemResponse s _))

theorem answerRegisters_pcSeq (m : Machine) (opened : VVariableRecovery × Option Request) :
    (answerRegisters m opened).1.pcSeq = opened.1.pcSeq := by
  rw [answerRegisters]
  cases opened.2 with
  | none => rfl
  | some request => exact changes_pcSeq (changes_applyRegResponse opened.1 _)

/-- A response of another PC is rejected as it comes. -/
theorem takePending_stale {pcSeq : Int} (hseq : s.pcSeq = some pcSeq) {payload : Payload}
    (h : (payload.get "pc_seq").eqInt pcSeq = false) (kind : RequestKind) :
    ∃ reason, s.takePending payload kind = .error reason := by
  rw [takePending, hseq]
  dsimp only
  rw [h]
  exact ⟨_, rfl⟩

theorem applyRegResponse_stale {pcSeq : Int} (hseq : s.pcSeq = some pcSeq) {payload : Payload}
    (h : (payload.get "pc_seq").eqInt pcSeq = false) :
    (s.applyRegResponse payload).recovery = s ∧ (s.applyRegResponse payload).accepted = false ∧
      (s.applyRegResponse payload).memRequests = [] := by
  obtain ⟨reason, htake⟩ := takePending_stale hseq h .reg
  rw [applyRegResponse, htake]
  exact ⟨rfl, rfl, rfl⟩

theorem applyMemResponse_stale {pcSeq : Int} (hseq : s.pcSeq = some pcSeq) {payload : Payload}
    (h : (payload.get "pc_seq").eqInt pcSeq = false) :
    (s.applyMemResponse payload).recovery = s ∧ (s.applyMemResponse payload).accepted = false := by
  obtain ⟨reason, htake⟩ := takePending_stale hseq h .mem
  rw [applyMemResponse, htake]
  exact ⟨rfl, rfl⟩

/-- What holds of the memory request of each variable holds of every request of the register loop. -/
theorem registerLoop_forall {P : Request → Prop} (registers : Payload) (pending : PendingVRequest) (indexes : List Int)
    (acc : VVariableRecovery × List Request) (hP : ∀ i ∈ indexes, ∀ r address, P (memRequest pending r i address))
    (hacc : ∀ request ∈ acc.2, P request) :
    ∀ request ∈ (indexes.foldl (applyRegisterIndex registers pending) acc).2, P request := by
  induction indexes generalizing acc with
  | nil => exact hacc
  | cons i indexes ih =>
    obtain ⟨hi, hmore⟩ := List.forall_mem_cons.mp hP
    refine ih _ hmore ?_
    cases hr : acc.1.records.get? i with
    | none =>
      rw [applyRegisterIndex]
      simp only [hr]
      exact hacc
    | some r =>
      cases he : acc.1.evidence.get? i with
      | none =>
        rw [applyRegisterIndex]
        simp only [hr, he]
        exact hacc
      | some e =>
        rw [applyRegisterIndex_eq registers pending acc hr he]
        cases readOutcome registers e r with
        | fresh value => exact hacc
        | failed reason => exact hacc
        | ignored => exact hacc
        | waits address =>
          exact List.forall_mem_append.mpr ⟨hacc, List.forall_mem_singleton.mpr (hi r address)⟩

end responses

section opened
variable {provider : AnalysisProvider} {lvars : List VariableRecord} {functionEa currentEa : Int} {runtimePc : String}
  {pcSeq : Int} {selection : Option (List Int)}

theorem plannedReads_mem {i : Int} (h : i ∈ plannedReads provider lvars functionEa currentEa selection) :
    ∃ lvar ∈ lvars, lvar.lvarIndex = i := by
  obtain ⟨lvar, hlvar, rfl⟩ := List.mem_map.mp h
  exact ⟨lvar, (List.mem_filter.mp (List.mem_filter.mp hlvar).1).1, rfl⟩

/-- The memory requests after the machine's answer for the registers. -/
theorem answerRegisters_requests (m : Machine) (s : VVariableRecovery)
    (hnodup : (lvars.map VariableRecord.lvarIndex).Nodup) {request : Request}
    (h : request ∈ (answerRegisters m
      (s.beginPc provider lvars functionEa currentEa runtimePc pcSeq selection)).2) :
    ∃ lvar ∈ lvars, ∃ (address width : Nat) (name : String), address < 2 ^ 64 ∧ width ∈ supportedWidths ∧
      request = ⟨.memRequest, memoryPayload pcSeq (vMemRequestId pcSeq lvar.lvarIndex) runtimePc (formatHex address)
        width [("reason", .str "v_variable_stack"), ("variable", .str name), ("lvar_index", .int lvar.lvarIndex)]⟩ := by
  have hinv := beginPc_inv s provider lvars functionEa currentEa runtimePc pcSeq selection hnodup
  have hwidths := beginPc_readWidths s provider functionEa currentEa runtimePc pcSeq selection hnodup
  have hseq : (s.beginPc provider lvars functionEa currentEa runtimePc pcSeq selection).1.pcSeq = some pcSeq ∧
      (s.beginPc provider lvars functionEa currentEa runtimePc pcSeq selection).1.runtimePc = runtimePc := by
    have hplan := beginLoop_inv s lvars functionEa currentEa runtimePc pcSeq
      (analyze provider functionEa currentEa lvars (selectedIndexes lvars selection))
      (selectedIndexes lvars selection) hnodup
    rw [beginPc_eq s provider lvars functionEa currentEa runtimePc pcSeq selection rfl]
    dsimp only
    split
    · exact ⟨hplan.pcSeq, hplan.runtimePc⟩
    · exact ⟨hplan.pcSeq, hplan.runtimePc⟩
  generalize s.beginPc provider lvars functionEa currentEa runtimePc pcSeq selection = opened at h hinv hwidths hseq
  rw [answerRegisters] at h
  split at h
  · cases h
  · rename_i asked _
    dsimp only at h
    rw [applyRegResponse] at h
    split at h
    · cases h
    · rename_i pending taken htake
      obtain ⟨hflying, hpending, -, -⟩ := takePending_inv hinv htake
      split at h
      · cases h
      · split at h
        · cases h
        · rename_i registers _
          obtain ⟨i, address, width, name, haddress, hwidth, rfl⟩ := (registerLoop_requests_reads registers pending
            pending.lvarIndexes (taken, []) hflying.flying (Changes.readWidths (changes_take htake) hwidths)
            (by rintro _ ⟨⟩) request h).shape
          obtain ⟨j, hj, hindex⟩ := registerLoop_forall
            (P := fun request => ∃ i ∈ pending.lvarIndexes, request.payload.get "lvar_index" = .int i) registers pending
            pending.lvarIndexes (taken, []) (fun i hi _ _ => ⟨i, hi, rfl⟩) (by rintro _ ⟨⟩) _ h
          obtain rfl : i = j := Json.int.inj hindex
          obtain ⟨lvar, hlvar, rfl⟩ := plannedReads_mem (hflying.flying i hj)
          have hpc : pending.pcSeq = pcSeq := Option.some.inj (hpending.pcSeq.symm.trans hseq.1)
          rw [hpc, hpending.runtimePc, hseq.2]
          exact ⟨lvar, hlvar, address, width, name, haddress, hwidth, rfl⟩

/-- The extension can answer every request of a recovery with registers and addresses of the machine. -/
theorem asks_of_beginPc (m : Machine) (s : VVariableRecovery) (hprovider : provider.NamesRegisters)
    (hnodup : (lvars.map VariableRecord.lvarIndex).Nodup) (hlow : 0 ≤ pcSeq) (hhigh : pcSeq < 2 ^ 32)
    (hpc : HexText runtimePc)
    (hroom : ∀ lvar ∈ lvars, (vMemRequestId pcSeq lvar.lvarIndex).toList.length < 128) :
    Asks m (s.beginPc provider lvars functionEa currentEa runtimePc pcSeq selection) := by
  constructor
  · intro request hrequest
    obtain ⟨registers, hregisters, rfl⟩ := beginPc_request hprovider hrequest
    exact ⟨.reg "v_variable_recovery" hlow hhigh hpc hregisters, rfl⟩
  · intro request hrequest
    obtain ⟨lvar, hlvar, address, width, name, haddress, hwidth, rfl⟩ := answerRegisters_requests m s hnodup hrequest
    exact ⟨.mem "v_variable_stack" name hlow hhigh hpc haddress hwidth (hroom lvar hlvar), rfl⟩

end opened

section stages
variable {m : Machine} {opened : VVariableRecovery × Option Request} {s : VVariableRecovery} {request : Request}
  {left : List Request}

theorem Stage.pcSeq (h : Stage m opened s left) : s.pcSeq = opened.1.pcSeq := by
  cases h with
  | asked _ => rfl
  | reading _ => exact (answerMemory_pcSeq m _ _).trans (answerRegisters_pcSeq m opened)

/-- An opened recovery waits for its register request, if it has one. -/
theorem Stage.opening (m : Machine) (opened : VVariableRecovery × Option Request) :
    Stage m opened opened.1 opened.2.toList := by
  cases h : opened.2 with
  | none =>
    have hnone : answerRegisters m opened = (opened.1, []) := by rw [answerRegisters, h]
    have hdone : (answerRegisters m opened).2 = [] ++ [] := by rw [hnone]; rfl
    have hstage := Stage.reading hdone
    rwa [hnone] at hstage
  | some request => exact .asked h

/-- What is still to be answered is a request the extension has room for. -/
theorem Stage.askable (hasks : Asks m opened) (h : Stage m opened s left) (hrequest : request ∈ left) :
    Askable request := by
  cases h with
  | asked h =>
    obtain rfl := List.mem_singleton.mp hrequest
    exact (hasks.registers _ h).1
  | reading h => exact (hasks.memory request (h ▸ List.mem_append_right _ hrequest)).1

/-- The machine's answer to a register request raises the memory requests. -/
theorem Stage.registers_answered (hasks : Asks m opened) (h : Stage m opened s (request :: left))
    (htype : request.type = .regRequest) :
    Stage m opened (s.applyRegResponse (m.regResponse request.payload)).recovery
      (left ++ (s.applyRegResponse (m.regResponse request.payload)).memRequests) := by
  cases h with
  | asked h =>
    have hmid : answerRegisters m opened = ((opened.1.applyRegResponse (m.regResponse request.payload)).recovery,
        (opened.1.applyRegResponse (m.regResponse request.payload)).memRequests) := by
      rw [answerRegisters, h]
    have hnext : Stage m opened (answerMemory m (answerRegisters m opened).1 []) (answerRegisters m opened).2 :=
      .reading rfl
    rw [hmid] at hnext
    exact hnext
  | reading h =>
    have hmem := (hasks.memory request (h ▸ List.mem_append_right _ (List.mem_cons_self ..))).2
    exact absurd (htype.symm.trans hmem) (by decide)

/-- The machine's answer to a memory request raises none. -/
theorem Stage.memory_answered (hasks : Asks m opened) (h : Stage m opened s (request :: left))
    (htype : request.type ≠ .regRequest) :
    Stage m opened (s.applyMemResponse (m.memResponse request.payload)).recovery left := by
  cases h with
  | asked h => exact absurd (hasks.registers _ h).2 htype
  | reading h =>
    rename_i answered
    have hnext : Stage m opened (answerMemory m (answerRegisters m opened).1 (answered ++ [request])) left :=
      .reading (h.trans (List.append_cons answered request left))
    rw [answerMemory, List.foldl_append] at hnext
    exact hnext

/-- Once nothing is left to be answered, the rows are those of the machine. -/
theorem Stage.answered (h : Stage m opened s []) : AnsweredRows m opened s.records := by
  cases h with
  | reading h =>
    rename_i answered
    rw [List.append_nil] at h
    exact ⟨answered, h ▸ .refl _, rfl⟩

end stages
end DynvarSync.Session
