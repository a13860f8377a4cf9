import DynvarSync.Ida.VRecoveryHistory
import DynvarSync.Ida.Correlation

/-! The recovery engine action by action: every operation is a sequence of actions, each of which makes at most one
successful observation. -/
namespace DynvarSync.Ida
open Lib PyText

namespace VVariableRecovery

/-- One action of an operation: a context that starts or ends, one variable of a loop, or bookkeeping. -/
inductive Action where
  | start (functionEa currentEa : Int) (runtimePc : String) (pcSeq : Int) (sourceVariables : List VariableRecord)
      (evidence : Dict Int RecoveryEvidence)
  | clear
  | plan (ok : Bool) (selected : List Int) (currentEa : Int) (runtimePc : String) (lvar : VariableRecord)
  | register (registers : Payload) (pending : PendingVRequest) (lvarIndex : Int)
  | memory (payload : Payload) (pending : PendingVRequest) (lvarIndex : Int)
  | readError (lvarIndexes : List Int) (reason : String)
  | await (pending : Dict String PendingVRequest)

/-- A variable is planned at the `pc_seq` of the context. -/
def act (s : VVariableRecovery) : Action → VVariableRecovery
  | .start functionEa currentEa runtimePc pcSeq sourceVariables evidence =>
    let started := s.startContext functionEa currentEa runtimePc pcSeq
    { started with sourceVariables := sourceVariables, evidence := evidence }
  | .clear => s.clearRuntimeState
  | .plan ok selected currentEa runtimePc lvar =>
    (planVariable ok selected currentEa runtimePc (s.pcSeq.getD 0) { recovery := s } lvar).recovery
  | .register registers pending lvarIndex => (applyRegisterIndex registers pending (s, []) lvarIndex).1
  | .memory payload pending lvarIndex => applyMemoryIndex payload pending s lvarIndex
  | .readError lvarIndexes reason => s.markReadError lvarIndexes reason
  | .await pending => { s with pending := pending }

/-- The actions of a register response: the request is taken, then every variable it was for has its turn. -/
def regResponseActions (s : VVariableRecovery) (payload : Payload) : List Action :=
  match s.takePending payload .reg with
  | .error _ => []
  | .ok (pending, taken) => .await taken.pending ::
    if !(payload.get "ok").isTrue then [.readError pending.lvarIndexes "register read failed"]
    else match (payload.get "registers").asObj with
      | none => [.readError pending.lvarIndexes "reg_response missing registers"]
      | some registers => pending.lvarIndexes.map (.register registers pending)

/-- The actions of a memory response: one that does not fit its request is put back. -/
def memResponseActions (s : VVariableRecovery) (payload : Payload) : List Action :=
  match s.takePending payload .mem with
  | .error _ => []
  | .ok (pending, taken) =>
    if (s.applyMemResponse payload).accepted then
      .await taken.pending :: pending.lvarIndexes.map (.memory payload pending)
    else [.await (s.applyMemResponse payload).recovery.pending]

/-- The actions of an operation. -/
def actionsOf (s : VVariableRecovery) : Op → List Action
  | .beginPc provider lvars functionEa currentEa runtimePc pcSeq selection =>
    let selected := selectedIndexes lvars selection
    let analysis := analyze provider functionEa currentEa lvars selected
    .start functionEa currentEa runtimePc pcSeq (localVariables lvars) analysis.evidenceByIndex ::
      (localVariables lvars).map (.plan analysis.ok selected currentEa runtimePc) ++
      [.await (s.beginPc provider lvars functionEa currentEa runtimePc pcSeq selection).1.pending]
  | .invalidatePc pcSeq runtimePc => [.start 0 0 runtimePc pcSeq [] Dict.empty]
  | .clearRuntimeState => [.clear]
  | .applyRegResponse payload => s.regResponseActions payload
  | .applyMemResponse payload => s.memResponseActions payload

/-- The actions of a run. -/
def runActions (s : VVariableRecovery) : List Op → List Action
  | [] => []
  | op :: ops => s.actionsOf op ++ runActions (s.step op) ops

theorem planVariable_recovery (ok : Bool) (selected : List Int) (currentEa : Int) (runtimePc : String) (pcSeq : Int)
    (p : PlanState) (lvar : VariableRecord) :
    (planVariable ok selected currentEa runtimePc pcSeq p lvar).recovery =
      (planVariable ok selected currentEa runtimePc pcSeq { recovery := p.recovery } lvar).recovery := by
  unfold planVariable
  dsimp only
  split
  · rfl
  · split
    · split
      · rfl
      · rfl
    · split
      · rfl
      · rfl
    · split
      · rfl
      · rfl
    · rfl

theorem applyRegisterIndex_recovery (registers : Payload) (pending : PendingVRequest) (s : VVariableRecovery)
    (out : List Request) (i : Int) : (applyRegisterIndex registers pending (s, out) i).1 =
      (applyRegisterIndex registers pending (s, []) i).1 := by
  unfold applyRegisterIndex
  dsimp only
  split
  · split
    · split
      · rfl
      · rfl
    · split
      · rfl
      · rfl
    · rfl
  · rfl

theorem planVariable_pcSeq (ok : Bool) (selected : List Int) (currentEa : Int) (runtimePc : String) (pcSeq : Int)
    (p : PlanState) (lvar : VariableRecord) :
    (planVariable ok selected currentEa runtimePc pcSeq p lvar).recovery.pcSeq = p.recovery.pcSeq := by
  rcases planVariable_cases ok selected currentEa runtimePc pcSeq p lvar with
    ⟨_, _, reason, keep, heq⟩ | ⟨_, n, c, _, _, _, _, heq⟩ | ⟨_, reason, register, _, _, heq⟩
  · rw [heq, store_pcSeq]
  · rw [heq, markFresh_pcSeq]
  · rw [heq, store_pcSeq]

theorem planLoop_actions (ok : Bool) (selected : List Int) (currentEa : Int) (runtimePc : String) (pcSeq : Int)
    (lvars : List VariableRecord) (p : PlanState) (h : p.recovery.pcSeq = some pcSeq) :
    (lvars.foldl (planVariable ok selected currentEa runtimePc pcSeq) p).recovery =
      (lvars.map (Action.plan ok selected currentEa runtimePc)).foldl act p.recovery := by
  induction lvars generalizing p with
  | nil => rfl
  | cons lvar lvars ih =>
    rw [List.foldl_cons, ih _ ((planVariable_pcSeq ..).trans h), List.map_cons, List.foldl_cons,
      planVariable_recovery, act, h]
    rfl

theorem registerLoop_actions (registers : Payload) (pending : PendingVRequest) (indexes : List Int)
    (acc : VVariableRecovery × List Request) :
    (indexes.foldl (applyRegisterIndex registers pending) acc).1 =
      (indexes.map (Action.register registers pending)).foldl act acc.1 := by
  induction indexes generalizing acc with
  | nil => rfl
  | cons i indexes ih =>
    rw [List.foldl_cons, ih, List.map_cons, List.foldl_cons, act, ← applyRegisterIndex_recovery _ _ _ acc.2]

theorem memoryLoop_actions (payload : Payload) (pending : PendingVRequest) (indexes : List Int)
    (s : VVariableRecovery) :
    indexes.foldl (applyMemoryIndex payload pending) s =
      (indexes.map (Action.memory payload pending)).foldl act s := by
  induction indexes generalizing s with
  | nil => rfl
  | cons i indexes ih => exact ih _

theorem takePending_recovery {s taken : VVariableRecovery} {payload : Payload} {kind : RequestKind}
    {p : PendingVRequest} (h : s.takePending payload kind = .ok (p, taken)) : taken = s.act (.await taken.pending) := by
  obtain ⟨_, _, _, _, _, _, _, _, rfl⟩ := takePending_ok h
  rfl

/-- `begin_pc` sets its pending table after the loop over the variables. -/
theorem beginPc_awaits (s : VVariableRecovery) (provider : AnalysisProvider) (lvars : List VariableRecord)
    (functionEa currentEa : Int) (runtimePc : String) (pcSeq : Int) (selection : Option (List Int)) :
    let analysis := analyze provider functionEa currentEa lvars (selectedIndexes lvars selection)
    let loop := (localVariables lvars).foldl
      (planVariable analysis.ok (selectedIndexes lvars selection) currentEa runtimePc pcSeq)
      (s.planningStart analysis lvars functionEa currentEa runtimePc pcSeq)
    let begun := (s.beginPc provider lvars functionEa currentEa runtimePc pcSeq selection).1
    begun = { loop.recovery with pending := begun.pending } := by
  rw [beginPc_eq s provider lvars functionEa currentEa runtimePc pcSeq selection rfl]
  dsimp only
  split
  · rfl
  · rfl

theorem applyRegResponse_actions (s : VVariableRecovery) (payload : Payload) :
    (s.applyRegResponse payload).recovery = (s.regResponseActions payload).foldl act s := by
  unfold applyRegResponse regResponseActions
  cases htake : s.takePending payload .reg with
  | error reason => rfl
  | ok taken =>
    obtain ⟨p, taken⟩ := taken
    dsimp only
    rw [List.foldl_cons, ← takePending_recovery htake]
    split
    · rfl
    · cases (payload.get "registers").asObj with
      | none => rfl
      | some registers => exact registerLoop_actions registers p p.lvarIndexes (taken, [])

theorem applyMemResponse_actions (s : VVariableRecovery) (payload : Payload) :
    (s.applyMemResponse payload).recovery = (s.memResponseActions payload).foldl act s := by
  unfold memResponseActions
  cases htake : s.takePending payload .mem with
  | error reason =>
    unfold applyMemResponse
    rw [htake]
    rfl
  | ok taken =>
    obtain ⟨p, taken⟩ := taken
    dsimp only
    have hback : s.act (.await (taken.pending.set p.requestId p)) =
        { taken with pending := taken.pending.set p.requestId p } := by
      obtain ⟨_, _, _, _, _, _, _, _, rfl⟩ := takePending_ok htake
      rfl
    unfold applyMemResponse
    rw [htake]
    dsimp only
    split
    · exact hback.symm
    · split
      · exact hback.symm
      · rw [if_pos rfl, List.foldl_cons, ← takePending_recovery htake]
        exact memoryLoop_actions payload p p.lvarIndexes taken

/-- Every operation is the sequence of its actions. -/
theorem step_eq_actions (s : VVariableRecovery) (op : Op) : s.step op = (s.actionsOf op).foldl act s := by
  cases op with
  | beginPc provider lvars functionEa currentEa runtimePc pcSeq selection =>
    have hloop := planLoop_actions
      (analyze provider functionEa currentEa lvars (selectedIndexes lvars selection)).ok
      (selectedIndexes lvars selection) currentEa runtimePc pcSeq (localVariables lvars)
      (s.planningStart (analyze provider functionEa currentEa lvars (selectedIndexes lvars selection)) lvars functionEa
        currentEa runtimePc pcSeq) rfl
    have hbegun := beginPc_awaits s provider lvars functionEa currentEa runtimePc pcSeq selection
    dsimp only at hbegun
    rw [hloop] at hbegun
    rw [actionsOf, List.foldl_append, List.foldl_cons, List.foldl_cons, List.foldl_nil]
    exact hbegun
  | invalidatePc pcSeq runtimePc => rfl
  | clearRuntimeState => rfl
  | applyRegResponse payload => exact applyRegResponse_actions s payload
  | applyMemResponse payload => exact applyMemResponse_actions s payload

theorem run_eq_actions (s : VVariableRecovery) (ops : List Op) : s.run ops = (s.runActions ops).foldl act s := by
  induction ops generalizing s with
  | nil => rfl
  | cons op ops ih =>
    rw [runActions, List.foldl_append, ← step_eq_actions]
    exact ih (s.step op)

end VVariableRecovery
end DynvarSync.Ida
