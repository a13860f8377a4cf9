import DynvarSync.Ida.Correlation

/-! Memory replies for another address or size: the local recovery leaves the request pending, the
argument planner looks only at the correlation fields. -/
namespace DynvarSync.Ida
open Lib PyText

/-- The reply names an address or a size that is not the planned one. -/
def Mismatched (payload : Payload) (address : String) (size : Nat) : Prop :=
  (payload.get "address").isNull = false ∧ (payload.get "address").eqStr "" = false ∧
      (payload.get "address").eqStr address = false ∨
    (payload.get "size").isNull = false ∧ (payload.get "size").eqInt size = false

instance (payload : Payload) (address : String) (size : Nat) : Decidable (Mismatched payload address size) := by
  unfold Mismatched
  infer_instance

namespace VVariableRecovery

theorem applyMemResponse_mismatched {s : VVariableRecovery} {payload : Payload} {id : String}
    {pending : PendingVRequest}
    (hid : payload.get "request_id" = .str id) (hget : s.pending.get? id = some pending)
    (hmismatched : Mismatched payload pending.address pending.size) :
    (s.applyMemResponse payload).accepted = false := by
  unfold applyMemResponse
  cases htake : s.takePending payload .mem with
  | error reason => rfl
  | ok taken =>
    obtain ⟨p, s'⟩ := taken
    obtain ⟨_, id', _, _, _, hid', hget', _⟩ := takePending_ok htake
    rw [hid] at hid'
    cases hid'
    rw [hget] at hget'
    cases hget'
    dsimp only
    rcases hmismatched with ⟨hpresent, hne, haddress⟩ | ⟨hpresent, hsize⟩
    · rw [hpresent, hne, haddress]
      rfl
    · rw [hpresent, hsize]
      split <;> rfl

end VVariableRecovery

namespace DayVarCore

/-- The reply belongs to the current PC, by its sequence number and runtime address. -/
def InContext (core : DayVarCore) (payload : Payload) : Prop :=
  ∃ current, core.currentPc = some current ∧ (payload.get "pc_seq").eqInt current.pcSeq = true ∧
    ((payload.get "runtime_pc").isTruthy = true → (payload.get "runtime_pc").eqStr current.runtimePc = true)

/-- The reply made no row fresh and left the request it names pending. -/
def Refuses (core : DayVarCore) (payload : Payload) (id : String) : Prop :=
  let after := (core.applyMemResponse payload).core
  (∀ row ∈ after.rows, row.status = .fresh → row ∈ core.rows) ∧
    after.pendingRequests.get? id = core.pendingRequests.get? id

theorem takePendingResponse_inContext {core : DayVarCore} {payload : Payload} {id : String} {pending : PendingRequest}
    (hid : payload.get "request_id" = .str id) (hget : core.pendingRequests.get? id = some pending)
    (hcontext : core.InContext payload) : core.takePendingResponse payload pending.kind =
      .ok (pending, { core with pendingRequests := core.pendingRequests.pop id }) := by
  obtain ⟨current, hcurrent, hseq, hpc⟩ := hcontext
  unfold takePendingResponse
  rw [hcurrent]
  have hrt : ((payload.get "runtime_pc").isTruthy && !(payload.get "runtime_pc").eqStr current.runtimePc) = false := by
    cases htruthy : (payload.get "runtime_pc").isTruthy with
    | false => rfl
    | true => rw [hpc htruthy]; rfl
  simp [hseq, hrt, hid, Json.asStr, hget]

/-- A reply is refused exactly when it is out of context or names a register request. -/
theorem refuses_iff {core : DayVarCore} {payload : Payload} {id : String} {pending : PendingRequest}
    (hid : payload.get "request_id" = .str id) (hget : core.pendingRequests.get? id = some pending) :
    core.Refuses payload id ↔ ¬ (core.InContext payload ∧ pending.kind = .mem) := by
  unfold Refuses applyMemResponse
  cases htake : core.takePendingResponse payload .mem with
  | error reason =>
    refine iff_of_true ⟨fun row hrow _ => hrow, rfl⟩ fun ⟨hcontext, hkind⟩ => ?_
    rw [← hkind, takePendingResponse_inContext hid hget hcontext] at htake
    cases htake
  | ok taken =>
    obtain ⟨p, core'⟩ := taken
    obtain ⟨current, id', hcurrent, hseq, hpc, hid', hget', hkind, rfl⟩ := takePendingResponse_ok htake
    rw [hid] at hid'
    cases hid'
    rw [hget] at hget'
    cases hget'
    refine iff_of_false (fun hrefuses => ?_) (not_not.mpr ⟨⟨current, hcurrent, hseq, hpc⟩, hkind⟩)
    have hpopped := hrefuses.2
    rw [hget] at hpopped
    simp at hpopped

end DayVarCore

/-- In every reachable state the local recovery refuses every successful reply for another address or size. The argument
planner refuses it only when the reply is out of context or names a register request. -/
theorem mismatched_reply_refused_iff (payload : Payload) (id : String) :
    (∀ (ops : List DayVarCore.Op) (pending : PendingRequest),
      let core := ({} : DayVarCore).run ops
      (payload.get "ok").isTrue = true → payload.get "request_id" = .str id →
        core.pendingRequests.get? id = some pending → Mismatched payload pending.address pending.size →
        (core.Refuses payload id ↔ ¬ (core.InContext payload ∧ pending.kind = .mem))) ∧
    (∀ (maxHistory : Int) (ops : List VVariableRecovery.Op) (pending : PendingVRequest),
      let s := (VVariableRecovery.init maxHistory).run ops
      (payload.get "ok").isTrue = true → payload.get "request_id" = .str id → s.pending.get? id = some pending →
        Mismatched payload pending.address pending.size → s.Same (s.applyMemResponse payload).recovery) := by
  refine ⟨fun ops pending => ?_, fun maxHistory ops pending => ?_⟩
  · intro core _ hid hget _
    exact DayVarCore.refuses_iff hid hget
  · intro s _ hid hget hmismatched
    have hv : VVariableRecovery.scheme.Valid s.pending := VVariableRecovery.run_valid RequestScheme.valid_empty ops
    exact (VVariableRecovery.applyMemResponse_correlates hv payload).1
      (VVariableRecovery.applyMemResponse_mismatched hid hget hmismatched)

namespace DayVarCore

/-- A fifth argument at function entry, read at the address `rsp` gives. -/
def stackArgOps : List Op :=
  [.buildEntryPlan [{ lvarIndex := 0, name := "a5", size := 8, isArg := true, argIndex := some 4 }]
     { pcSeq := 1, runtimePc := "0x1000", idaEa := "0x1000", atFunctionEntry := true },
   .applyRegResponse [("pc_seq", .int 1), ("request_id", .str "reg-1-entry"), ("ok", .bool true),
     ("registers", .obj [("rsp", .str "0x2000")])]]

def stackArgRequest : PendingRequest :=
  { kind := .mem, pcSeq := 1, requestId := "mem-1-a5", runtimePc := "0x1000", variableNames := ["a5"]
    address := "0x2028", size := 8 }

def otherAddressReply : Payload :=
  [("pc_seq", .int 1), ("request_id", .str "mem-1-a5"), ("ok", .bool true), ("address", .str "0x3000"),
   ("size", .int 8), ("bytes_hex", .str "0100000000000000")]

end DayVarCore

theorem mismatched_reply_refused_iff_a5 :
    ¬ (({} : DayVarCore).run DayVarCore.stackArgOps).Refuses DayVarCore.otherAddressReply "mem-1-a5" := by
  have hrefused := (mismatched_reply_refused_iff DayVarCore.otherAddressReply "mem-1-a5").1 DayVarCore.stackArgOps
    DayVarCore.stackArgRequest (by decide) rfl (by decide) (by decide)
  rw [hrefused, not_not]
  exact ⟨⟨_, rfl, by decide, by decide⟩, rfl⟩

/-- The argument planner marks the row fresh for a reply with another address than the one it asked for. -/
theorem other_address_reply_accepted :
    ¬ ∀ (ops : List DayVarCore.Op) (payload : Payload) (id : String) (pending : PendingRequest),
      let core := ({} : DayVarCore).run ops
      (payload.get "ok").isTrue = true → payload.get "request_id" = .str id →
        core.pendingRequests.get? id = some pending → Mismatched payload pending.address pending.size →
        core.Refuses payload id := by
  intro h
  have hrefuses := h DayVarCore.stackArgOps DayVarCore.otherAddressReply "mem-1-a5" DayVarCore.stackArgRequest
    (by decide) rfl (by decide) (by decide)
  exact absurd hrefuses.1 (by decide)

end DynvarSync.Ida
