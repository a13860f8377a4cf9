import DynvarSync.Ida.CoreEntry

/-! Memory replies are matched to rows by variable name: every argument row shows
its own location exactly when no stack argument shares its name. -/
namespace DynvarSync.Ida.DayVarCore
open Lib PyText Windbg

section memoryReplies
variable (m : Machine) (context : PcContext)

/-- The request of a stack argument is outstanding. -/
structure StackReady (lvar : VariableRecord) (core : DayVarCore) : Prop where
  current : core.currentPc = some context
  pending : core.pendingRequests.get? (memRequestId context.pcSeq lvar.name) = some (stackPending m context lvar)

/-- What a stack argument shows after its reply. -/
def stackValue (lvar : VariableRecord) : String :=
  m.memoryText (stackArgAddress m (lvar.argIndex.getD 0)) (runtimeReadSize lvar.size)

def StackShown (lvar : VariableRecord) (core : DayVarCore) : Prop :=
  ∀ row ∈ core.rows, row.name = lvar.name → row.status = .fresh ∧ row.value = stackValue m lvar

def answerStackArg (core : DayVarCore) (lvar : VariableRecord) : DayVarCore :=
  (core.applyMemResponse (m.memResponse (stackPayload m context lvar))).core

theorem formatMemoryValue_toHex (data : List UInt8) (h : data.length ∈ supportedWidths) :
    formatMemoryValue (toHex data) data.length = formatHex (fromLittleEndian data) := by
  simp [formatMemoryValue, h, fromHex_toHex]

/-- The machine's reply is accepted, and applied to every row of the name. -/
theorem answerStackArg_ready {lvar : VariableRecord} {core : DayVarCore} (h : StackReady m context lvar core) :
    answerStackArg m context core lvar =
      { core with
        pendingRequests := core.pendingRequests.pop (memRequestId context.pcSeq lvar.name)
        rows := core.rows.map
          (applyEntryMemory (m.memResponse (stackPayload m context lvar)) (stackPending m context lvar)) } := by
  have htake : core.takePendingResponse (m.memResponse (stackPayload m context lvar)) .mem =
      .ok (stackPending m context lvar,
        { core with pendingRequests := core.pendingRequests.pop (memRequestId context.pcSeq lvar.name) }) := by
    simp [takePendingResponse, Machine.memResponse, stackPayload, h.current, Json.asStr, h.pending, stackPending]
  rw [answerStackArg, applyMemResponse, htake]

theorem applyEntryMemory_other {payload : Payload} {lvar row : VariableRecord} (h : row.name ≠ lvar.name) :
    applyEntryMemory payload (stackPending m context lvar) row = row :=
  if_pos (mt List.mem_singleton.mp h)

theorem applyEntryMemory_same {payload : Payload} {pending : PendingRequest} {lvar row : VariableRecord}
    (h : SameLvar lvar row) : SameLvar lvar (applyEntryMemory payload pending row) := by
  unfold applyEntryMemory
  split
  · exact h
  · dsimp only
    split <;> exact ⟨h.name, h.isArg, h.argIndex, h.size⟩

theorem applyEntryMemory_shown {lvar row : VariableRecord} (h : row.name = lvar.name) :
    let row' := applyEntryMemory (m.memResponse (stackPayload m context lvar)) (stackPending m context lvar) row
    row'.status = .fresh ∧ row'.value = stackValue m lvar := by
  have haddress : Machine.requestedAddress (stackPayload m context lvar) =
      stackArgAddress m (lvar.argIndex.getD 0) := by
    simp [Machine.requestedAddress, stackPayload, Json.asStr, intAuto_formatHex]
  have hsize : Machine.requestedSize (stackPayload m context lvar) = runtimeReadSize lvar.size := by
    simp [Machine.requestedSize, stackPayload]
  have hvalue := formatMemoryValue_toHex
    (m.readMemory (stackArgAddress m (lvar.argIndex.getD 0)) (runtimeReadSize lvar.size))
    (by rw [m.readMemory_length]; exact runtimeReadSize_supported _)
  rw [m.readMemory_length] at hvalue
  have hin : ¬ row.name ∉ (stackPending m context lvar).variableNames := fun hn => hn (List.mem_singleton.mpr h)
  unfold applyEntryMemory
  rw [if_neg hin, Machine.memResponse, haddress, hsize]
  simp [Json.text, stackPending, hvalue, stackValue, Machine.memoryText]

theorem StackReady.turn {x y : VariableRecord} {core : DayVarCore} (hne : x.name ≠ y.name)
    (hy : StackReady m context y core) (hx : StackReady m context x core) :
    StackReady m context x (answerStackArg m context core y) := by
  rw [answerStackArg_ready m context hy]
  refine ⟨hx.current, ?_⟩
  rw [Dict.get?_pop_ne _ fun h => hne (memRequestId_injective h)]
  exact hx.pending

/-- The replies to stack arguments of distinct names, in any order. -/
theorem stackReplies_shown {lvars order : List VariableRecord} {core : DayVarCore}
    (hnodup : (order.map VariableRecord.name).Nodup) (hready : ∀ lvar ∈ order, StackReady m context lvar core)
    (hrows : List.Forall₂ (fun lvar row => SameLvar lvar row ∧ RegistersDone m lvar row) lvars core.rows) :
    let final := order.foldl (answerStackArg m context) core
    (∀ lvar ∈ order, StackShown m lvar final) ∧
      List.Forall₂ (fun lvar row => SameLvar lvar row ∧
        (lvar.name ∉ order.map VariableRecord.name → RegistersDone m lvar row)) lvars final.rows := by
  have hturn : ∀ (x y : VariableRecord) (core : DayVarCore), x.name ≠ y.name → StackReady m context y core →
      StackReady m context x core → StackReady m context x (answerStackArg m context core y) :=
    fun _ _ _ hne hy hx => StackReady.turn m context hne hy hx
  constructor
  · refine AnyOrder.answered VariableRecord.name _ (StackReady m context) (StackShown m) ?_ hturn ?_ order core hnodup
      hready
    · intro x core hx row hrow hname
      rw [answerStackArg_ready m context hx] at hrow
      obtain ⟨row, _, rfl⟩ := List.mem_map.mp hrow
      exact applyEntryMemory_shown m context ((applyEntryMemory_same (.refl row)).name.symm.trans hname)
    · intro x y core hne hy hx row hrow hname
      rw [answerStackArg_ready m context hy] at hrow
      obtain ⟨before, hbefore, rfl⟩ := List.mem_map.mp hrow
      have hx' : before.name = x.name := (applyEntryMemory_same (.refl before)).name.symm.trans hname
      rw [applyEntryMemory_other m context fun h => hne (hx'.symm.trans h)]
      exact hx before hbefore hx'
  · refine AnyOrder.preserved VariableRecord.name _ (StackReady m context) (fun core =>
      List.Forall₂ (fun lvar row => SameLvar lvar row ∧
        (lvar.name ∉ order.map VariableRecord.name → RegistersDone m lvar row)) lvars core.rows)
      hturn order core ?_ hnodup hready (hrows.imp fun _ _ h => ⟨h.1, fun _ => h.2⟩)
    intro y hy core hready h
    rw [answerStackArg_ready m context hready]
    rw [List.forall₂_map_right_iff]
    refine h.imp fun lvar row ⟨hsame, hkept⟩ => ⟨applyEntryMemory_same hsame, fun hout => ?_⟩
    have hne : row.name ≠ y.name := fun he => hout (hsame.name ▸ he ▸ List.mem_map_of_mem hy)
    rw [applyEntryMemory_other m context hne]
    exact hkept hout

end memoryReplies

section rows
variable (m : Machine)

theorem entryCorrect_of_stack {lvar row : VariableRecord} (hstack : isStackArg lvar = true)
    (h : row.status = .fresh ∧ row.value = stackValue m lvar) : EntryCorrect m lvar row := by
  obtain ⟨i, hpos, hindex, hregister⟩ := (isStackArg_iff lvar).mp hstack
  unfold EntryCorrect entryValue
  rw [hpos]
  dsimp only
  rw [hregister]
  rw [stackValue, hindex] at h
  exact h

theorem entryCorrect_of_register {lvar row : VariableRecord} (hstack : isStackArg lvar = false)
    (h : RegistersDone m lvar row) : EntryCorrect m lvar row := by
  unfold RegistersDone at h
  unfold EntryCorrect entryValue
  cases hpos : argPosition lvar with
  | none =>
    rw [hpos] at h
    intro hfresh
    rw [hfresh] at h
    cases h
  | some i =>
    cases hregister : entryRegisters[i]? with
    | none =>
      have hindex := ((argPosition_eq_some_iff lvar i).mp hpos).2
      rw [(isStackArg_iff lvar).mpr ⟨i, hpos, hindex, hregister⟩] at hstack
      cases hstack
    | some register =>
      rw [hpos, Option.bind_some, hregister] at h
      dsimp only
      rw [hregister]
      exact h

end rows

/-- The debugger's answers to the stack requests, in the order `order`. -/
theorem answerMemory_eq (m : Machine) (context : PcContext) (core : DayVarCore) (order : List Envelope)
    (lvars : List VariableRecord) (h : order.map Envelope.payload = lvars.map (stackPayload m context)) :
    answerMemory m core order = lvars.foldl (answerStackArg m context) core := by
  have hfold : answerMemory m core order =
      (order.map Envelope.payload).foldl (fun core p => (core.applyMemResponse (m.memResponse p)).core) core := by
    rw [List.foldl_map]
    rfl
  rw [hfold, h, List.foldl_map]
  rfl

/-- No stack argument shares its name with another variable. -/
def StackNamesUnique (lvars : List VariableRecord) : Prop :=
  lvars.Pairwise fun a b => isStackArg a = true ∨ isStackArg b = true → a.name ≠ b.name

instance (lvars : List VariableRecord) : Decidable (StackNamesUnique lvars) :=
  inferInstanceAs (Decidable (List.Pairwise _ lvars))

theorem StackNamesUnique.nodup {lvars : List VariableRecord} (h : StackNamesUnique lvars) :
    ((lvars.filter isStackArg).map VariableRecord.name).Nodup := by
  rw [List.Nodup, List.pairwise_map, List.pairwise_filter]
  exact h.imp fun hab ha _ => hab (.inl ha)

theorem StackNamesUnique.name_not_mem {lvars : List VariableRecord} (h : StackNamesUnique lvars)
    {lvar : VariableRecord} (hl : lvar ∈ lvars) (hstack : isStackArg lvar = false) :
    lvar.name ∉ (lvars.filter isStackArg).map VariableRecord.name := by
  intro hin
  obtain ⟨other, hother, hname⟩ := List.mem_map.mp hin
  obtain ⟨hother, harg⟩ := List.mem_filter.mp hother
  have hne : other ≠ lvar := by
    rintro rfl
    rw [harg] at hstack
    cases hstack
  have : Std.Symm fun a b : VariableRecord => isStackArg a = true ∨ isStackArg b = true → a.name ≠ b.name :=
    ⟨fun _ _ h hor => (h hor.symm).symm⟩
  exact h.forall hother hl hne (.inl harg) hname

/-- With unique stack names, every row shows its own location in every order of replies. -/
theorem rows_correct_of_unique {lvars : List VariableRecord} (core : DayVarCore) {context : PcContext}
    (hentry : context.atFunctionEntry = true) (hunique : StackNamesUnique lvars) (m : Machine)
    {order : List Envelope} (horder : order.Perm (answerRegisters m (core.buildEntryPlan lvars context)).2) :
    List.Forall₂ (EntryCorrect m) lvars
      (answerMemory m (answerRegisters m (core.buildEntryPlan lvars context)).1 order).rows := by
  have hmid := answerRegisters_requested m context core lvars hentry
  generalize answerRegisters m (core.buildEntryPlan lvars context) = mid at horder hmid
  have hpayloads : (order.map Envelope.payload).Perm ((lvars.filter isStackArg).map (stackPayload m context)) :=
    hmid.messages ▸ horder.map _
  obtain ⟨answered, hperm, hanswered⟩ := AnyOrder.exists_perm_of_perm_map _ hpayloads
  have hnodup : (answered.map VariableRecord.name).Nodup := (hperm.map _).nodup_iff.mpr hunique.nodup
  have hready : ∀ lvar ∈ answered, StackReady m context lvar mid.1 := fun lvar hl =>
    ⟨hmid.current, hmid.pending hunique.nodup lvar (hperm.mem_iff.mp hl)⟩
  obtain ⟨hshown, hrows⟩ := stackReplies_shown m context hnodup hready hmid.rows
  rw [answerMemory_eq m context mid.1 order answered hanswered]
  refine forall₂_imp_of_mem hrows fun lvar hl row hr ⟨hsame, hkept⟩ => ?_
  cases hstack : isStackArg lvar with
  | true => 
    exact entryCorrect_of_stack m hstack
      (hshown lvar (hperm.mem_iff.mpr (List.mem_filter.mpr ⟨hl, hstack⟩)) row hr hsame.name)
  | false =>
    refine entryCorrect_of_register m hstack (hkept fun hin => ?_)
    exact hunique.name_not_mem hl hstack ((hperm.map _).mem_iff.mp hin)

section sharedNames
variable (m : Machine)

/-- The rows of a name are updated together: none of its stack rows is fresh yet,
or all its rows show the same. -/
def Shared (name : String) (rows : List VariableRecord) : Prop :=
  (∀ row ∈ rows, row.name = name → isStackArg row = true → row.status ≠ .fresh) ∨
    ∃ status value, ∀ row ∈ rows, row.name = name → row.status = status ∧ row.value = value

theorem Shared.turn {name : String} {rows : List VariableRecord} (h : Shared name rows) {payload : Payload}
    (hok : (payload.get "ok").isTrue = true) (pending : PendingRequest) :
    Shared name (rows.map (applyEntryMemory payload pending)) := by
  by_cases hin : name ∈ pending.variableNames
  · refine .inr ⟨.fresh, formatMemoryValue (payload.getD "bytes_hex" (.str "")).text pending.size, ?_⟩
    intro row' hrow' hname
    obtain ⟨row, _, rfl⟩ := List.mem_map.mp hrow'
    have hrow : row.name ∈ pending.variableNames := by
      rw [← (applyEntryMemory_same (.refl row)).name, hname]
      exact hin
    unfold applyEntryMemory
    rw [if_neg (not_not_intro hrow)]
    dsimp only
    rw [if_pos hok]
    exact ⟨rfl, rfl⟩
  · have hsame : ∀ row' ∈ rows.map (applyEntryMemory payload pending), row'.name = name → row' ∈ rows := by
      intro row' hrow' hname
      obtain ⟨row, hrow, rfl⟩ := List.mem_map.mp hrow'
      have hout : row.name ∉ pending.variableNames := by
        rw [← (applyEntryMemory_same (.refl row)).name, hname]
        exact hin
      rw [applyEntryMemory, if_pos hout]
      exact hrow
    rcases h with h | ⟨status, value, h⟩
    · exact .inl fun row hr hname => h row (hsame row hr hname) hname
    · exact .inr ⟨status, value, fun row hr hname => h row (hsame row hr hname) hname⟩

theorem applyMemResponse_rows (core : DayVarCore) (payload : Payload) :
    (core.applyMemResponse payload).core.rows = core.rows ∨
      ∃ pending, (core.applyMemResponse payload).core.rows = core.rows.map (applyEntryMemory payload pending) := by
  unfold applyMemResponse
  cases h : core.takePendingResponse payload .mem with
  | error reason => exact .inl rfl
  | ok taken =>
    obtain ⟨_, _, _, _, _, _, _, _, hcore⟩ := takePendingResponse_ok h
    exact .inr ⟨taken.1, congrArg (fun core => core.rows.map (applyEntryMemory payload taken.1)) hcore⟩

/-- Replies, whichever they are, keep the rows of a name together. -/
theorem answerMemory_shared (name : String) (lvars : List VariableRecord) (order : List Envelope)
    {core : DayVarCore} (hsame : List.Forall₂ SameLvar lvars core.rows) (h : Shared name core.rows) :
    List.Forall₂ SameLvar lvars (answerMemory m core order).rows ∧ Shared name (answerMemory m core order).rows := by
  induction order generalizing core with
  | nil => exact ⟨hsame, h⟩
  | cons message order ih =>
    rw [answerMemory, List.foldl_cons]
    rcases applyMemResponse_rows core (m.memResponse message.payload) with hrows | ⟨pending, hrows⟩
    · exact ih (hrows ▸ hsame) (hrows ▸ h)
    · refine ih ?_ ?_
      · rw [hrows, List.forall₂_map_right_iff]
        exact hsame.imp fun _ _ => applyEntryMemory_same
      · rw [hrows]
        exact h.turn (by simp [Machine.memResponse]) pending

/-- Correct rows of one name agree on their values. -/
theorem values_agree {lvars rows : List VariableRecord} {a b : VariableRecord}
    (hcorrect : List.Forall₂ (EntryCorrect m) lvars rows) (hsame : List.Forall₂ SameLvar lvars rows)
    (hshared : Shared a.name rows) (ha : a ∈ lvars) (hb : b ∈ lvars) (hstack : isStackArg a = true)
    (hname : b.name = a.name) :
    ∃ i j, argPosition a = some i ∧ argPosition b = some j ∧ entryValue m a i = entryValue m b j := by
  have hrow : ∀ lvar ∈ lvars, ∃ row ∈ rows, EntryCorrect m lvar row ∧ SameLvar lvar row := by
    have hboth : List.Forall₂ (fun lvar row => EntryCorrect m lvar row ∧ SameLvar lvar row) lvars rows :=
      hcorrect.mp (fun _ _ h h' => ⟨h, h'⟩) hsame
    exact fun lvar hl => exists_of_forall₂_mem (List.Forall₂.flip hboth) hl
  obtain ⟨rowA, hrowA, hcorrectA, hsameA⟩ := hrow a ha
  obtain ⟨rowB, hrowB, hcorrectB, hsameB⟩ := hrow b hb
  obtain ⟨i, hi, _, _⟩ := (isStackArg_iff a).mp hstack
  rw [EntryCorrect, hi] at hcorrectA
  rcases hshared with hstale | ⟨status, value, hall⟩
  · exact absurd hcorrectA.1 (hstale rowA hrowA hsameA.name (hsameA.isStackArg.trans hstack))
  · obtain ⟨hstatusA, hvalueA⟩ := hall rowA hrowA hsameA.name
    obtain ⟨hstatusB, hvalueB⟩ := hall rowB hrowB (hsameB.name.trans hname)
    have hfresh : rowB.status = .fresh := hstatusB.trans (hstatusA.symm.trans hcorrectA.1)
    cases hj : argPosition b with
    | none =>
      rw [EntryCorrect, hj] at hcorrectB
      exact absurd hfresh hcorrectB
    | some j =>
      rw [EntryCorrect, hj] at hcorrectB
      refine ⟨i, j, hi, rfl, ?_⟩
      rw [← hcorrectA.2, ← hcorrectB.2, hvalueA, hvalueB]

end sharedNames

section machines

theorem fromLittleEndian_zero (data : List UInt8) (h : ∀ b ∈ data, b = 0) : fromLittleEndian data = 0 := by
  induction data with
  | nil => rfl
  | cons b rest ih =>
    rw [fromLittleEndian, h b (List.mem_cons_self ..), ih fun c hc => h c (List.mem_cons_of_mem b hc)]
    rfl

theorem memoryText_zero (m : Machine) (address size : Nat) (h : ∀ k < size, m.memory (address + k) = 0) :
    m.memoryText address size = formatHex (0 : Nat) := by
  rw [Machine.memoryText, fromLittleEndian_zero]
  intro b hb
  obtain ⟨k, hk, rfl⟩ := List.mem_map.mp hb
  exact h k (List.mem_range.mp hk)

/-- A memory value whose first byte is odd is not the zero text. -/
theorem memoryText_ne_zero (m : Machine) (address size : Nat) (hsize : 0 < size) (h : m.memory address = 1) :
    m.memoryText address size ≠ formatHex (0 : Nat) := by
  intro he
  have hvalue := formatHex_injective he
  obtain ⟨n, rfl⟩ : ∃ n, size = n + 1 := ⟨size - 1, by omega⟩
  rw [Machine.readMemory, List.range_succ_eq_map, List.map_cons, fromLittleEndian, Nat.add_zero, h] at hvalue
  have hone : (1 : UInt8).toNat = 1 := rfl
  omega

/-- Ones in the registers, zeros in the memory. -/
def onesMachine : Machine := { registers := fun _ => 1, memory := fun _ => 0 }

theorem entryRegisterText_ones (lvar : VariableRecord) (register : String) :
    entryRegisterText onesMachine lvar register ≠ formatHex (0 : Nat) := by
  intro he
  have hvalue := formatHex_injective he
  have hone : (onesMachine.registers register).toNat = 1 := rfl
  rw [hone] at hvalue
  split at hvalue
  · rename_i hsize
    simp only [supportedWidths, List.mem_cons, List.not_mem_nil, or_false] at hsize
    rcases hsize with h | h | h | h <;> rw [h] at hvalue <;> cases hvalue
  · cases hvalue

/-- A single one in the slot of stack argument `argIndex`. -/
def slotMachine (argIndex : Nat) : Machine :=
  { registers := fun _ => 0, memory := fun address => if address = 0x28 + 8 * (argIndex - 4) then 1 else 0 }

theorem runtimeReadSize_bounds (size : Nat) : 0 < runtimeReadSize size ∧ runtimeReadSize size ≤ 8 := by
  have h := runtimeReadSize_supported size
  simp only [supportedWidths, List.mem_cons, List.not_mem_nil, or_false] at h
  omega

/-- Some machine tells a stack argument from any other argument. -/
theorem exists_machine_values_ne {a b : VariableRecord} {i j : Nat} (hi : entryRegisters[i]? = none) (hij : i ≠ j) :
    ∃ m : Machine, entryValue m a i ≠ entryValue m b j := by
  obtain ⟨hpos, hle⟩ := runtimeReadSize_bounds a.size
  obtain ⟨_, hleB⟩ := runtimeReadSize_bounds b.size
  unfold entryValue
  rw [hi]
  cases hj : entryRegisters[j]? with
  | some register =>
    refine ⟨onesMachine, fun he => ?_⟩
    dsimp only at he
    rw [memoryText_zero _ _ _ fun _ _ => rfl] at he
    exact entryRegisterText_ones b register he.symm
  | none =>
    have h4 : 4 ≤ i := List.getElem?_eq_none_iff.mp hi
    have h4' : 4 ≤ j := List.getElem?_eq_none_iff.mp hj
    refine ⟨slotMachine i, fun he => ?_⟩
    dsimp only at he
    rw [memoryText_zero _ (stackArgAddress (slotMachine i) j)] at he
    · exact memoryText_ne_zero _ _ _ hpos (by simp [stackArgAddress, slotMachine]) he
    · intro k hk
      have hother : stackArgAddress (slotMachine i) j + k ≠ 0x28 + 8 * (i - 4) := by
        have hrsp : ((slotMachine i).registers "rsp").toNat = 0 := rfl
        rw [stackArgAddress, hrsp]
        omega
      exact if_neg hother

end machines

/-- Correct rows for every machine and order leave no stack argument a shared name. -/
theorem unique_of_rows_correct {lvars : List VariableRecord} (core : DayVarCore) {context : PcContext}
    (hentry : context.atFunctionEntry = true) (hdistinct : (lvars.filterMap argPosition).Nodup)
    (hcorrect : ∀ m : Machine, let mid := answerRegisters m (core.buildEntryPlan lvars context)
      List.Forall₂ (EntryCorrect m) lvars (answerMemory m mid.1 mid.2).rows) : StackNamesUnique lvars := by
  have hagree : ∀ a ∈ lvars, ∀ b ∈ lvars, isStackArg a = true → b.name = a.name → ∀ m, ∃ i j,
      argPosition a = some i ∧ argPosition b = some j ∧ entryValue m a i = entryValue m b j := by
    intro a ha b hb hstack hname m
    have hmid := answerRegisters_requested m context core lvars hentry
    have hstart : Shared a.name (answerRegisters m (core.buildEntryPlan lvars context)).1.rows := by
      refine .inl fun row hrow _ harg => ?_
      obtain ⟨lvar, _, hsame, hdone⟩ := exists_of_forall₂_mem hmid.rows hrow
      obtain ⟨i, hi, _, hregister⟩ := (isStackArg_iff lvar).mp (hsame.isStackArg.symm.trans harg)
      rw [RegistersDone, hi, Option.bind_some, hregister] at hdone
      rw [hdone]
      decide
    obtain ⟨hsame, hshared⟩ := answerMemory_shared m a.name lvars _ (hmid.rows.imp fun _ _ h => h.1) hstart
    exact values_agree m (hcorrect m) hsame hshared ha hb hstack hname
  have hdiffer : ∀ a ∈ lvars, ∀ b ∈ lvars, isStackArg a = true → b.name = a.name →
      (∀ i, argPosition a = some i → ∀ j, argPosition b = some j → i ≠ j) → False := by
    intro a ha b hb hstack hname hne
    obtain ⟨i, hi, _, hregister⟩ := (isStackArg_iff a).mp hstack
    obtain ⟨_, j, _, hj, _⟩ := hagree a ha b hb hstack hname onesMachine
    obtain ⟨m, hm⟩ := exists_machine_values_ne (a := a) (b := b) hregister (hne i hi j hj)
    obtain ⟨i', j', hi', hj', heq⟩ := hagree a ha b hb hstack hname m
    rw [hi] at hi'
    rw [hj] at hj'
    cases hi'
    cases hj'
    exact hm heq
  refine (List.pairwise_filterMap.mp hdistinct).imp_of_mem fun {a b} ha hb hpair hor hname => ?_
  rcases hor with hstack | hstack
  · exact hdiffer a ha b hb hstack hname.symm fun i hi j hj => hpair i hi j hj
  · exact hdiffer b hb a ha hstack hname fun i hi j hj => (hpair j hj i hi).symm

/-- At function entry, each argument row ends with the value of its own ABI location, and no other row
fresh, for every machine and every order of the memory replies, exactly when no stack argument shares
its name with another variable. -/
theorem entry_rows_correct_iff (core : DayVarCore) (lvars : List VariableRecord) (context : PcContext)
    (hentry : context.atFunctionEntry = true) (hdistinct : (lvars.filterMap argPosition).Nodup) :
    (∀ m : Machine, let mid := answerRegisters m (core.buildEntryPlan lvars context)
      ∀ order : List Envelope, order.Perm mid.2 →
        List.Forall₂ (EntryCorrect m) lvars (answerMemory m mid.1 order).rows) ↔ StackNamesUnique lvars := by
  constructor
  · intro h
    exact unique_of_rows_correct core hentry hdistinct fun m => h m _ (.refl _)
  · intro hunique m mid order horder
    exact rows_correct_of_unique core hentry hunique m horder

def entryContext : PcContext :=
  { pcSeq := 1, runtimePc := "0x7ff600001000", idaEa := "0x140001000", atFunctionEntry := true }

def entryArg (lvarIndex : Int) (name : String) (argIndex : Nat) : VariableRecord :=
  { lvarIndex := lvarIndex, name := name, size := 8, isArg := true, argIndex := some argIndex }

def namedArgs : List VariableRecord := [entryArg 0 "a1" 0, entryArg 4 "a5" 4, entryArg 5 "a6" 5]

theorem entry_rows_correct_iff_named :
    let mid := answerRegisters onesMachine (({} : DayVarCore).buildEntryPlan namedArgs entryContext)
    List.Forall₂ (EntryCorrect onesMachine) namedArgs (answerMemory onesMachine mid.1 mid.2.reverse).rows :=
  (entry_rows_correct_iff {} namedArgs entryContext rfl (by decide)).mpr (by decide) onesMachine _
    (List.reverse_perm _)

/-- Two nameless stack arguments share one request id: the second read is lost, and the one reply that is
accepted fills both rows. -/
theorem unnamed_stack_args_share_value :
    let lvars := [entryArg 4 "<unnamed>" 4, entryArg 5 "<unnamed>" 5]
    let mid := answerRegisters (slotMachine 5) (({} : DayVarCore).buildEntryPlan lvars entryContext)
    (lvars.map VariableRecord.lvarIndex).Nodup ∧ (lvars.filterMap argPosition).Nodup ∧
      ¬ List.Forall₂ (EntryCorrect (slotMachine 5)) lvars (answerMemory (slotMachine 5) mid.1 mid.2).rows := by
  decide

end DynvarSync.Ida.DayVarCore
