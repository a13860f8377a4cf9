import DynvarSync.Ida.CoreValues

/-! Floating-point arguments at the register positions: the planner chooses the register by the
position alone, so such an argument is shown as whatever its general register holds. -/
namespace DynvarSync.Ida.DayVarCore
open Lib PyText

/-- The floating-point scalars, which are passed in `xmm0` to `xmm3`. -/
def floatingTypes : List String := ["float", "double"]

/-- The row shows an exact entry value of a general register. -/
def ReadFromRegister (row : VariableRecord) : Prop :=
  row.status = .fresh ∧ row.confidence = .exactEntry ∧ row.location ∈ entryRegisters

/-- No floating-point argument at a register position shows a general register. -/
def FloatsUnread (core : DayVarCore) : Prop :=
  ∀ row ∈ core.rows, row.typeString ∈ floatingTypes →
    ∀ register, (argPosition row).bind (entryRegisters[·]?) = some register →
    ¬ ReadFromRegister row

/-- A successful register answer that is accepted, with its registers. -/
def ReadsRegisters (core : DayVarCore) (op : Op) (registers : Payload) : Prop :=
  match op with
  | .applyRegResponse payload => (∃ taken, core.takePendingResponse payload .reg = .ok taken) ∧
      (payload.get "ok").isTrue = true ∧ (payload.get "registers").asObj = some registers
  | _ => False

/-- Every other argument at a register position shows its register once that is present. -/
def OthersRead (core : DayVarCore) (op : Op) : Prop :=
  ∀ registers, ReadsRegisters core op registers → ∀ row ∈ (core.step op).rows, row.typeString ∉ floatingTypes →
    ∀ register text, (argPosition row).bind (entryRegisters[·]?) = some register →
      registers.get register = .str text → text ≠ "" → ReadFromRegister row ∧ row.location = register

/-- No register of a floating-point argument is present in an accepted answer. -/
def NoFloatRegister (core : DayVarCore) (op : Op) : Prop :=
  ∀ registers, ReadsRegisters core op registers → ∀ row ∈ core.rows, row.typeString ∈ floatingTypes →
    ∀ register text, (argPosition row).bind (entryRegisters[·]?) = some register →
      registers.get register = .str text → text = ""

section steps
variable {core : DayVarCore}

theorem formatHex_not_register (n : Int) : formatHex n ∉ entryRegisters := by
  have hheads : ∀ register ∈ entryRegisters, register.toList.head? = some 'r' := by decide
  intro hmem
  have hhead := hheads _ hmem
  rw [formatHex] at hhead
  simp at hhead

/-- A row planned on a register is no stack argument. -/
theorem not_stack_of_register {row : VariableRecord} {register : String}
    (h : (argPosition row).bind (entryRegisters[·]?) = some register) : isStackArg row = false := by
  by_contra hstack
  rw [Bool.not_eq_false] at hstack
  obtain ⟨i, hi, -, hnone⟩ := (isStackArg_iff row).mp hstack
  rw [hi, Option.bind_some, hnone] at h
  cases h

/-- What becomes of the row planned on a register when an answer is read. -/
theorem read_rows {payload : Payload} {pending : PendingRequest} {core' after : DayVarCore} {registers : Payload}
    (htake : core.takePendingResponse payload .reg = .ok (pending, core'))
    (h : StackOutcome registers pending core' after) :
    ∃ stack : VariableRecord → VariableRecord, (∀ row, SameLvar row (stack row)) ∧
      (∀ row, (stack row).typeString = row.typeString) ∧
      after.rows = core.rows.map (answeredRow stack registers pending) := by
  obtain ⟨_, id, -, -, -, -, -, -, rfl⟩ := takePendingResponse_ok htake
  cases h with
  | failed reason _ hafter =>
    exact ⟨markError reason, fun row => ⟨rfl, rfl, rfl, rfl⟩, fun _ => rfl, by rw [hafter]⟩
  | asked rsp _ _ hrows _ =>
    exact ⟨waitForStack rsp, fun row => ⟨rfl, rfl, rfl, rfl⟩, fun _ => rfl, hrows⟩

theorem answeredRow_same {stack : VariableRecord → VariableRecord} (hsame : ∀ row, SameLvar row (stack row))
    (htype : ∀ row, (stack row).typeString = row.typeString) (registers : Payload) (pending : PendingRequest)
    (row : VariableRecord) : SameLvar row (answeredRow stack registers pending row) ∧
      (answeredRow stack registers pending row).typeString = row.typeString := by
  rw [answeredRow]
  split
  · exact ⟨hsame row, htype row⟩
  · exact applyEntryRegister_same registers pending row

theorem answeredRow_register {stack : VariableRecord → VariableRecord} {registers : Payload} {pending : PendingRequest}
    {row : VariableRecord} {register : String} (h : (argPosition row).bind (entryRegisters[·]?) = some register) :
    answeredRow stack registers pending row = applyEntryRegister registers pending row := by
  rw [answeredRow, not_stack_of_register h, if_neg Bool.false_ne_true]

/-- One operation keeps floating-point arguments unread exactly when it reads none of their registers. -/
theorem floatsUnread_step_iff (hregular : Regular core) (hunread : FloatsUnread core) (op : Op) :
    FloatsUnread (core.step op) ↔ NoFloatRegister core op := by
  cases op with
  | startPcContext context => exact iff_of_true hunread (by rintro _ ⟨⟩)
  | clearPending => exact iff_of_true hunread (by rintro _ ⟨⟩)
  | envelope type payload => exact iff_of_true hunread (by rintro _ ⟨⟩)
  | buildEntryPlan lvars context =>
    refine iff_of_true ?_ (by rintro _ ⟨⟩)
    rintro row hrow _ _ _ ⟨hfresh, -⟩
    exact buildEntryPlan_stale core lvars context row hrow hfresh
  | applyRegResponse payload =>
    rw [step]
    cases applyRegResponse_outcome core payload with
    | refused reason htake hafter =>
      rw [hafter]
      refine iff_of_true hunread ?_
      rintro _ ⟨⟨_, hok⟩, -⟩
      rw [htake] at hok
      cases hok
    | failed pending core' reason htake hfailed hafter =>
      obtain ⟨hrows, hstale⟩ := hregular.waits.taken htake
      refine iff_of_true ?_ ?_
      · rw [hafter, markRowsError, hrows]
        rintro row hrow _ _ _ ⟨hfresh, -⟩
        obtain ⟨before, hbefore, rfl⟩ := List.mem_map.mp hrow
        split at hfresh
        · cases hfresh
        · exact hstale before hbefore hfresh
      · rintro registers ⟨-, hok, hregisters⟩
        rcases hfailed with hfailed | hfailed
        · rw [hok] at hfailed
          cases hfailed
        · rw [hregisters] at hfailed
          cases hfailed
    | read pending core' registers htake hok hregisters hstack =>
      obtain ⟨stack, hsame, htype, hrows⟩ := read_rows htake hstack
      rw [FloatsUnread, hrows]
      constructor
      · rintro hafter registers' ⟨-, -, hregisters'⟩ row hrow hfloat register text hregister htext
        obtain rfl := Option.some.inj (hregisters.symm.trans hregisters')
        by_contra hne
        obtain ⟨hkeeps, hkeepsType⟩ := answeredRow_same hsame htype registers pending row
        refine hafter _ (List.mem_map_of_mem hrow) (hkeepsType ▸ hfloat) register (hkeeps.argPosition ▸ hregister) ?_
        rw [answeredRow_register hregister, applyEntryRegister_read hregister htext hne]
        obtain ⟨i, -, hi⟩ := Option.bind_eq_some_iff.mp hregister
        exact ⟨rfl, rfl, List.mem_of_getElem? hi⟩
      · intro hnone row hrow hfloat register hregister
        obtain ⟨before, hbefore, rfl⟩ := List.mem_map.mp hrow
        obtain ⟨hkeeps, hkeepsType⟩ := answeredRow_same hsame htype registers pending before
        rw [hkeeps.argPosition] at hregister
        rw [hkeepsType] at hfloat
        rw [answeredRow_register hregister, applyEntryRegister_missing hregister fun text htext =>
          hnone registers ⟨⟨_, htake⟩, hok, hregisters⟩ before hbefore hfloat register text hregister htext]
        rintro ⟨hfresh, -⟩
        cases hfresh
  | applyMemResponse payload =>
    rw [step]
    refine iff_of_true ?_ (by rintro _ ⟨⟩)
    cases applyMemResponse_outcome core payload with
    | refused reason htake hafter => rwa [hafter]
    | applied pending core' htake hafter =>
      obtain ⟨_, id, -, -, -, -, hp, hkind, rfl⟩ := takePendingResponse_ok htake
      rw [hafter]
      intro row hrow hfloat register hregister hread
      obtain ⟨before, hbefore, rfl⟩ := List.mem_map.mp hrow
      rw [applyEntryMemory] at hfloat hregister hread
      split at hread
      · rename_i hname
        rw [if_pos hname] at hfloat hregister
        exact hunread before hbefore hfloat register hregister hread
      · obtain ⟨n, hn⟩ := (hregular.planned id pending hp hkind).address
        refine formatHex_not_register n ?_
        obtain ⟨-, -, hlocation⟩ := hread
        dsimp only at hlocation
        rw [← hn]
        split at hlocation
        · exact hlocation
        · exact hlocation

/-- The other arguments are read in every state. -/
theorem othersRead (core : DayVarCore) (op : Op) : OthersRead core op := by
  cases op with
  | startPcContext context => rintro _ ⟨⟩
  | clearPending => rintro _ ⟨⟩
  | envelope type payload => rintro _ ⟨⟩
  | buildEntryPlan lvars context => rintro _ ⟨⟩
  | applyMemResponse payload => rintro _ ⟨⟩
  | applyRegResponse payload =>
    rintro registers ⟨⟨taken, htaken⟩, hok, hregisters⟩ row hrow - register text hregister htext hne
    rw [step] at hrow
    cases applyRegResponse_outcome core payload with
    | refused reason htake hafter =>
      rw [htake] at htaken
      cases htaken
    | failed pending core' reason htake hfailed hafter =>
      rcases hfailed with hfailed | hfailed
      · rw [hok] at hfailed
        cases hfailed
      · rw [hregisters] at hfailed
        cases hfailed
    | read pending core' registers' htake _ hregisters' hstack =>
      obtain rfl := Option.some.inj (hregisters.symm.trans hregisters')
      obtain ⟨stack, hsame, htype, hrows⟩ := read_rows htake hstack
      rw [hrows] at hrow
      obtain ⟨before, -, rfl⟩ := List.mem_map.mp hrow
      rw [(answeredRow_same hsame htype registers pending before).1.argPosition] at hregister
      rw [answeredRow_register hregister, applyEntryRegister_read hregister htext hne]
      obtain ⟨i, -, hi⟩ := Option.bind_eq_some_iff.mp hregister
      exact ⟨⟨rfl, rfl, List.mem_of_getElem? hi⟩, rfl⟩

end steps

/-- In every run floating-point arguments stay unread and the others are read exactly when no accepted register
answer has the register of a floating-point argument. -/
theorem floats_unread_iff (ops : List Op) :
    ((∀ t ∈ Run.states step ({} : DayVarCore) ops, FloatsUnread t) ∧ Run.Along step OthersRead {} ops) ↔
      Run.Along step NoFloatRegister {} ops := by
  have hstates := Run.forall_states_iff_along step (P := NoFloatRegister) (I := Regular) (G := FloatsUnread)
    (fun _ op h => step_regular h op) (fun _ op h hg => floatsUnread_step_iff h hg op) regular_start
    (fun row hrow => absurd hrow List.not_mem_nil) ops
  rw [hstates]
  exact and_iff_left (Run.along_of_forall step othersRead {} ops)

/-- A function whose first argument is a `double`, and an answer with `rcx`. -/
def doubleOps : List Op :=
  [.buildEntryPlan
     [{ lvarIndex := 0, name := "a1", typeString := "double", size := 8, isArg := true, argIndex := some 0 }]
     { pcSeq := 1, runtimePc := "0x401000", idaEa := "0x401000", atFunctionEntry := true },
   .applyRegResponse [("pc_seq", .int 1), ("request_id", .str "reg-1-entry"), ("ok", .bool true),
     ("registers", .obj [("rcx", .str "0x2a")])]]

/-- The `double` is shown as the fresh value of `rcx`. -/
theorem double_read_from_rcx :
    ¬ ∀ ops : List Op, (∀ t ∈ Run.states step ({} : DayVarCore) ops, FloatsUnread t) ∧
    Run.Along step OthersRead {} ops := by
  intro h
  have hunread := (h doubleOps).1 _ (Run.foldl_mem_states step {} doubleOps)
  have hrow : ∃ row ∈ (doubleOps.foldl step ({} : DayVarCore)).rows, row.typeString ∈ floatingTypes ∧
      (argPosition row).bind (entryRegisters[·]?) = some "rcx" ∧ row.status = .fresh ∧ row.confidence = .exactEntry ∧
      row.location ∈ entryRegisters := by decide
  obtain ⟨row, hmem, hfloat, hregister, hread⟩ := hrow
  exact hunread row hmem hfloat "rcx" hregister hread

end DynvarSync.Ida.DayVarCore
