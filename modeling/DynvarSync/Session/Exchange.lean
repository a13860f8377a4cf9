import DynvarSync.Lib.Sift
import DynvarSync.Session.Bystanders
import DynvarSync.Session.Stages

/-! From the update of a PC to the last answer: what passes between IDA and the extension while the debuggee stands, in
any order of polls, answers and deliveries, and the rows that are on display when no line is left. -/
namespace DynvarSync.Session
open Lib PyText Ida Windbg VVariableRecovery

/-- The table shows the records of the local recovery. -/
def ShowsRecovery (c : DayVarController) : Prop := ∃ rows, c.view.allRows = c.vRecovery.overlayRows rows

section controller
variable {c : DayVarController} {message payload : Payload}

theorem showsRecovery_publishRows (c : DayVarController) : ShowsRecovery c.publishRows := ⟨c.core.rows, rfl⟩

/-- Only the records decide what is shown. -/
theorem ShowsRecovery.of_records {c' : DayVarController} (h : ShowsRecovery c) (hview : c'.view = c.view)
    (hrecords : c'.vRecovery.records = c.vRecovery.records) : ShowsRecovery c' := by
  obtain ⟨rows, hrows⟩ := h
  refine ⟨rows, ?_⟩
  rw [hview, hrows]
  refine List.map_congr_left fun row _ => ?_
  rw [overlayRow, overlayRow, hrecords]

theorem currentRequests_wrap {core : DayVarCore} (h : core.CurrentRequests) (requests : List Request) :
    (DayVarController.wrapRequests core requests).2.CurrentRequests := by
  obtain ⟨hpc, -, hpending⟩ := DayVarController.wrapRequests_frame core requests
  intro id p hp
  rw [hpending] at hp
  rw [hpc]
  exact h id p hp

theorem currentRequests_entryPlan (core : DayVarCore) (lvars : List VariableRecord) (context : PcContext) :
    (core.buildEntryPlan lvars context).1.CurrentRequests := by
  rw [DayVarCore.buildEntryPlan]
  dsimp only
  split
  · exact DayVarCore.currentRequests_of_empty rfl
  · intro id p hp
    have hset : (Dict.empty.set (regRequestId context.pcSeq) _).get? id = some p := hp
    rw [Dict.get?_set] at hset
    split at hset
    · obtain rfl := Option.some.inj hset
      exact ⟨context, rfl, rfl, rfl⟩
    · cases hset

theorem handleMessage_regResponse (host : HostReply) (hpayload : (message.getD "payload" (.obj [])).asObj = some payload)
    (htype : message.get "type" = .str "reg_response") : c.handleMessage host message = c.handleRegResponse payload := by
  rw [DayVarController.handleMessage, hpayload, htype]
  rfl

theorem handleMessage_memResponse (host : HostReply) (hpayload : (message.getD "payload" (.obj [])).asObj = some payload)
    (htype : message.get "type" = .str "mem_response") : c.handleMessage host message = c.handleMemResponse payload := by
  rw [DayVarController.handleMessage, hpayload, htype]
  rfl

/-- The recovery's share of a register response. -/
theorem handleRegResponse_recovery (hshown : ShowsRecovery c) (hcore : c.core.CurrentRequests)
    (hv : isVRequestId (payload.get "request_id") = true) :
    let handled := c.handleRegResponse payload
    handled.controller.vRecovery = (c.vRecovery.applyRegResponse payload).recovery ∧
      handled.sent = (DayVarController.wrapRequests c.core (c.vRecovery.applyRegResponse payload).memRequests).1 ∧
      ShowsRecovery handled.controller ∧ handled.controller.core.CurrentRequests := by
  have hwrapped := currentRequests_wrap hcore (c.vRecovery.applyRegResponse payload).memRequests
  rw [DayVarController.handleRegResponse, if_pos hv]
  dsimp only
  rcases c.vRecovery.applyRegResponse_verdict payload with ⟨hrefused, hrecords, hnone⟩ | ⟨haccepted, -⟩
  · rw [hrefused, hnone]
    exact ⟨rfl, rfl, hshown.of_records rfl hrecords, hcore⟩
  · rw [haccepted]
    exact ⟨rfl, rfl, showsRecovery_publishRows _, hwrapped⟩

/-- The recovery's share of a memory response. -/
theorem handleMemResponse_recovery (hshown : ShowsRecovery c) (hcore : c.core.CurrentRequests)
    (hv : isVRequestId (payload.get "request_id") = true) :
    let handled := c.handleMemResponse payload
    handled.controller.vRecovery = (c.vRecovery.applyMemResponse payload).recovery ∧ handled.sent = [] ∧
      ShowsRecovery handled.controller ∧ handled.controller.core.CurrentRequests := by
  rw [DayVarController.handleMemResponse, if_pos hv]
  dsimp only
  rcases c.vRecovery.applyMemResponse_verdict payload with ⟨hrefused, hrecords⟩ | ⟨haccepted, -⟩
  · rw [hrefused]
    exact ⟨rfl, rfl, hshown.of_records rfl hrecords, hcore⟩
  · rw [haccepted]
    exact ⟨rfl, rfl, showsRecovery_publishRows _, hcore⟩

/-- What a message leaves alone that is none of the recovery's. -/
structure LeavesRecovery (c : DayVarController) (handled : Handled) : Prop where
  recovery : handled.controller.vRecovery = c.vRecovery
  shown : ShowsRecovery handled.controller
  requests : handled.controller.core.CurrentRequests
  sent : ∀ message ∈ handled.sent, ArgumentRequest message

theorem leavesRecovery_same (hshown : ShowsRecovery c) (hcore : c.core.CurrentRequests) (raised : Bool) :
    LeavesRecovery c { controller := c, raised := raised } := ⟨rfl, hshown, hcore, fun _ h => by cases h⟩

theorem handleRegResponse_leaves {pcSeq : Int} (hseq : c.vRecovery.pcSeq = some pcSeq) (hshown : ShowsRecovery c)
    (hcore : c.core.CurrentRequests)
    (hother : isVRequestId (payload.get "request_id") = true → (payload.get "pc_seq").eqInt pcSeq = false) :
    LeavesRecovery c (c.handleRegResponse payload) := by
  cases hv : isVRequestId (payload.get "request_id") with
  | true =>
    obtain ⟨hrecovery, hsent, hshown', hcore'⟩ := handleRegResponse_recovery hshown hcore hv
    obtain ⟨hsame, -, hnone⟩ := applyRegResponse_stale hseq (hother hv)
    rw [hsame] at hrecovery
    rw [hnone] at hsent
    refine ⟨hrecovery, hshown', hcore', ?_⟩
    rw [hsent]
    exact fun _ h => by cases h
  | false =>
    rw [DayVarController.handleRegResponse, hv, if_neg Bool.false_ne_true]
    dsimp only
    have hafter := (DayVarCore.applyRegResponse_reads hcore payload).1
    split
    · exact ⟨rfl, hshown.of_records rfl rfl, hafter, fun _ h => by cases h⟩
    · exact ⟨rfl, showsRecovery_publishRows _, hafter, argumentRequest_stackReads hcore payload⟩

theorem handleMemResponse_leaves {pcSeq : Int} (hseq : c.vRecovery.pcSeq = some pcSeq) (hshown : ShowsRecovery c)
    (hcore : c.core.CurrentRequests)
    (hother : isVRequestId (payload.get "request_id") = true → (payload.get "pc_seq").eqInt pcSeq = false) :
    LeavesRecovery c (c.handleMemResponse payload) := by
  cases hv : isVRequestId (payload.get "request_id") with
  | true =>
    obtain ⟨hrecovery, hsent, hshown', hcore'⟩ := handleMemResponse_recovery hshown hcore hv
    rw [(applyMemResponse_stale hseq (hother hv)).1] at hrecovery
    refine ⟨hrecovery, hshown', hcore', ?_⟩
    rw [hsent]
    exact fun _ h => by cases h
  | false =>
    rw [DayVarController.handleMemResponse, hv, if_neg Bool.false_ne_true]
    dsimp only
    have hafter : (c.core.applyMemResponse payload).core.CurrentRequests :=
      DayVarCore.step_currentRequests hcore (.applyMemResponse payload)
    split
    · exact ⟨rfl, hshown.of_records rfl rfl, hafter, fun _ h => by cases h⟩
    · exact ⟨rfl, showsRecovery_publishRows _, hafter, fun _ h => by cases h⟩

/-- A message that begins no context and answers none of its requests leaves the recovery alone. -/
theorem handleMessage_leaves {pcSeq : Int} (hseq : c.vRecovery.pcSeq = some pcSeq) (hshown : ShowsRecovery c)
    (hcore : c.core.CurrentRequests) (host : HostReply) (hcontext : DayVarController.contextSeq message = none)
    (hother : ∀ payload, (message.getD "payload" (.obj [])).asObj = some payload →
      isVRequestId (payload.get "request_id") = true → (payload.get "pc_seq").eqInt pcSeq = false) :
    LeavesRecovery c (c.handleMessage host message) := by
  rw [DayVarController.contextSeq] at hcontext
  rw [DayVarController.handleMessage]
  cases hpayload : (message.getD "payload" (.obj [])).asObj with
  | none => exact leavesRecovery_same hshown hcore false
  | some payload =>
    rw [hpayload] at hcontext
    dsimp only at hcontext ⊢
    split
    · rename_i hupdate
      rw [if_pos hupdate, DayVarController.updateSeq] at hcontext
      rw [DayVarController.handlePcUpdate]
      cases hlive : (payload.get "auto_live").isTruthy with
      | false => exact leavesRecovery_same hshown hcore false
      | true =>
        rw [hlive, if_pos rfl, Option.map_eq_none_iff] at hcontext
        dsimp only
        rw [hcontext]
        exact leavesRecovery_same hshown hcore true
    · split
      · exact handleRegResponse_leaves hseq hshown hcore (hother payload hpayload)
      · split
        · exact handleMemResponse_leaves hseq hshown hcore (hother payload hpayload)
        · exact leavesRecovery_same hshown hcore false

end controller

section replies
variable {m : Machine} {request : Request}

theorem isVRequestId_of_prefix {text : String} {rest : List Char} (h : text.toList = 'v' :: '-' :: rest) :
    isVRequestId (.str text) = true := by
  unfold isVRequestId
  rw [Json.asStr, Option.map_some, h]
  rfl

/-- Every request of the recovery engine carries an id of its own kind. -/
theorem Askable.requestId (h : Askable request) : isVRequestId (request.payload.get "request_id") = true := by
  cases h with
  | @reg pcSeq runtimePc registers reason hlow hhigh hpc hregisters =>
    have hid : (vRegRequestId pcSeq).toList =
        'v' :: '-' :: ("reg-".toList ++ (toString pcSeq).toList ++ "-runtime".toList) := by
      rw [vRegRequestId, String.toList_append, String.toList_append]
      rfl
    exact isVRequestId_of_prefix hid
  | @mem pcSeq i runtimePc address width reason name hlow hhigh hpc haddress hwidth hshort =>
    have hid : (vMemRequestId pcSeq i).toList =
        'v' :: '-' :: ("mem-".toList ++ (toString pcSeq).toList ++ "-".toList ++ (toString i).toList) := by
      rw [vMemRequestId, String.toList_append, String.toList_append, String.toList_append]
      rfl
    exact isVRequestId_of_prefix hid

/-- The lines of wrapped requests stand for the requests. -/
theorem sifts_wrapped {noise : List Char → Prop} (core : DayVarCore) (requests : List Request) :
    Sifts noise (fun line request => ∃ id, line = requestLineOf id request)
      ((DayVarController.wrapRequests core requests).1.map fun message => encodeMessage (envelopeJson message))
      requests := by
  induction requests generalizing core with
  | nil => exact .nil
  | cons request rest ih => exact .stands ⟨core.nextMessageId, rfl⟩ (ih _)

end replies

/-- The lines on their way stand, in order, for what is still to be answered. -/
structure Exchanging (m : Machine) (opened : VVariableRecovery × Option Request) (pcSeq : Int) (s : Endpoints) :
    Prop where
  shows : Shows s.debuggee m
  shown : ShowsRecovery s.controller
  requests : s.controller.core.CurrentRequests
  lines : ∃ replies asked, Stage m opened s.controller.vRecovery (replies ++ asked) ∧
    Sifts (fun sent => Bystander pcSeq sent.line) (fun sent => Replies m sent.line) s.toIda replies ∧
    Sifts (Unasked s.debuggee pcSeq) (fun line request => ∃ id, line = requestLineOf id request) s.toExtension asked

/-- What happens while the debuggee stands and no other update is sent. -/
def Event.Serves : Event → Prop
  | .moved _ | .dvsPc | .stepCompleted => False
  | _ => True

section exchange
variable {m : Machine} {opened : VVariableRecovery × Option Request} {pcSeq : Int} {s : Endpoints}

/-- The extension answers the next line. -/
theorem takeLine_exchanging (hasks : Asks m opened) (h : Exchanging m opened pcSeq s) :
    Exchanging m opened pcSeq s.takeLine := by
  unfold Endpoints.takeLine
  split
  · rename_i turns line rest hpumping hlines
    obtain ⟨replies, asked, hstage, htoIda, htoExtension⟩ := h.lines
    rw [hlines] at htoExtension
    refine ⟨h.shows, h.shown, h.requests, ?_⟩
    cases htoExtension with
    | noise hunasked hrest =>
      refine ⟨replies, asked, hstage, htoIda.append_noise ?_, hrest⟩
      intro sent hsent
      obtain ⟨answer, hanswer, rfl⟩ := List.mem_map.mp hsent
      exact hunasked s.nextMessageId answer (Option.mem_toList.mp hanswer)
    | @stands _ request _ asked hline hrest =>
      obtain ⟨id, rfl⟩ := hline
      have haskable := hstage.askable hasks (List.mem_append_right _ (List.mem_cons_self ..))
      obtain ⟨answer, hanswer, hreplies⟩ := askable_replied h.shows id s.nextMessageId haskable
      refine ⟨replies ++ [request], asked, List.append_cons replies request asked ▸ hstage, ?_, hrest⟩
      dsimp only
      rw [hanswer]
      exact htoIda.append (.singleton hreplies)
  · exact h

/-- IDA handles the next line. -/
theorem deliver_exchanging (hasks : Asks m opened) (hseq : opened.1.pcSeq = some pcSeq)
    (h : Exchanging m opened pcSeq s) (host : HostReply) : Exchanging m opened pcSeq (s.deliver host) := by
  obtain ⟨replies, asked, hstage, htoIda, htoExtension⟩ := h.lines
  cases hqueue : s.toIda with
  | nil =>
    rw [Endpoints.deliver, hqueue]
    exact h
  | cons sent rest =>
    rw [hqueue] at htoIda
    unfold Endpoints.deliver
    rw [hqueue]
    dsimp only
    cases htoIda with
    | noise hbystander hrest =>
      cases hread : readMessage sent.line with
      | none => exact ⟨h.shows, h.shown, h.requests, replies, asked, hstage, hrest, htoExtension⟩
      | some message =>
        obtain ⟨hcontext, hother⟩ := hbystander message hread
        have hleaves := handleMessage_leaves (hstage.pcSeq.trans hseq) h.shown h.requests host hcontext hother
        refine ⟨h.shows, hleaves.shown, hleaves.requests, replies, asked, ?_, hrest, htoExtension.append_noise ?_⟩
        · exact hleaves.recovery ▸ hstage
        · intro line hline
          obtain ⟨request, hrequest, rfl⟩ := List.mem_map.mp hline
          exact unasked_argumentRequest s.debuggee pcSeq
            (DayVarController.handleMessage_readable host message request hrequest) (hleaves.sent request hrequest)
    | @stands _ request _ replies hreplies hrest =>
      rw [List.cons_append] at hstage
      obtain ⟨message, hread, htype, hpayload⟩ := hreplies
      have hid := (hstage.askable hasks (List.mem_cons_self ..)).requestId
      have hpayload' : (message.getD "payload" (.obj [])).asObj = some (machineReply m request) := by
        rw [hpayload]
        rfl
      rw [hread]
      dsimp only
      by_cases hkind : request.type = .regRequest
      · rw [machineReply, if_pos hkind] at hpayload'
        rw [replyType, if_pos hkind] at htype
        rw [handleMessage_regResponse host hpayload' htype]
        have hreply : isVRequestId ((m.regResponse request.payload).get "request_id") = true := hid
        obtain ⟨hrecovery, hsent, hshown, hcore⟩ := handleRegResponse_recovery h.shown h.requests hreply
        have hnext := hstage.registers_answered hasks hkind
        rw [List.append_assoc] at hnext
        refine ⟨h.shows, hshown, hcore, replies,
          asked ++ (s.controller.vRecovery.applyRegResponse (m.regResponse request.payload)).memRequests, ?_, hrest, ?_⟩
        · rw [hrecovery]
          exact hnext
        · rw [hsent]
          exact htoExtension.append (sifts_wrapped s.controller.core _)
      · rw [machineReply, if_neg hkind] at hpayload'
        rw [replyType, if_neg hkind] at htype
        rw [handleMessage_memResponse host hpayload' htype]
        have hreply : isVRequestId ((m.memResponse request.payload).get "request_id") = true := hid
        obtain ⟨hrecovery, hsent, hshown, hcore⟩ := handleMemResponse_recovery h.shown h.requests hreply
        refine ⟨h.shows, hshown, hcore, replies, asked, ?_, hrest, ?_⟩
        · rw [hrecovery]
          exact hstage.memory_answered hasks hkind
        · rw [hsent, List.map_nil, List.append_nil]
          exact htoExtension

/-- Every event of the exchange goes on with it. -/
theorem step_exchanging (hasks : Asks m opened) (hseq : opened.1.pcSeq = some pcSeq) (h : Exchanging m opened pcSeq s)
    {event : Event} (hserves : event.Serves) : Exchanging m opened pcSeq (s.step event) := by
  cases event with
  | moved debuggee => exact absurd hserves id
  | dvsPc => exact absurd hserves id
  | stepCompleted => exact absurd hserves id
  | dvsPoll args => exact ⟨h.shows, h.shown, h.requests, h.lines⟩
  | takeLine => exact takeLine_exchanging hasks h
  | pumpEnds => exact ⟨h.shows, h.shown, h.requests, h.lines⟩
  | deliver host => exact deliver_exchanging hasks hseq h host

/-- When no line is left, every request has been answered. -/
theorem Exchanging.answered (h : Exchanging m opened pcSeq s) (hleft : s.toExtension = []) (hcame : s.toIda = []) :
    AnsweredRows m opened s.controller.vRecovery.records := by
  obtain ⟨replies, asked, hstage, htoIda, htoExtension⟩ := h.lines
  rw [hcame] at htoIda
  rw [hleft] at htoExtension
  rw [htoIda.eq_nil, htoExtension.eq_nil] at hstage
  exact hstage.answered

end exchange

/-- The mapping of a line that is read as a live update of the debugger's PC, if it maps. -/
def updateMapping (line : List UInt8) (imagebase : Int) : Option PcMapping :=
  (readMessage line).bind fun message => (message.getD "payload" (.obj [])).asObj.bind fun payload =>
    if (message.get "type").eqStr "pc_update" && (payload.get "auto_live").isTruthy && (pcSeqNumber payload).isSome then
      (mapPcUpdate payload imagebase).toOption
    else none

/-- The variables of the function at a mapped PC. -/
def enumeratedAt (host : HostReply) (mapping : PcMapping) : VariableEnumerationResult :=
  host.enumerateHexraysVariables mapping.idaEa (formatHex mapping.runtimePc)

/-- The local recovery as it opens at a mapped PC. -/
def openedAt (s : VVariableRecovery) (host : HostReply) (mapping : PcMapping) (selected : List Int) :
    VVariableRecovery × Option Request :=
  (s.invalidatePc mapping.pcSeq (formatHex mapping.runtimePc)).beginPc host.analysisProvider
    (enumeratedAt host mapping).lvars ((enumeratedAt host mapping).functionStartEa.getD 0) mapping.idaEa
    (formatHex mapping.runtimePc) mapping.pcSeq (some selected)

/-- The variables at a mapped PC are enumerated and analysed, and every request has room in a message. -/
structure Recoverable (host : HostReply) (mapping : PcMapping) : Prop where
  seqRange : 0 ≤ mapping.pcSeq ∧ mapping.pcSeq < 2 ^ 32
  pcRange : 0 ≤ mapping.runtimePc ∧ mapping.runtimePc < 2 ^ 64
  enumerated : (enumeratedAt host mapping).ok = true
  completes : host.recoveryRaisesAfter = none
  registers : host.analysisProvider.NamesRegisters
  room : ∀ lvar ∈ (enumeratedAt host mapping).lvars, (vMemRequestId mapping.pcSeq lvar.lvarIndex).toList.length < 128

section opening
variable {m : Machine} {host : HostReply} {mapping : PcMapping}

theorem asks_openedAt (h : Recoverable host mapping) (m : Machine) (s : VVariableRecovery) (selected : List Int) :
    Asks m (openedAt s host mapping selected) := by
  have hpc : HexText (formatHex mapping.runtimePc) := by
    obtain ⟨hlow, hhigh⟩ := h.pcRange
    rw [← Int.toNat_of_nonneg hlow]
    exact hexText_formatHex (by omega)
  exact asks_of_beginPc m _ h.registers (enumeratedAt host mapping).distinct h.seqRange.1 h.seqRange.2 hpc h.room

theorem openedAt_pcSeq (s : VVariableRecovery) (host : HostReply) (mapping : PcMapping) (selected : List Int) :
    (openedAt s host mapping selected).1.pcSeq = some mapping.pcSeq := by
  have hplan := beginLoop_inv (s.invalidatePc mapping.pcSeq (formatHex mapping.runtimePc))
    (enumeratedAt host mapping).lvars ((enumeratedAt host mapping).functionStartEa.getD 0) mapping.idaEa
    (formatHex mapping.runtimePc) mapping.pcSeq (analyze host.analysisProvider
      ((enumeratedAt host mapping).functionStartEa.getD 0) mapping.idaEa (enumeratedAt host mapping).lvars
      (selectedIndexes (enumeratedAt host mapping).lvars (some selected)))
    (selectedIndexes (enumeratedAt host mapping).lvars (some selected)) (enumeratedAt host mapping).distinct
  rw [openedAt, beginPc_eq _ _ _ _ _ _ _ _ rfl]
  dsimp only
  split
  · exact hplan.pcSeq
  · exact hplan.pcSeq

/-- The local recovery begins with the evidence for a selection, and asks for its registers. -/
theorem recoverLocals_opens (c : DayVarController) (context : PcContext) (functionStartEa idaEa : Int)
    (lvars previousRows : List VariableRecord) (h : host.recoveryRaisesAfter = none) :
    ∃ selected,
      let opened := c.vRecovery.beginPc host.analysisProvider lvars functionStartEa idaEa context.runtimePc
        context.pcSeq (some selected)
      let recovered := c.recoverLocals host context functionStartEa idaEa lvars previousRows
      recovered.1.vRecovery = opened.1 ∧ ShowsRecovery recovered.1 ∧
        recovered.1.core = (DayVarController.wrapRequests c.core opened.2.toList).2 ∧
        recovered.2 = (DayVarController.wrapRequests c.core opened.2.toList).1 := by
  rw [DayVarController.recoverLocals]
  simp only [h]
  exact ⟨_, rfl, ⟨_, rfl⟩, rfl, rfl⟩

theorem enterFunction_vRecovery (c : DayVarController) (functionStartEa : Option Int) :
    (c.enterFunction functionStartEa).vRecovery = c.vRecovery := by
  rw [DayVarController.enterFunction]
  split
  · rfl
  · rfl

/-- A mapped PC opens the local recovery, behind the argument planner's own request. -/
theorem mapped_opens (c : DayVarController) (h : Recoverable host mapping) :
    ∃ selected idaPcMapped arguments core,
      let opened := openedAt c.vRecovery host mapping selected
      let handled := c.mapped host mapping
      handled.controller.vRecovery = opened.1 ∧ ShowsRecovery handled.controller ∧
        handled.controller.core.CurrentRequests ∧
        handled.sent = [idaPcMapped] ++ arguments ++ (DayVarController.wrapRequests core opened.2.toList).1 ∧
        idaPcMapped.type = .idaPcMapped ∧ ∀ message ∈ arguments, ArgumentRequest message := by
  have hok := h.enumerated
  unfold DayVarController.mapped openedAt
  unfold enumeratedAt at hok ⊢
  dsimp only
  generalize host.enumerateHexraysVariables mapping.idaEa (formatHex mapping.runtimePc) = enumeration at hok ⊢
  rw [hok, Bool.not_true, if_neg Bool.false_ne_true]
  let idaPcMapped := c.core.makeIdaPcMapped mapping.pcSeq (formatHex mapping.runtimePc) (some (formatHex mapping.idaEa))
    mapping.module (formatHex mapping.idaImagebase) true none
  let opening : DayVarController := { c with
    core := idaPcMapped.2
    vRecovery := c.vRecovery.invalidatePc mapping.pcSeq (formatHex mapping.runtimePc) }
  let entered := opening.enterFunction enumeration.functionStartEa
  let context : PcContext :=
    { pcSeq := mapping.pcSeq, runtimePc := formatHex mapping.runtimePc, idaEa := formatHex mapping.idaEa
      functionEa := enumeration.functionEa
      atFunctionEntry := enumeration.functionStartEa.getD 0 = mapping.idaEa }
  let plan := entered.core.buildEntryPlan enumeration.lvars context
  obtain ⟨selected, hrecovery, hshown, hcore, hsent⟩ :=
    recoverLocals_opens { entered with core := plan.1 }.publishRows context (enumeration.functionStartEa.getD 0)
      mapping.idaEa enumeration.lvars c.view.allRows h.completes
  have hentered : entered.vRecovery = opening.vRecovery := enterFunction_vRecovery opening enumeration.functionStartEa
  have hplan := currentRequests_entryPlan entered.core enumeration.lvars context
  have hstart : { entered with core := plan.1 }.publishRows.vRecovery =
      c.vRecovery.invalidatePc mapping.pcSeq (formatHex mapping.runtimePc) := hentered
  rw [hstart] at hrecovery hcore hsent
  refine ⟨selected, idaPcMapped.1, plan.2.toList, plan.1, hrecovery, hshown, ?_, ?_, rfl,
    argumentRequest_entryPlan entered.core enumeration.lvars context⟩
  · exact hcore ▸ currentRequests_wrap hplan _
  · exact congrArg (([idaPcMapped.1] ++ plan.2.toList) ++ ·) hsent

theorem enterPcSeq_vRecovery (c : DayVarController) (pcSeq : Int) : (c.enterPcSeq pcSeq).vRecovery = c.vRecovery := by
  rw [DayVarController.enterPcSeq]
  split
  · rfl
  · rfl

/-- The analysis names registers of its table only. -/
theorem provider_namesRegisters {ι : Type} (analysis : AnalysisHost ι) (cfunc : Option (MicroCfunc ι)) :
    (analysis.provider cfunc).NamesRegisters := by
  intro functionEa currentEa lvars found hfound i e spec he hspec
  obtain rfl := Except.ok.inj hfound
  exact (analysis_register_placed he hspec).known

/-- What is read from an update that maps. -/
theorem updateMapping_eq_some {line : List UInt8} {imagebase : Int} (h : updateMapping line imagebase = some mapping) :
    ∃ message payload pcSeq, readMessage line = some message ∧
      (message.getD "payload" (.obj [])).asObj = some payload ∧ (message.get "type").eqStr "pc_update" = true ∧
      (payload.get "auto_live").isTruthy = true ∧ pcSeqNumber payload = some pcSeq ∧
      mapPcUpdate payload imagebase = .ok mapping := by
  obtain ⟨message, hread, h⟩ := Option.bind_eq_some_iff.mp h
  obtain ⟨payload, hpayload, h⟩ := Option.bind_eq_some_iff.mp h
  split at h
  · rename_i hlive
    rw [Bool.and_eq_true, Bool.and_eq_true, Option.isSome_iff_exists] at hlive
    obtain ⟨⟨htype, hauto⟩, pcSeq, hseq⟩ := hlive
    refine ⟨message, payload, pcSeq, hread, hpayload, htype, hauto, hseq, ?_⟩
    cases hmap : mapPcUpdate payload imagebase with
    | error e =>
      rw [hmap] at h
      cases h
    | ok found =>
      rw [hmap] at h
      exact congrArg Except.ok (Option.some.inj h)
  · cases h

/-- The delivery of the update opens the exchange. -/
theorem deliver_opens {s : Endpoints} {sent : SentLine} {rest : List SentLine} (h : Recoverable host mapping)
    (hshows : Shows s.debuggee m) (hqueue : s.toIda = sent :: rest)
    (hupdate : updateMapping sent.line host.imagebase = some mapping)
    (hqueued : ∀ other ∈ rest, Bystander mapping.pcSeq other.line)
    (hasked : ∀ line ∈ s.toExtension, Unasked s.debuggee mapping.pcSeq line) :
    ∃ selected, Exchanging m (openedAt s.controller.vRecovery host mapping selected) mapping.pcSeq (s.deliver host) := by
  obtain ⟨message, payload, pcSeq, hread, hpayload, htype, hlive, hpcSeq, hmap⟩ := updateMapping_eq_some hupdate
  obtain ⟨selected, idaPcMapped, arguments, core, hopens⟩ := mapped_opens (s.controller.enterPcSeq pcSeq) h
  rw [enterPcSeq_vRecovery] at hopens
  obtain ⟨hrecovery, hshown, hcore, hsent, hmapped, harguments⟩ := hopens
  have hhandled : s.controller.handleMessage host message = (s.controller.enterPcSeq pcSeq).mapped host mapping := by
    rw [DayVarController.handleMessage, hpayload]
    dsimp only
    rw [if_pos htype, DayVarController.handlePcUpdate, hlive, hpcSeq]
    dsimp only
    rw [hmap]
    rfl
  have hreadable := s.controller.handleMessage_readable host message
  rw [hhandled, hsent] at hreadable
  obtain ⟨hplain, -⟩ := List.forall_mem_append.mp hreadable
  obtain ⟨hfirst, hplanned⟩ := List.forall_mem_append.mp hplain
  refine ⟨selected, ?_⟩
  unfold Endpoints.deliver
  rw [hqueue]
  dsimp only
  rw [hread]
  dsimp only
  rw [hhandled]
  refine ⟨hshows, hshown, hcore, [], (openedAt s.controller.vRecovery host mapping selected).2.toList, ?_,
    .of_noise hqueued, ?_⟩
  · exact hrecovery ▸ Stage.opening m (openedAt s.controller.vRecovery host mapping selected)
  · have hnoise : ∀ line ∈ ([idaPcMapped] ++ arguments).map fun e => encodeMessage (envelopeJson e),
        Unasked s.debuggee mapping.pcSeq line := by
      rw [List.forall_mem_map]
      refine List.forall_mem_append.mpr ⟨fun e he => ?_, fun e he => ?_⟩
      · obtain rfl := List.mem_singleton.mp he
        exact unasked_idaPcMapped s.debuggee mapping.pcSeq (hfirst _ he) hmapped
      · exact unasked_argumentRequest s.debuggee mapping.pcSeq (hplanned e he) (harguments e he)
    rw [hsent, List.map_append]
    exact (Sifts.of_noise hasked).append ((Sifts.of_noise hnoise).append (sifts_wrapped core _))

end opening

section sample

deriving instance DecidableEq for PcMapping

/-- A debuggee that stands where the sample function's analysis is opened. -/
def sampleDebuggee : Debuggee :=
  { pcInfo := some { pc := 0x7ff70000100c, module := [97], runtimeModuleBase := 0x7ff700000000 }
    registers := some (.values fun name => some (.int64 (if name = "rsp".toList then 0x7000 else 7)))
    memory := some fun address size => .actual (sampleStop.readMemory address size) }

def sampleReply : HostReply :=
  { imagebase := 0
    enumerateHexraysVariables := fun _ _ =>
      { ok := true, functionStartEa := some 0x1000, functionEa := "0x1000", lvars := sampleLocals
        distinct := by decide, started := fun _ => rfl }
    analysisProvider := sampleHost.provider none }

def sampleUpdate : List UInt8 :=
  (writePcUpdate jsonBufferSize 1 1 0x7ff70000100c [97] 0x7ff700000000 (toBytes "dvs_pc".toList) true).getD []

def sampleMapping : PcMapping :=
  { pcSeq := 1, runtimePc := 0x7ff70000100c, runtimeModuleBase := 0x7ff700000000, idaImagebase := 0
    idaEa := 0x100c, module := "a" }

/-- The update is on its way to IDA. -/
def sampleUpdated : Endpoints :=
  { debuggee := sampleDebuggee, controller := DayVarController.init 32, toIda := [⟨sampleUpdate, 0⟩] }

/-- One poll answers the register request, and then the memory request that it raises. -/
def sampleExchange : List Event :=
  [.dvsPoll none, .takeLine, .takeLine, .deliver sampleReply, .takeLine, .deliver sampleReply]

theorem sampleDebuggee_shows : Shows sampleDebuggee sampleStop := by
  have hregisters : ∀ name ∈ fullRegisterOrder,
      (debugValueToU64 (.int64 (if name.toList = "rsp".toList then 0x7000 else 7))).toBitVec =
        sampleStop.registers name := by decide
  exact ⟨⟨_, rfl, fun name hname => ⟨_, rfl, hregisters name hname⟩⟩, ⟨_, rfl, fun _ _ => rfl⟩⟩

theorem sampleReply_recoverable : Recoverable sampleReply sampleMapping :=
  ⟨by decide, by decide, rfl, rfl, provider_namesRegisters sampleHost none, by decide⟩

end sample
end DynvarSync.Session
