import DynvarSync.Windbg.PcUpdateWriter
import DynvarSync.Lib.Run

/-! Asynchronous stepping: what the extension keeps from an accepted `dvs_step` to the stop after its last step. -/
namespace DynvarSync.Windbg
open Lib PyText CText

def debugAnyId : UInt32 := 0xffffffff
def debugStatusBreak : UInt32 := 6
def noMode : Char := '\x00'
def jsonBufferSize : Nat := 1024

structure PcInfo where
  pc : UInt64
  module : List UInt8
  runtimeModuleBase : UInt64

/-- What the debugger, the socket and the counters answer while one event is handled; a failed call answers nothing. -/
structure StepHost where
  connected : Bool
  contextIds : Option (UInt32 × UInt32)
  stepExecution : Bool
  executionStatus : Option UInt32
  pcInfo : Option PcInfo
  messageId : UInt32
  pcSeq : UInt32
  sendAll : Bool

variable {Client : Type}

/-- What happens to a client object, to the debuggee and on the wire. -/
inductive StepEffect (Client : Type) where
  | captured (mode : Char) (count : Nat)
  | addRef (client : Client)
  | release (client : Client)
  | initiated (client : Client) (mode : Char)
  | pcUpdate (line : List UInt8)
  deriving DecidableEq

namespace StepEffect

/-- What an accepted `dvs_step` asked for. -/
def capture? : StepEffect Client → Option (Char × Nat)
  | .captured mode count => some (mode, count)
  | _ => none

def isInitiated : StepEffect Client → Bool
  | .initiated .. => true
  | _ => false

def isPcUpdate : StepEffect Client → Bool
  | .pcUpdate _ => true
  | _ => false

/-- The last accepted `dvs_step` of some effects, newest first. -/
def lastCapture (effects : List (StepEffect Client)) : Option (Char × Nat) := effects.findSome? capture?

/-- The effects since then. -/
def sinceCapture (effects : List (StepEffect Client)) : List (StepEffect Client) :=
  effects.takeWhile fun e => e.capture?.isNone

def stepsInitiated (effects : List (StepEffect Client)) : Nat := (sinceCapture effects).countP isInitiated

def updatesSent (effects : List (StepEffect Client)) : Nat := (sinceCapture effects).countP isPcUpdate

section counts
variable (effects : List (StepEffect Client)) (client : Client) (mode : Char) (count : Nat) (line : List UInt8)

theorem counts_captured : lastCapture (.captured mode count :: effects) = some (mode, count) ∧
    stepsInitiated (.captured mode count :: effects) = 0 ∧ updatesSent (.captured mode count :: effects) = 0 := by
  unfold stepsInitiated updatesSent sinceCapture
  rw [List.takeWhile_cons_of_neg Bool.false_ne_true]
  exact ⟨rfl, rfl, rfl⟩

theorem counts_initiated : lastCapture (.initiated client mode :: effects) = lastCapture effects ∧
    stepsInitiated (.initiated client mode :: effects) = stepsInitiated effects + 1 ∧
    updatesSent (.initiated client mode :: effects) = updatesSent effects := by
  unfold stepsInitiated updatesSent sinceCapture
  rw [List.takeWhile_cons_of_pos rfl, List.countP_cons_of_pos rfl, List.countP_cons_of_neg Bool.false_ne_true]
  exact ⟨rfl, rfl, rfl⟩

theorem counts_pcUpdate : lastCapture (.pcUpdate line :: effects) = lastCapture effects ∧
    stepsInitiated (.pcUpdate line :: effects) = stepsInitiated effects ∧
    updatesSent (.pcUpdate line :: effects) = updatesSent effects + 1 := by
  unfold stepsInitiated updatesSent sinceCapture
  rw [List.takeWhile_cons_of_pos rfl, List.countP_cons_of_neg Bool.false_ne_true, List.countP_cons_of_pos rfl]
  exact ⟨rfl, rfl, rfl⟩

end counts

end StepEffect

/-- The step globals, with the effects so far, newest first. -/
structure StepSession (Client : Type) where
  stepPending : Bool := false
  stepInProgress : Bool := false
  stepMode : Char := noMode
  stepRemaining : Nat := 0
  stepClient : Option Client := none
  stepProcessId : UInt32 := debugAnyId
  stepThreadId : UInt32 := debugAnyId
  effects : List (StepEffect Client) := []

def tolower (c : Char) : Char := if 'A' ≤ c ∧ c ≤ 'Z' then Char.ofNat (c.toNat + 32) else c

/-- `sscanf(args, " %c %lu", &mode, &count)` and the checks after it; the count may be left out. -/
def parseStepArgs (args : Option (List Char)) : Option (Char × Nat) :=
  match (args.getD []).dropWhile asciiSpace with
  | [] => none
  | c :: rest =>
    let mode := tolower c
    let count := (scanUnsigned rest).getD 1
    if mode ≠ 'p' ∧ mode ≠ 't' then none
    else if count = 0 ∨ count > 1000 then none
    else some (mode, count)

namespace StepSession

def releaseStepClient (s : StepSession Client) : StepSession Client :=
  match s.stepClient with
  | some client => { s with stepClient := none, effects := .release client :: s.effects }
  | none => s

def clearPendingStep (s : StepSession Client) : StepSession Client :=
  releaseStepClient { s with
    stepPending := false
    stepInProgress := false
    stepMode := noMode
    stepRemaining := 0
    stepProcessId := debugAnyId
    stepThreadId := debugAnyId }

/-- `DvsSendPcUpdateAndPump` up to the pump: the line that was sent. -/
def sentPcUpdate (host : StepHost) (reason : List UInt8) : Option (List UInt8) :=
  if !host.connected then none
  else match host.pcInfo with
    | none => none
    | some info =>
      match writePcUpdate jsonBufferSize host.messageId host.pcSeq info.pc info.module info.runtimeModuleBase reason
          true with
      | none => none
      | some line => if host.sendAll then some line else none

def initiateNextPendingStep (s : StepSession Client) (host : StepHost) : StepSession Client × Bool :=
  match s.stepClient with
  | none => (s, false)
  | some client =>
    if !s.stepPending || s.stepInProgress || s.stepRemaining = 0 then (s, false)
    else if !host.stepExecution then (s.clearPendingStep, false)
    else ({ s with
      stepRemaining := s.stepRemaining - 1
      stepInProgress := true
      effects := .initiated client s.stepMode :: s.effects }, true)

def handlePostStepAccessible (s : StepSession Client) (host : StepHost) : StepSession Client :=
  if !s.stepPending || !s.stepInProgress || s.stepClient.isNone then s
  else match host.executionStatus with
    | none => s.clearPendingStep
    | some status =>
      if status ≠ debugStatusBreak then s
      else
        let s := { s with stepInProgress := false }
        match sentPcUpdate host (toBytes "dvs_step".toList) with
        | none => s.clearPendingStep
        | some line =>
          let s := { s with effects := .pcUpdate line :: s.effects }
          if s.stepRemaining > 0 then (s.initiateNextPendingStep host).1 else s.clearPendingStep

def dvsStep (s : StepSession Client) (client : Client) (args : Option (List Char)) (host : StepHost) :
    StepSession Client :=
  match parseStepArgs args with
  | none => s
  | some (mode, count) =>
    if !host.connected then s
    else if s.stepPending then s
    else match host.contextIds with
      | none => s
      | some (processId, threadId) =>
        (initiateNextPendingStep { s with
          stepPending := true
          stepInProgress := false
          stepMode := mode
          stepRemaining := count
          stepClient := some client
          stepProcessId := processId
          stepThreadId := threadId
          effects := .captured mode count :: .addRef client :: s.effects } host).1

end StepSession

/-- What reaches the extension, in any order. -/
inductive StepEvent (Client : Type) where
  | dvsStep (client : Client) (args : Option (List Char)) (host : StepHost)
  | sessionAccessible (host : StepHost)
  | sessionInaccessible
  | sessionInactive
  | dvsDisconnect
  | extensionUninitialized

namespace StepSession
open StepEffect

def step (s : StepSession Client) : StepEvent Client → StepSession Client
  | .dvsStep client args host => s.dvsStep client args host
  | .sessionAccessible host => s.handlePostStepAccessible host
  | .sessionInaccessible => s
  | .sessionInactive => s.clearPendingStep
  | .dvsDisconnect => s.clearPendingStep
  | .extensionUninitialized => s.clearPendingStep

/-- References taken and not given back: every `AddRef` but the one on the step client has its `Release`. -/
def Balanced [DecidableEq Client] (s : StepSession Client) : Prop :=
  ∀ client, s.effects.count (.addRef client) =
    s.effects.count (.release client) + if s.stepClient = some client then 1 else 0

/-- What is kept while no step is pending. -/
structure Idle (s : StepSession Client) : Prop where
  inProgress : s.stepInProgress = false
  remaining : s.stepRemaining = 0
  mode : s.stepMode = noMode
  client : s.stepClient = none

/-- What is kept while a step is pending: steps initiated and to come make up the count, and all steps but the
running one have been reported. -/
structure Stepping (s : StepSession Client) (running : Bool) (client : Client) (mode : Char) (count : Nat) : Prop where
  pending : s.stepPending = true
  inProgress : s.stepInProgress = running
  held : s.stepClient = some client
  captured : s.stepMode = mode ∧ lastCapture s.effects = some (mode, count)
  accepted : (mode = 'p' ∨ mode = 't') ∧ 1 ≤ count ∧ count ≤ 1000
  initiated : stepsInitiated s.effects + s.stepRemaining = count
  reported : updatesSent s.effects + (if running then 1 else 0) = stepsInitiated s.effects

/-- Nothing is pending and nothing is held, or one step of an accepted sequence is running. -/
structure Consistent [DecidableEq Client] (s : StepSession Client) : Prop where
  idle : s.stepPending = false → Idle s
  stepping : s.stepPending = true → ∃ client mode count, Stepping s true client mode count
  balanced : Balanced s

/-- Effects other than references do not touch the balance. -/
theorem balanced_of_push [DecidableEq Client] {s s' : StepSession Client} {e : StepEffect Client} (h : Balanced s)
    (hclient : s'.stepClient = s.stepClient) (heffects : s'.effects = e :: s.effects)
    (hadd : ∀ client, e ≠ .addRef client) (hrelease : ∀ client, e ≠ .release client) : Balanced s' := by
  intro client
  rw [heffects, hclient, List.count_cons_of_ne (hadd client), List.count_cons_of_ne (hrelease client)]
  exact h client

theorem parseStepArgs_some {args : Option (List Char)} {mode : Char} {count : Nat}
    (h : parseStepArgs args = some (mode, count)) : (mode = 'p' ∨ mode = 't') ∧ 1 ≤ count ∧ count ≤ 1000 := by
  unfold parseStepArgs at h
  split at h
  · cases h
  · dsimp only at h
    split at h
    · cases h
    · rename_i hmode
      split at h
      · cases h
      · rename_i hcount
        obtain ⟨rfl, rfl⟩ := Prod.mk.inj (Option.some.inj h)
        refine ⟨?_, by omega⟩
        by_contra hneither
        exact hmode (not_or.mp hneither)

theorem dvsStep_pending {s : StepSession Client} (client : Client) (args : Option (List Char)) (host : StepHost)
    (h : s.stepPending = true) : s.dvsStep client args host = s := by
  unfold dvsStep
  cases parseStepArgs args with
  | none => rfl
  | some accepted =>
    dsimp only
    rw [h]
    split
    · rfl
    · rfl

section effects
variable (s : StepSession Client)

theorem clearPendingStep_idle : Idle s.clearPendingStep ∧ s.clearPendingStep.stepPending = false := by
  unfold clearPendingStep releaseStepClient
  cases hclient : s.stepClient with
  | none => exact ⟨⟨rfl, rfl, rfl, rfl⟩, rfl⟩
  | some client => exact ⟨⟨rfl, rfl, rfl, rfl⟩, rfl⟩

theorem clearPendingStep_effects :
    s.clearPendingStep.effects = (s.stepClient.map StepEffect.release).toList ++ s.effects := by
  unfold clearPendingStep releaseStepClient
  cases hclient : s.stepClient with
  | none => rfl
  | some client => rfl

variable {s} [DecidableEq Client]

theorem clearPendingStep_balanced (h : Balanced s) : Balanced s.clearPendingStep := by
  intro other
  have hother := h other
  rw [clearPendingStep_effects, (clearPendingStep_idle s).1.client, List.count_append, List.count_append, hother]
  cases s.stepClient with
  | none => simp
  | some client =>
    by_cases hsame : client = other
    · simp [hsame, Nat.add_comm]
    · simp [hsame]

/-- Clearing is consistent whatever was going on, as long as the references are accounted for. -/
theorem clearPendingStep_consistent (h : Balanced s) : Consistent s.clearPendingStep := by
  obtain ⟨hidle, hpending⟩ := clearPendingStep_idle s
  refine ⟨fun _ => hidle, fun hstepping => ?_, clearPendingStep_balanced h⟩
  rw [hpending] at hstepping
  cases hstepping

/-- Between two steps the next one is initiated, or everything is given up. -/
theorem initiateNextPendingStep_consistent (host : StepHost) {client : Client} {mode : Char} {count : Nat}
    (hstepping : Stepping s false client mode count) (hremaining : 0 < s.stepRemaining) (hbalanced : Balanced s) :
    Consistent (s.initiateNextPendingStep host).1 := by
  unfold initiateNextPendingStep
  rw [hstepping.held]
  dsimp only
  rw [hstepping.pending, hstepping.inProgress, decide_eq_false (Nat.ne_of_gt hremaining), if_neg (by decide)]
  cases host.stepExecution with
  | false => exact clearPendingStep_consistent hbalanced
  | true =>
    have hinitiated := hstepping.initiated
    have hreported : updatesSent s.effects = stepsInitiated s.effects := hstepping.reported
    obtain ⟨hcapture, hsteps, hupdates⟩ := counts_initiated s.effects client s.stepMode
    rw [if_neg (by decide)]
    refine ⟨fun hidle => ?_, fun _ => ⟨client, mode, count, rfl, rfl, rfl, ⟨hstepping.captured.1, ?_⟩,
      hstepping.accepted, ?_, ?_⟩, ?_⟩
    · cases hidle
    · exact hcapture.trans hstepping.captured.2
    · rw [hsteps]
      change stepsInitiated s.effects + 1 + (s.stepRemaining - 1) = count
      omega
    · rw [hsteps, hupdates, hreported]
      rfl
    · exact balanced_of_push hbalanced hstepping.held.symm rfl (fun _ h => by cases h) (fun _ h => by cases h)

/-- A stop after a step is reported, and the next step follows, or everything is given up or over. -/
theorem handlePostStepAccessible_consistent (host : StepHost) (h : Consistent s) :
    Consistent (s.handlePostStepAccessible host) := by
  unfold handlePostStepAccessible
  split
  · exact h
  rename_i hguard
  have hpending : s.stepPending = true := by
    cases hpending : s.stepPending with
    | true => rfl
    | false =>
      rw [hpending] at hguard
      exact absurd rfl hguard
  obtain ⟨client, mode, count, hstepping⟩ := h.stepping hpending
  have hreported : updatesSent s.effects + 1 = stepsInitiated s.effects := hstepping.reported
  cases host.executionStatus with
  | none => exact clearPendingStep_consistent h.balanced
  | some status =>
    dsimp only
    split
    · exact h
    · cases sentPcUpdate host (toBytes "dvs_step".toList) with
      | none => exact clearPendingStep_consistent (s := { s with stepInProgress := false }) h.balanced
      | some line =>
        obtain ⟨hcapture, hsteps, hupdates⟩ := counts_pcUpdate s.effects line
        have hbalanced : Balanced { s with stepInProgress := false, effects := .pcUpdate line :: s.effects } :=
          balanced_of_push h.balanced rfl rfl (fun _ h => by cases h) (fun _ h => by cases h)
        dsimp only
        split
        · rename_i hremaining
          have hready : Stepping { s with stepInProgress := false, effects := .pcUpdate line :: s.effects } false client
              mode count := by
            refine ⟨hstepping.pending, rfl, hstepping.held, ⟨hstepping.captured.1, ?_⟩, hstepping.accepted, ?_, ?_⟩
            · exact hcapture.trans hstepping.captured.2
            · rw [hsteps]
              exact hstepping.initiated
            · rw [hsteps, hupdates]
              exact hreported
          exact initiateNextPendingStep_consistent host hready hremaining hbalanced
        · exact clearPendingStep_consistent hbalanced

theorem dvsStep_consistent (client : Client) (args : Option (List Char)) (host : StepHost) (h : Consistent s) :
    Consistent (s.dvsStep client args host) := by
  unfold dvsStep
  cases hargs : parseStepArgs args with
  | none => exact h
  | some accepted =>
    obtain ⟨mode, count⟩ := accepted
    dsimp only
    split
    · exact h
    split
    · exact h
    rename_i hpending
    cases host.contextIds with
    | none => exact h
    | some ids =>
      obtain ⟨processId, threadId⟩ := ids
      have haccepted := parseStepArgs_some hargs
      obtain ⟨hcapture, hsteps, hupdates⟩ := counts_captured (.addRef client :: s.effects) mode count
      refine initiateNextPendingStep_consistent host
        (⟨rfl, rfl, rfl, ⟨rfl, hcapture⟩, haccepted, ?_, ?_⟩ : Stepping _ false client mode count) haccepted.2.1 ?_
      · rw [hsteps]
        exact Nat.zero_add count
      · rw [hsteps, hupdates]
        rfl
      · intro other
        have hother := h.balanced other
        rw [(h.idle (Bool.eq_false_iff.mpr hpending)).client] at hother
        by_cases hsame : client = other
        · simp [hsame, hother]
        · simp [hsame, hother]

theorem step_consistent (h : Consistent s) (event : StepEvent Client) : Consistent (s.step event) := by
  cases event with
  | dvsStep client args host => exact dvsStep_consistent client args host h
  | sessionAccessible host => exact handlePostStepAccessible_consistent host h
  | sessionInaccessible => exact h
  | sessionInactive => exact clearPendingStep_consistent h.balanced
  | dvsDisconnect => exact clearPendingStep_consistent h.balanced
  | extensionUninitialized => exact clearPendingStep_consistent h.balanced

end effects

/-- In every state between events of every sequence, a pending step holds one reference and has reported all steps
but the running one, without a pending step nothing is kept, and a `dvs_step` while one is pending changes nothing. -/
theorem step_sequence_consistent [DecidableEq Client] (events : List (StepEvent Client)) :
    ∀ s ∈ Run.states step ({} : StepSession Client) events,
      (s.stepPending = false → s.stepInProgress = false ∧ s.stepRemaining = 0 ∧ s.stepMode = noMode ∧
        s.stepClient = none ∧ ∀ client, s.effects.count (.addRef client) = s.effects.count (.release client)) ∧
      (s.stepPending = true → s.stepInProgress = true ∧ ∃ holder mode count, s.stepClient = some holder ∧
        s.stepMode = mode ∧ lastCapture s.effects = some (mode, count) ∧ (mode = 'p' ∨ mode = 't') ∧ 1 ≤ count ∧
        count ≤ 1000 ∧ stepsInitiated s.effects = count - s.stepRemaining ∧ s.stepRemaining ≤ count ∧
        updatesSent s.effects + 1 = stepsInitiated s.effects ∧
        ∀ client, s.effects.count (.addRef client) =
          s.effects.count (.release client) + if client = holder then 1 else 0) ∧
      ∀ client args host, s.stepPending = true → s.dvsStep client args host = s := by
  intro s hs
  have hstart : Consistent ({} : StepSession Client) :=
    ⟨fun _ => ⟨rfl, rfl, rfl, rfl⟩, fun hpending => absurd hpending Bool.false_ne_true, fun _ => rfl⟩
  have h : Consistent s := Run.invariant step (I := Consistent) (fun _ event h => step_consistent h event)
    hstart events s hs
  refine ⟨fun hidle => ?_, fun hpending => ?_, fun client args host => dvsStep_pending client args host⟩
  · obtain ⟨hprogress, hremaining, hmode, hclient⟩ := h.idle hidle
    refine ⟨hprogress, hremaining, hmode, hclient, fun client => ?_⟩
    have hbalanced := h.balanced client
    rwa [hclient] at hbalanced
  · obtain ⟨holder, mode, count, hstepping⟩ := h.stepping hpending
    have hinitiated := hstepping.initiated
    refine ⟨hstepping.inProgress, holder, mode, count, hstepping.held, hstepping.captured.1, hstepping.captured.2,
      hstepping.accepted.1, hstepping.accepted.2.1, hstepping.accepted.2.2, by omega, by omega, hstepping.reported,
      fun client => ?_⟩
    rw [h.balanced client, hstepping.held]
    simp only [Option.some.injEq, eq_comm]

/-- A debugger that steps and stops, and a broker that takes every line. -/
def steppingHost : StepHost :=
  { connected := true
    contextIds := some (0, 0)
    stepExecution := true
    executionStatus := some debugStatusBreak
    pcInfo := some { pc := 0x401000, module := [97], runtimeModuleBase := 0x400000 }
    messageId := 1
    pcSeq := 1
    sendAll := true }

/-- Three steps asked for, the first of them done. -/
def threeSteps : List (StepEvent Unit) :=
  [.dvsStep () (some ['p', ' ', '3']) steppingHost, .sessionAccessible steppingHost]

theorem three_steps_pending : (threeSteps.foldl step {}).stepPending = true := by decide +kernel

theorem step_sequence_consistent_three :
    let s := threeSteps.foldl step {}
    s.stepInProgress = true ∧ ∃ holder mode count, s.stepClient = some holder ∧ s.stepMode = mode ∧
      lastCapture s.effects = some (mode, count) ∧ (mode = 'p' ∨ mode = 't') ∧ 1 ≤ count ∧ count ≤ 1000 ∧
      stepsInitiated s.effects = count - s.stepRemaining ∧ s.stepRemaining ≤ count ∧
      updatesSent s.effects + 1 = stepsInitiated s.effects ∧ ∀ client,
        s.effects.count (.addRef client) = s.effects.count (.release client) + if client = holder then 1 else 0 :=
  (step_sequence_consistent threeSteps _ (Run.foldl_mem_states step {} threeSteps)).2.1 three_steps_pending

end StepSession
end DynvarSync.Windbg
