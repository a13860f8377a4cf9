import DynvarSync.Broker.Registrations

/-! The direction of forwarding: a message reaches the other side unless its type is routed to the
role that sent it. -/
namespace DynvarSync.Broker
open Lib Ida

/-- The types the broker's documentation routes from each client. -/
def documentedTypes : Role → List MessageType
  | .windbg => [.pcUpdate, .regResponse, .memResponse, .error]
  | .ida => [.idaPcMapped, .regRequest, .memRequest, .error]
  | .broker => []

/-- A message forwarded to the other side, with a type documented for its sender. -/
def Routed.Across (routed : Routed) : Prop :=
  oppositeRole routed.source.role = some routed.destination.role ∧
    routed.destination.role ≠ routed.source.role ∧ routed.message.type ∈ documentedTypes routed.source.role

instance (routed : Routed) : Decidable routed.Across := by
  unfold Routed.Across
  infer_instance

/-- What the step forwards goes across. -/
def ForwardsAcross (loads : JsonLoads) (s : State) (event : Event) : Prop :=
  ∀ routed ∈ (stepOut loads s event).routed, routed.Across

/-- The message a line of a registered session hands to the router. -/
def lineMessage (loads : JsonLoads) (session : Option ClientSession) (line : List UInt8) :
    Option (ClientSession × Message) :=
  session.bind fun session =>
    if isBlankLine line then none
    else match readMessage loads line with
      | .ok message => if message.role = session.role ∧ message.type ≠ .hello then some (session, message) else none
      | .error _ => none

/-- The message a step hands to the router. -/
def routerMessage (loads : JsonLoads) (s : State) : Event → Option (ClientSession × Message)
  | .accept => none
  | .recv _ _ => none
  | .line number => (s.connections.get? number).bind fun connection =>
      (splitLine connection.buffer).bind fun split => lineMessage loads connection.session split.1

/-- A connected client has sent a type that is routed to clients of its own role, and one is connected. -/
def RoutedBack (s : State) (source : ClientSession) (message : Message) : Prop :=
  routes message.type = some source.role ∧ (s.registry.get source.role).isSome

instance (s : State) (source : ClientSession) (message : Message) : Decidable (RoutedBack s source message) := by
  unfold RoutedBack
  infer_instance

/-- No message at the router is routed back. -/
def NothingBack (loads : JsonLoads) (s : State) (event : Event) : Prop :=
  ∀ pair ∈ routerMessage loads s event, ¬ RoutedBack s pair.1 pair.2

/-- What the router forwards for a message. -/
def routedFor (s : State) : Option (ClientSession × Message) → List Routed
  | none => []
  | some (source, message) => (s.routeMessage source message).routed

section routing
variable {loads : JsonLoads} {s : State}

theorem routeMessage_routed (source : ClientSession) (message : Message) :
    (s.routeMessage source message).routed =
      (((destinationRole source.role message.type).bind s.registry.get).map fun destination =>
        { source := source, destination := destination, message := message : Routed }).toList := by
  unfold State.routeMessage
  cases destinationRole source.role message.type with
  | none => rfl
  | some role =>
    rw [Option.bind_some]
    dsimp only
    cases s.registry.get role <;> rfl

theorem handleMessage_routed {number : Nat} (connection : Connection) (message : Message) :
    (s.handleMessage number connection message).routed = routedFor s (connection.session.bind fun session =>
      if message.role = session.role ∧ message.type ≠ .hello then some (session, message) else none) := by
  unfold State.handleMessage
  cases connection.session with
  | none =>
    dsimp only
    split
    · rfl
    · split <;> rfl
  | some session =>
    rw [Option.bind_some]
    dsimp only
    by_cases hrole : message.role = session.role
    · by_cases hello : message.type = .hello
      · rw [if_neg (not_not.mpr hrole), if_pos hello, if_neg fun h => h.2 hello]
        rfl
      · rw [if_neg (not_not.mpr hrole), if_neg hello, if_pos ⟨hrole, hello⟩]
        rfl
    · rw [if_pos hrole, if_neg fun h => hrole h.1]
      rfl

theorem handleLine_routed_eq {number : Nat} (connection : Connection) (line rest : List UInt8) :
    (s.handleLine loads number connection line rest).routed =
    routedFor s (lineMessage loads connection.session line) := by
  have hnone : routedFor s (connection.session.bind fun _ => none) = [] := by
    cases connection.session <;> rfl
  unfold State.handleLine lineMessage
  dsimp only
  cases isBlankLine line with
  | true => exact hnone.symm
  | false =>
    simp only [Bool.false_eq_true, if_false]
    cases readMessage loads line with
    | error error => cases error <;> exact hnone.symm
    | ok message =>
      refine (handleMessage_routed _ message).trans ?_
      dsimp only
      cases connection.session with
      | none => rfl
      | some session =>
        dsimp only [Option.bind_some]
        split
        · exact (routeMessage_routed session message).trans (routeMessage_routed (s := s) session message).symm
        · rfl

/-- Only the router forwards, and it reads nothing but the registry. -/
theorem stepOut_routed (event : Event) :
    (stepOut loads s event).routed = routedFor s (routerMessage loads s event) := by
  cases event with
  | accept => rfl
  | recv number chunk =>
    rw [stepOut, routerMessage]
    cases s.connections.get? number with
    | none => rfl
    | some connection =>
      dsimp only
      split
      · rfl
      · split <;> rfl
  | line number =>
    rw [stepOut, routerMessage]
    cases s.connections.get? number with
    | none => rfl
    | some connection =>
      rw [Option.bind_some]
      dsimp only
      cases splitLine connection.buffer with
      | none => rfl
      | some split => exact handleLine_routed_eq connection split.1 split.2

/-- A type that reaches a role is documented for the other client. -/
theorem documented_of_destination {source role : Role} {type : MessageType} (hclient : source ≠ .broker)
    (hdestination : destinationRole source type = some role) (hrole : role ≠ source) :
    oppositeRole source = some role ∧ type ∈ documentedTypes source := by
  cases source <;> cases type <;> cases hdestination <;>
    first | exact absurd rfl hrole | exact absurd rfl hclient | decide

/-- A message is routed to its sender's own role only by the route table. -/
theorem destination_self {source : Role} {type : MessageType} :
    destinationRole source type = some source ↔ routes type = some source := by
  cases source <;> cases type <;> decide

/-- The router is given messages of running, registered sessions only. -/
theorem routerMessage_reader {event : Event} {source : ClientSession} {message : Message}
    (h : routerMessage loads s event = some (source, message)) : ∃ n, s.reader n = some (some source) := by
  cases event with
  | accept => cases h
  | recv => cases h
  | line number =>
    obtain ⟨connection, hc, h⟩ := Option.bind_eq_some_iff.mp h
    obtain ⟨split, _, h⟩ := Option.bind_eq_some_iff.mp h
    obtain ⟨session, hsession, h⟩ := Option.bind_eq_some_iff.mp h
    have hsource : session = source := by
      split at h
      · cases h
      · split at h
        · split at h
          · cases h
            rfl
          · cases h
        · cases h
    exact ⟨number, by rw [reader_of_get hc, hsession, hsource]⟩

theorem forwardsAcross_iff {log : List ClientSession} (h : Tracks s log) (event : Event) :
    ForwardsAcross loads s event ↔ NothingBack loads s event := by
  unfold ForwardsAcross NothingBack
  rw [stepOut_routed]
  cases hpair : routerMessage loads s event with
  | none => exact iff_of_true (fun _ h => by cases h) (fun _ h => by cases h)
  | some pair =>
    obtain ⟨source, message⟩ := pair
    obtain ⟨n, hreader⟩ := routerMessage_reader hpair
    have hclient : source.role ≠ .broker := h.client source (h.owner n source hreader).2
    have hforall : (∀ pair ∈ some (source, message), ¬ RoutedBack s pair.1 pair.2) ↔ ¬ RoutedBack s source message := by
      simp
    rw [hforall, routedFor, routeMessage_routed, RoutedBack, ← destination_self]
    cases hdestination : destinationRole source.role message.type with
    | none => exact iff_of_true (fun _ h => by cases h) (fun h => by cases h.1)
    | some role =>
      rw [Option.bind_some, Option.some_inj]
      cases hget : s.registry.get role with
      | none =>
        refine iff_of_true (fun _ h => by cases h) fun hback => ?_
        rw [← hback.1, hget] at hback
        cases hback.2
      | some destination =>
        have hrole : destination.role = role := (latestOf_role ((h.registry role destination).mp hget).1).2
        rw [Option.map_some, Option.toList_some, List.forall_mem_singleton]
        by_cases hself : role = source.role
        · refine iff_of_false (fun hacross => hacross.2.1 (hrole.trans hself)) (not_not.mpr ⟨hself, ?_⟩)
          rw [← hself, hget]
          rfl
        · obtain ⟨hopposite, hdocumented⟩ := documented_of_destination hclient hdestination hself
          refine iff_of_true ⟨hopposite.trans (congrArg some hrole.symm), ?_, hdocumented⟩ fun hback => hself hback.1
          exact fun heq => hself (hrole.symm.trans heq)

end routing

/-- Along a run everything is forwarded to the other side, with a documented type, exactly when no client sends a type
that is routed to its own role while a client of that role is connected. -/
theorem forwarded_across_iff (loads : JsonLoads) (events : List Event) :
    Run.Along (step loads) (ForwardsAcross loads) {} events ↔ Run.Along (step loads) (NothingBack loads) {} events :=
  Run.along_congr (step loads) (I := fun s => ∃ log, Tracks s log)
    (fun s event ⟨_, h⟩ => ⟨_, tracks_step h (step_registers loads s event)⟩)
    (fun _ event ⟨_, h⟩ => forwardsAcross_iff h event) ⟨[], tracks_start⟩ events

/-- A debugger client that asks for registers itself. -/
def askingDebugger : List Event :=
  [.accept, .recv 0 (sampleLine .hello .windbg ++ sampleLine .regRequest .windbg), .line 0, .line 0]

def askingLoads : JsonLoads := fun text =>
  match [(MessageType.hello, Role.windbg), (.regRequest, .windbg)].find? fun sample =>
      text = sampleText sample.1 sample.2 with
  | some (type, role) => .ok (.obj (makeEnvelope type role [] (.int 1)))
  | none => .error "Expecting value"

instance (loads : JsonLoads) (s : State) (event : Event) : Decidable (ForwardsAcross loads s event) :=
  inferInstanceAs (Decidable (∀ routed ∈ (stepOut loads s event).routed, _))

/-- The debugger's own request comes back to it. -/
theorem register_request_returned :
    ¬ ∀ (loads : JsonLoads) (events : List Event), Run.Along (step loads) (ForwardsAcross loads) {} events := by
  intro h
  exact absurd (h askingLoads askingDebugger) (by decide +kernel)

end DynvarSync.Broker
