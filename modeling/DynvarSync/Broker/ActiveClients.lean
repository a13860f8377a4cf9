import DynvarSync.Broker.Broker
import DynvarSync.Lib.Run

/-! Who is heard: a forwarded message comes from the active client of its role, as
long as a client is never replaced with routable lines still in its buffer. -/
namespace DynvarSync.Broker
open Lib PyText Ida

def linesFrom (current : List UInt8) : List UInt8 → List (List UInt8)
  | [] => []
  | b :: rest => if b = 10 then current :: linesFrom [] rest else linesFrom (current ++ [b]) rest

/-- The complete lines of a buffer. -/
def completeLines (buffer : List UInt8) : List (List UInt8) := linesFrom [] buffer

/-- A line the broker forwards for a session of the role once its destination is connected. -/
def isRoutable (loads : JsonLoads) (role : Role) (line : List UInt8) : Bool :=
  !isBlankLine line && match readMessage loads line with
    | .ok message => message.role = role && message.type ≠ .hello && (destinationRole role message.type).isSome
    | .error _ => false

/-- The session that the next line of a connection replaces. -/
def replacedSession (loads : JsonLoads) (s : State) (number : Nat) : Option ClientSession :=
  match s.connections.get? number with
  | none => none
  | some connection =>
    match connection.session, splitLine connection.buffer with
    | none, some (line, _) =>
      if isBlankLine line then none
      else match readMessage loads line with
        | .ok message =>
          if message.type = .hello ∧ (message.role = .ida ∨ message.role = .windbg) then s.registry.get message.role
          else none
        | .error _ => none
    | _, _ => none

/-- No session is replaced while its connection still buffers a routable line. -/
def ReplacesQuietly (loads : JsonLoads) (s : State) : Event → Prop
  | .line number => ∀ old ∈ replacedSession loads s number, ∀ connection ∈ s.connections.get? old.connection,
      ∀ line ∈ completeLines connection.buffer, isRoutable loads old.role line = false
  | _ => True

/-- What the step forwards comes from the registered session of its role. -/
def HeardOnlyActive (loads : JsonLoads) (s : State) (event : Event) : Prop :=
  ∀ routed ∈ (stepOut loads s event).routed, s.registry.get routed.source.role = some routed.source

theorem linesFrom_split {buffer line rest : List UInt8} (h : splitLine buffer = some (line, rest))
    (current : List UInt8) : linesFrom current buffer = (current ++ line) :: linesFrom [] rest := by
  induction buffer generalizing line current with
  | nil => cases h
  | cons b buffer ih =>
    rw [splitLine] at h
    rw [linesFrom]
    split at h
    · rename_i hb
      cases h
      rw [if_pos hb, List.append_nil]
    · rename_i hb
      obtain ⟨split, hsplit, heq⟩ := Option.map_eq_some_iff.mp h
      cases heq
      rw [if_neg hb, ih hsplit, List.append_assoc]
      rfl

theorem completeLines_split {buffer line rest : List UInt8} (h : splitLine buffer = some (line, rest)) :
    completeLines buffer = line :: completeLines rest := linesFrom_split h []

/-- A session not registered any more: its socket is closed and nothing routable is left to read. -/
structure Silenced (loads : JsonLoads) (connection : Connection) (session : ClientSession) : Prop where
  closed : connection.socketOpen = false
  quiet : ∀ line ∈ completeLines connection.buffer, isRoutable loads session.role line = false

/-- Every running reader's session is its own, and registered or silenced. -/
structure Inv (loads : JsonLoads) (s : State) : Prop where
  owner : ∀ number connection session, s.connections.get? number = some connection →
    connection.session = some session → session.connection = number
  heard : ∀ number connection session, s.connections.get? number = some connection →
    connection.session = some session → s.registry.get session.role = some session ∨ Silenced loads connection session

section steps
variable {loads : JsonLoads} {s : State}

/-- Replacing the state of one reader that keeps its session. -/
theorem Inv.putConnection (h : Inv loads s) {number : Nat} {connection : Connection}
    (howner : ∀ session, connection.session = some session → session.connection = number)
    (hheard : ∀ session, connection.session = some session →
      s.registry.get session.role = some session ∨ Silenced loads connection session) :
    Inv loads (s.putConnection number connection) := by
  constructor
  · intro n c session hc hs
    rw [State.putConnection, Dict.get?_set] at hc
    split at hc
    · rename_i hn
      cases hc
      exact (howner session hs).trans hn.symm
    · exact h.owner n c session hc hs
  · intro n c session hc hs
    rw [State.putConnection, Dict.get?_set] at hc
    split at hc
    · cases hc
      exact hheard session hs
    · exact h.heard n c session hc hs

/-- A reader that ends takes only its own session out of the registry. -/
theorem Inv.finish (h : Inv loads s) {number : Nat} {connection : Connection}
    (howner : ∀ session, connection.session = some session → session.connection = number) :
    Inv loads (s.finish number connection) := by
  have hget : ∀ n c, (s.finish number connection).connections.get? n = some c →
      n ≠ number ∧ s.connections.get? n = some c := by
    intro n c hc
    rw [State.finish, Dict.get?_pop] at hc
    split at hc
    · cases hc
    · exact ⟨‹_›, hc⟩
  constructor
  · intro n c session hc hs
    exact h.owner n c session (hget n c hc).2 hs
  · intro n c session hc hs
    obtain ⟨hne, hc⟩ := hget n c hc
    refine (h.heard n c session hc hs).imp_left fun hreg => ?_
    unfold State.finish
    cases hown : connection.session with
    | none => exact hreg
    | some own =>
      dsimp only
      unfold ClientRegistry.remove
      split
      · rename_i hactive
        have hrole : session.role ≠ own.role := by
          intro hrole
          rw [ClientRegistry.get, hrole, hactive] at hreg
          cases hreg
          exact hne ((h.owner n c session hc hs).symm.trans (howner session hown))
        exact (Dict.get?_pop_ne _ hrole).trans hreg
      · exact hreg

/-- Whether registering the session closes the socket of connection `n`. -/
def closes (s : State) (session : ClientSession) (n : Nat) : Bool :=
  match s.registry.get session.role with
  | some old => old.connection = n && old.connection ≠ session.connection
  | none => false

/-- A registration changes no connection except for closing the replaced socket. -/
theorem register_connections (session : ClientSession) (n : Nat) :
    (s.register session).connections.get? n =
      (s.connections.get? n).map fun c => { c with socketOpen := c.socketOpen && !closes s session n } := by
  unfold State.register ClientRegistry.register closes ClientRegistry.get
  cases s.registry.clients.get? session.role with
  | none => simp
  | some old =>
    dsimp only
    split
    · rename_i hne
      unfold State.closeSocket
      dsimp only
      cases hc : s.connections.get? old.connection with
      | none =>
        by_cases hn : old.connection = n
        · simp [← hn, hc]
        · simp [hn]
      | some c =>
        by_cases hn : n = old.connection
        · simp [State.putConnection, hn, hc, hne]
        · have hn' : old.connection ≠ n := fun h => hn h.symm
          simp [State.putConnection, Dict.get?_set_ne _ _ hn, hn']
    · rename_i heq
      simp [not_not.mp heq]

theorem register_registry (session : ClientSession) :
    (s.register session).registry.clients = s.registry.clients.set session.role session := by
  unfold State.register ClientRegistry.register
  cases s.registry.clients.get? session.role with
  | none => rfl
  | some old =>
    dsimp only
    split
    · unfold State.closeSocket
      dsimp only
      split <;> rfl
    · rfl

/-- A registration that replaces nobody with routable lines left keeps the invariant. -/
theorem Inv.register (h : Inv loads s) {number : Nat} {role : Role}
    (hnone : ∀ c, s.connections.get? number = some c → c.session = none)
    (hquiet : ∀ old, s.registry.get role = some old → ∀ c, s.connections.get? old.connection = some c →
      ∀ line ∈ completeLines c.buffer, isRoutable loads old.role line = false) :
    Inv loads (s.register { role := role, connection := number }) := by
  constructor
  · intro n c session hc hs
    rw [register_connections] at hc
    obtain ⟨c', hc', rfl⟩ := Option.map_eq_some_iff.mp hc
    exact h.owner n c' session hc' hs
  · intro n c session hc hs
    rw [register_connections] at hc
    obtain ⟨c', hc', rfl⟩ := Option.map_eq_some_iff.mp hc
    rcases h.heard n c' session hc' hs with hreg | hsilent
    · by_cases hrole : session.role = role
      · subst hrole
        have howner : session.connection = n := h.owner n c' session hc' hs
        have hother : session.connection ≠ number := by
          intro hn
          rw [← howner, hn] at hc'
          have hsession := hnone c' hc'
          rw [hs] at hsession
          cases hsession
        refine .inr ⟨?_, hquiet session hreg c' (howner ▸ hc')⟩
        simp [closes, hreg, howner, howner ▸ hother]
      · refine .inl ?_
        rw [ClientRegistry.get, register_registry, Dict.get?_set_ne _ _ hrole]
        exact hreg
    · exact .inr ⟨by simp [hsilent.closed], hsilent.quiet⟩

end steps

section runs
variable {loads : JsonLoads} {s : State}

theorem routeMessage_state (source : ClientSession) (message : Message) :
    (s.routeMessage source message).state = s := by
  unfold State.routeMessage
  split
  · rfl
  · split <;> rfl

/-- The invariant once a line has been taken out of its buffer. -/
theorem Inv.takeLine (h : Inv loads s) {number : Nat} {connection : Connection}
    (hc : s.connections.get? number = some connection) {line rest : List UInt8}
    (hsplit : splitLine connection.buffer = some (line, rest)) :
    Inv loads (s.putConnection number { connection with buffer := rest }) := by
  refine h.putConnection (fun session hs => h.owner number connection session hc hs) fun session hs => ?_
  refine (h.heard number connection session hc hs).imp_right fun hsilent => ⟨hsilent.closed, fun l hl => ?_⟩
  refine hsilent.quiet l ?_
  rw [completeLines_split hsplit]
  exact List.mem_cons_of_mem _ hl

/-- What the next line of a connection without a session registers. -/
theorem replacedSession_eq {number : Nat} {connection : Connection}
    (hc : s.connections.get? number = some connection) (hnone : connection.session = none) {line rest : List UInt8}
    (hsplit : splitLine connection.buffer = some (line, rest)) (hline : isBlankLine line = false) {message : Message}
    (hread : readMessage loads line = .ok message) (hello : message.type = .hello)
    (hrole : message.role = .ida ∨ message.role = .windbg) :
    replacedSession loads s number = s.registry.get message.role := by
  unfold replacedSession
  rw [hc]
  dsimp only
  rw [hnone, hsplit]
  dsimp only
  rw [hline, hread, if_neg Bool.false_ne_true]
  exact if_pos ⟨hello, hrole⟩

theorem line_inv (h : Inv loads s) {number : Nat} {connection : Connection}
    (hc : s.connections.get? number = some connection) {line rest : List UInt8}
    (hsplit : splitLine connection.buffer = some (line, rest)) (hquiet : ReplacesQuietly loads s (.line number)) :
    Inv loads (s.handleLine loads number connection line rest).state := by
  have htaken := h.takeLine hc hsplit
  unfold State.handleLine
  dsimp only
  cases hline : isBlankLine line with
  | true => exact htaken
  | false =>
    rw [if_neg Bool.false_ne_true]
    cases hread : readMessage loads line with
    | error error =>
      cases error with
      | protocol text => exact htaken
      | _ => exact htaken.finish fun session hs => h.owner number connection session hc hs
    | ok message =>
      dsimp only
      unfold State.handleMessage
      dsimp only
      cases hsession : connection.session with
      | some session =>
        rw [hsession] at htaken
        dsimp only
        split
        · exact htaken
        · split
          · exact htaken
          · rw [routeMessage_state]
            exact htaken
      | none =>
        rw [hsession] at htaken
        dsimp only
        split
        · exact htaken
        · rename_i hello
          split
          · exact htaken
          · rename_i hrole
            have hrole : message.role = .ida ∨ message.role = .windbg := by
              by_contra hno
              exact hrole (not_or.mp hno)
            have hreplaced := replacedSession_eq hc hsession hsplit hline hread (not_not.mp hello) hrole
            refine (htaken.register (fun c hn => ?_) fun old hold c hn l hl => ?_).putConnection ?_ ?_
            · rw [State.putConnection, Dict.get?_set_self] at hn
              cases hn
              rfl
            · rw [State.putConnection, Dict.get?_set] at hn
              split at hn
              · rename_i hself
                cases hn
                refine hquiet old (hreplaced.trans hold) connection (hself ▸ hc) l ?_
                rw [completeLines_split hsplit]
                exact List.mem_cons_of_mem _ hl
              · exact hquiet old (hreplaced.trans hold) c hn l hl
            · intro session hs
              cases hs
              rfl
            · intro session hs
              cases hs
              refine .inl ?_
              rw [ClientRegistry.get, register_registry, Dict.get?_set_self]

/-- Every step that replaces quietly keeps the invariant. -/
theorem step_inv (h : Inv loads s) (event : Event) (hquiet : ReplacesQuietly loads s event) :
    Inv loads (step loads s event) := by
  unfold step stepOut
  cases event with
  | accept =>
    have hnew : Inv loads (s.putConnection s.accepted {}) :=
      h.putConnection (fun _ hs => by cases hs) (fun _ hs => by cases hs)
    exact ⟨hnew.owner, hnew.heard⟩
  | recv number chunk =>
    dsimp only
    cases hc : s.connections.get? number with
    | none => exact h
    | some connection =>
      dsimp only
      split
      · exact h
      · split
        · exact h.finish fun session hs => h.owner number connection session hc hs
        · rename_i hopen
          refine h.putConnection (fun session hs => h.owner number connection session hc hs) fun session hs => ?_
          refine .inl ((h.heard number connection session hc hs).resolve_right fun hsilent => ?_)
          exact hopen (.inr hsilent.closed)
  | line number =>
    dsimp only
    cases hc : s.connections.get? number with
    | none => exact h
    | some connection =>
      dsimp only
      cases hsplit : splitLine connection.buffer with
      | none => exact h
      | some split => exact line_inv h hc hsplit hquiet

/-- A message is forwarded only for the line of a session, and that line is routable. -/
theorem handleLine_routed {number : Nat} {connection : Connection} {line rest : List UInt8} {routed : Routed}
    (h : routed ∈ (s.handleLine loads number connection line rest).routed) :
    connection.session = some routed.source ∧ isRoutable loads routed.source.role line = true := by
  unfold State.handleLine at h
  dsimp only at h
  cases hline : isBlankLine line with
  | true =>
    rw [hline] at h
    cases h
  | false =>
    rw [hline, if_neg Bool.false_ne_true] at h
    cases hread : readMessage loads line with
    | error error =>
      rw [hread] at h
      cases error <;> cases h
    | ok message =>
      rw [hread] at h
      dsimp only at h
      unfold State.handleMessage at h
      dsimp only at h
      cases hsession : connection.session with
      | none =>
        rw [hsession] at h
        dsimp only at h
        split at h
        · cases h
        · split at h <;> cases h
      | some session =>
        rw [hsession] at h
        dsimp only at h
        split at h
        · cases h
        · rename_i hrole
          split at h
          · cases h
          · rename_i hello
            unfold State.routeMessage at h
            cases hdest : destinationRole session.role message.type with
            | none =>
              rw [hdest] at h
              cases h
            | some role =>
              rw [hdest] at h
              dsimp only at h
              split at h
              · cases h
              · cases List.mem_singleton.mp h
                refine ⟨rfl, ?_⟩
                simp [isRoutable, hline, hread, not_not.mp hrole, hello, hdest]

theorem step_heard (h : Inv loads s) (event : Event) : HeardOnlyActive loads s event := by
  intro routed hrouted
  unfold stepOut at hrouted
  cases event with
  | accept => cases hrouted
  | recv number chunk =>
    dsimp only at hrouted
    split at hrouted
    · cases hrouted
    · split at hrouted
      · cases hrouted
      · split at hrouted <;> cases hrouted
  | line number =>
    dsimp only at hrouted
    cases hc : s.connections.get? number with
    | none =>
      rw [hc] at hrouted
      cases hrouted
    | some connection =>
      rw [hc] at hrouted
      dsimp only at hrouted
      cases hsplit : splitLine connection.buffer with
      | none =>
        rw [hsplit] at hrouted
        cases hrouted
      | some split =>
        rw [hsplit] at hrouted
        obtain ⟨hsession, hroutable⟩ := handleLine_routed hrouted
        refine (h.heard number connection routed.source hc hsession).resolve_right fun hsilent => ?_
        have hquiet := hsilent.quiet split.1 (by rw [completeLines_split hsplit]; exact List.mem_cons_self ..)
        rw [hroutable] at hquiet
        cases hquiet

/-- In every run in which no client is replaced with a routable line still in its buffer, every message is
forwarded from the session registered for its role at that moment. -/
theorem forwarded_from_active (loads : JsonLoads) (events : List Event)
    (hquiet : Run.Along (step loads) (ReplacesQuietly loads) {} events) :
    Run.Along (step loads) (HeardOnlyActive loads) {} events := by
  refine Run.along_imp (step loads) (I := Inv loads) (fun s event h hq => step_inv h event hq)
    (fun s event h _ => step_heard h event) ?_ hquiet
  constructor <;> intro number connection session hc <;> cases hc

end runs

/-- The envelopes the examples send, as one line of text each. -/
def sampleText (type : MessageType) (role : Role) : String :=
  "\x7b\"protocol\":1,\"id\":1,\"type\":\"" ++ typeText type ++ "\",\"role\":\"" ++ role.text ++
    "\",\"payload\":\x7b\x7d\x7d"

def sampleLoads : JsonLoads := fun text =>
  match [(MessageType.hello, Role.ida), (.hello, .windbg), (.pcUpdate, .windbg)].find? fun sample =>
      text = sampleText sample.1 sample.2 with
  | some (type, role) => .ok (.obj (makeEnvelope type role [] (.int 1)))
  | none => .error "Expecting value"

def sampleLine (type : MessageType) (role : Role) : List UInt8 :=
  (sampleText type role).toList.map (fun c => UInt8.ofNat c.toNat) ++ [10]

/-- An IDA client, a debugger client that has said hello and sent a `pc_update`, and another debugger client. -/
def threeClients : List Event :=
  [.accept, .accept, .accept, .recv 0 (sampleLine .hello .ida), .line 0,
   .recv 1 (sampleLine .hello .windbg ++ sampleLine .pcUpdate .windbg), .line 1,
   .recv 2 (sampleLine .hello .windbg)]

instance (loads : JsonLoads) (s : State) (event : Event) : Decidable (HeardOnlyActive loads s event) :=
  inferInstanceAs (Decidable (∀ routed ∈ (stepOut loads s event).routed, _))

instance (loads : JsonLoads) (s : State) (event : Event) : Decidable (ReplacesQuietly loads s event) :=
  match event with
  | .accept => isTrue trivial
  | .recv _ _ => isTrue trivial
  | .line number => inferInstanceAs (Decidable (∀ old ∈ replacedSession loads s number,
      ∀ connection ∈ s.connections.get? old.connection, ∀ line ∈ completeLines connection.buffer, _))

theorem forwarded_from_active_drained :
    Run.Along (step sampleLoads) (HeardOnlyActive sampleLoads) {} (threeClients ++ [.line 1, .line 2]) :=
  forwarded_from_active sampleLoads (threeClients ++ [.line 1, .line 2]) (by decide +kernel)

/-- The first debugger client is replaced before its buffered `pc_update` is handled, and the update is
forwarded all the same. -/
theorem replaced_client_forwarded :
    ¬ ∀ (loads : JsonLoads) (events : List Event), Run.Along (step loads) (HeardOnlyActive loads) {} events := by
  intro h
  exact absurd (h sampleLoads (threeClients ++ [.line 2, .line 1])) (by decide +kernel)

end DynvarSync.Broker
