import DynvarSync.Broker.ActiveClients

/-! Registrations and disconnect cleanups in any order: the registry holds, for each role, the
session registered last, for as long as its reader runs. -/
namespace DynvarSync.Broker
open Lib Ida

/-- The value `remove` returns. -/
def ClientRegistry.removes (registry : ClientRegistry) (session : ClientSession) : Bool :=
  registry.clients.get? session.role = some session

/-- The running reader of a connection, by the session it has made. -/
def State.reader (s : State) (number : Nat) : Option (Option ClientSession) :=
  (s.connections.get? number).map Connection.session

/-- The session a running reader has made between two states. -/
def madeSession : Option (Option ClientSession) → Option (Option ClientSession) → Option ClientSession
  | some none, some session => session
  | _, _ => none

/-- The session a step registers. -/
def registeredBy (loads : JsonLoads) (s : State) : Event → Option ClientSession
  | .line number => madeSession (s.reader number) ((step loads s (.line number)).reader number)
  | _ => none

/-- The sessions registered along a run, newest first. -/
def registrations (loads : JsonLoads) : State → List Event → List ClientSession
  | _, [] => []
  | s, event :: rest => registrations loads (step loads s event) rest ++ (registeredBy loads s event).toList

/-- The session of a role registered last. -/
def latestOf (role : Role) (log : List ClientSession) : Option ClientSession := log.find? fun x => x.role = role

/-- What one step does to the readers and the registry. -/
inductive Registers (s s' : State) : Option ClientSession → Prop where
  | stay (readers : ∀ n, s'.reader n = s.reader n) (registry : s'.registry = s.registry)
      (accepted : s'.accepted = s.accepted) : Registers s s' none
  | accept (readers : ∀ n, s'.reader n = if n = s.accepted then some none else s.reader n)
      (registry : s'.registry = s.registry) (accepted : s'.accepted = s.accepted + 1) : Registers s s' none
  | cleanup (number : Nat) (session : Option ClientSession) (running : s.reader number = some session)
      (readers : ∀ n, s'.reader n = if n = number then none else s.reader n)
      (registry : s'.registry = (session.map s.registry.remove).getD s.registry)
      (accepted : s'.accepted = s.accepted) : Registers s s' none
  | register (session : ClientSession) (client : session.role ≠ .broker)
    (unregistered : s.reader session.connection = some none)
      (readers : ∀ n, s'.reader n = if n = session.connection then some (some session) else s.reader n)
      (registry : s'.registry.clients = s.registry.clients.set session.role session)
      (accepted : s'.accepted = s.accepted) : Registers s s' (some session)

theorem madeSession_self (reader : Option (Option ClientSession)) : madeSession reader reader = none := by
  rcases reader with _ | _ | _ <;> rfl

theorem madeSession_none (reader : Option (Option ClientSession)) : madeSession reader none = none := by
  rcases reader with _ | _ | _ <;> rfl

theorem madeSession_unregistered (reader : Option (Option ClientSession)) : madeSession reader (some none) = none := by
  rcases reader with _ | _ | _ <;> rfl

section steps
variable {loads : JsonLoads} {s : State} {number : Nat} {connection : Connection}

theorem reader_putConnection (n : Nat) :
    (s.putConnection number connection).reader n = if n = number then some connection.session else s.reader n := by
  rw [State.reader, State.putConnection, Dict.get?_set, State.reader]
  split <;> rfl

theorem reader_of_get (hc : s.connections.get? number = some connection) :
    s.reader number = some connection.session := by
  rw [State.reader, hc]
  rfl

/-- Writing back a reader that keeps its session changes no reader. -/
theorem registers_putConnection (hc : s.connections.get? number = some connection) {c : Connection}
    (hsession : c.session = connection.session) : Registers s (s.putConnection number c) none := by
  refine .stay (fun n => ?_) rfl rfl
  rw [reader_putConnection, hsession]
  split
  · rename_i hn
    rw [hn, reader_of_get hc]
  · rfl

theorem registers_finish (hc : s.connections.get? number = some connection) {s' : State}
    (hreaders : ∀ n, s'.reader n = s.reader n) (hregistry : s'.registry = s.registry)
    (haccepted : s'.accepted = s.accepted)
    {c : Connection} (hsession : c.session = connection.session) : Registers s (s'.finish number c) none := by
  refine .cleanup number connection.session (reader_of_get hc) (fun n => ?_) ?_ haccepted
  · rw [State.reader, State.finish, Dict.get?_pop]
    split
    · rfl
    · exact hreaders n
  · rw [State.finish, hsession, hregistry]
    cases connection.session <;> rfl

/-- Closing a replaced socket leaves the reader running. -/
theorem reader_register (session : ClientSession) (n : Nat) : (s.register session).reader n = s.reader n := by
  rw [State.reader, register_connections, Option.map_map, State.reader]
  rfl

theorem register_accepted (session : ClientSession) : (s.register session).accepted = s.accepted := by
  unfold State.register ClientRegistry.register
  cases s.registry.clients.get? session.role with
  | none => rfl
  | some old =>
    dsimp only
    split
    · unfold State.closeSocket
      dsimp only
      split <;> rfl
    · rfl

/-- A registration makes the session of its own connection. -/
theorem handleMessage_registers (hc : s.connections.get? number = some connection) (message : Message) :
    ∃ session, Registers s (s.handleMessage number connection message).state session ∧
      ∀ x ∈ session, x.connection = number := by
  have hstay : ∃ session, Registers s s session ∧ ∀ x ∈ session, x.connection = number :=
    ⟨none, .stay (fun _ => rfl) rfl rfl, nofun⟩
  unfold State.handleMessage
  cases hsession : connection.session with
  | some session =>
    dsimp only
    split
    · exact hstay
    · split
      · exact hstay
      · rw [routeMessage_state]
        exact hstay
  | none =>
    dsimp only
    split
    · exact hstay
    · split
      · exact hstay
      · rename_i hrole
        refine ⟨_, .register { role := message.role, connection := number } ?_ ?_ (fun n => ?_) ?_ ?_, ?_⟩
        · intro hbroker
          dsimp only at hbroker
          exact hrole (by rw [hbroker]; decide)
        · rw [reader_of_get hc, hsession]
        · rw [reader_putConnection, reader_register]
        · exact register_registry _
        · exact register_accepted _
        · intro x hx
          cases hx
          rfl

theorem Registers.of_same {s' t : State} {session : Option ClientSession} (h : Registers t s' session)
    (hreaders : ∀ n, t.reader n = s.reader n) (hregistry : t.registry = s.registry)
    (haccepted : t.accepted = s.accepted) :
    Registers s s' session := by
  cases h with
  | stay readers registry accepted =>
    exact .stay (fun n => (readers n).trans (hreaders n)) (registry.trans hregistry) (accepted.trans haccepted)
  | accept readers registry accepted =>
    refine .accept (fun n => ?_) (registry.trans hregistry) (haccepted ▸ accepted)
    rw [readers n, haccepted, hreaders]
  | cleanup number session running readers registry accepted =>
    refine .cleanup number session (hreaders number ▸ running) (fun n => ?_) (hregistry ▸ registry)
      (accepted.trans haccepted)
    rw [readers n, hreaders]
  | register session client unregistered readers registry accepted =>
    refine .register session client (hreaders _ ▸ unregistered) (fun n => ?_) (hregistry ▸ registry)
      (accepted.trans haccepted)
    rw [readers n, hreaders]

theorem handleLine_registers (hc : s.connections.get? number = some connection) (line rest : List UInt8) :
    ∃ session, Registers s (s.handleLine loads number connection line rest).state session ∧
      ∀ x ∈ session, x.connection = number := by
  let taken := s.putConnection number { connection with buffer := rest }
  have hreaders : ∀ n, taken.reader n = s.reader n := by
    intro n
    rw [reader_putConnection]
    split
    · rename_i hn
      rw [hn, reader_of_get hc]
    · rfl
  have htaken : ∃ session, Registers s taken session ∧ ∀ x ∈ session, x.connection = number :=
    ⟨none, .stay hreaders rfl rfl, nofun⟩
  unfold State.handleLine
  dsimp only
  split
  · exact htaken
  · split
    · rename_i message _
      have hself : taken.connections.get? number = some { connection with buffer := rest } := Dict.get?_set_self ..
      obtain ⟨session, hmoved, howner⟩ := handleMessage_registers hself message
      exact ⟨session, hmoved.of_same hreaders rfl rfl, howner⟩
    · exact htaken
    · exact ⟨none, registers_finish hc hreaders rfl rfl rfl, nofun⟩

/-- Every step is one of the four moves, and `registeredBy` names the session of a registration. -/
theorem step_registers (loads : JsonLoads) (s : State) (event : Event) :
    Registers s (step loads s event) (registeredBy loads s event) := by
  cases event with
  | accept => exact .accept (fun n => reader_putConnection n) rfl rfl
  | recv number chunk =>
    rw [step, stepOut]
    cases hc : s.connections.get? number with
    | none => exact .stay (fun _ => rfl) rfl rfl
    | some connection =>
      dsimp only
      split
      · exact .stay (fun _ => rfl) rfl rfl
      · split
        · exact registers_finish hc (fun _ => rfl) rfl rfl rfl
        · exact registers_putConnection hc rfl
  | line number =>
    have hmoves : ∃ session, Registers s (step loads s (.line number)) session ∧
        ∀ x ∈ session, x.connection = number := by
      rw [step, stepOut]
      cases hc : s.connections.get? number with
      | none => exact ⟨none, .stay (fun _ => rfl) rfl rfl, nofun⟩
      | some connection =>
        dsimp only
        cases splitLine connection.buffer with
        | none => exact ⟨none, .stay (fun _ => rfl) rfl rfl, nofun⟩
        | some split => exact handleLine_registers hc split.1 split.2
    obtain ⟨session, hmoved, howner⟩ := hmoves
    have hsame : registeredBy loads s (.line number) = session := by
      rw [registeredBy]
      generalize step loads s (.line number) = s' at hmoved
      cases hmoved with
      | stay readers _ _ => rw [readers number, madeSession_self]
      | accept readers _ _ =>
        rw [readers number]
        split
        · exact madeSession_unregistered _
        · exact madeSession_self _
      | cleanup _ _ _ readers _ _ =>
        rw [readers number]
        split
        · exact madeSession_none _
        · exact madeSession_self _
      | register session _ unregistered readers _ _ =>
        have hn : session.connection = number := howner session rfl
        rw [readers number, if_pos hn.symm, ← hn, unregistered]
        rfl
    rw [hsame]
    exact hmoved

end steps

/-- Removing a session takes exactly that session out of the registry. -/
theorem remove_get_iff (registry : ClientRegistry) (own session : ClientSession) (role : Role) :
    (registry.remove own).get role = some session ↔
      registry.get role = some session ∧ (session ≠ own ∨ role ≠ own.role) := by
  unfold ClientRegistry.remove ClientRegistry.get
  by_cases hown : registry.clients.get? own.role = some own
  · rw [if_pos hown, Dict.get?_pop]
    by_cases hrole : role = own.role
    · rw [if_pos hrole, hrole, hown]
      refine iff_of_false nofun fun h => ?_
      exact h.2.elim (fun hne => hne (Option.some.inj h.1).symm) (fun hne => hne rfl)
    · simp [hrole]
  · rw [if_neg hown]
    refine ⟨fun h => ⟨h, ?_⟩, And.left⟩
    by_contra hsame
    obtain ⟨rfl, rfl⟩ : session = own ∧ role = own.role := by simpa using hsame
    exact hown h

theorem latestOf_role {role : Role} {log : List ClientSession} {session : ClientSession}
    (h : latestOf role log = some session) : session ∈ log ∧ session.role = role := by
  refine ⟨List.mem_of_find?_eq_some h, ?_⟩
  simpa using List.find?_some h

theorem latestOf_cons (role : Role) (session : ClientSession) (log : List ClientSession) :
    latestOf role (session :: log) = if role = session.role then some session else latestOf role log := by
  unfold latestOf
  by_cases hrole : role = session.role
  · rw [if_pos hrole, List.find?_cons_of_pos (by simp [hrole])]
  · rw [if_neg hrole, List.find?_cons_of_neg (by simp [Ne.symm hrole])]

/-- The registry against the registrations so far, newest first. -/
structure Tracks (s : State) (log : List ClientSession) : Prop where
  owner : ∀ n session, s.reader n = some (some session) → session.connection = n ∧ session ∈ log
  logged : ∀ session ∈ log, session.connection < s.accepted ∧
    ∀ held, s.reader session.connection = some held → held = some session
  client : ∀ session ∈ log, session.role ≠ .broker
  running : ∀ n, (s.reader n).isSome → n < s.accepted
  registry : ∀ role session, s.registry.get role = some session ↔
    latestOf role log = some session ∧ (s.reader session.connection).isSome

/-- Taking a finished connection's session out leaves the other registered sessions. -/
theorem Tracks.get_removed {s : State} {log : List ClientSession} (h : Tracks s log) (own : Option ClientSession)
    (role : Role) (session : ClientSession) :
    ((own.map s.registry.remove).getD s.registry).get role = some session ↔
      s.registry.get role = some session ∧ own ≠ some session := by
  cases own with
  | none => simp
  | some own =>
    rw [Option.map_some, Option.getD_some, remove_get_iff]
    refine and_congr_right fun hget => ?_
    rw [← (latestOf_role ((h.registry role session).mp hget).1).2]
    constructor
    · rintro (hne | hne) heq
      · exact hne (Option.some.inj heq).symm
      · exact hne (congrArg ClientSession.role (Option.some.inj heq)).symm
    · exact fun hne => .inl fun heq => hne (congrArg some heq.symm)

theorem tracks_step {s s' : State} {log : List ClientSession} {registered : Option ClientSession}
    (h : Tracks s log) (hstep : Registers s s' registered) : Tracks s' (registered.toList ++ log) := by
  cases hstep with
  | stay readers registry accepted =>
    refine ⟨fun n session => ?_, fun session hs => ?_, h.client, fun n => ?_, fun role session => ?_⟩
    · rw [readers]
      exact h.owner n session
    · rw [readers, accepted]
      exact h.logged session hs
    · rw [readers, accepted]
      exact h.running n
    · rw [readers, registry]
      exact h.registry role session
  | accept readers registry accepted =>
    have hold : ∀ session ∈ log, s'.reader session.connection = s.reader session.connection := by
      intro session hs
      rw [readers, if_neg (Nat.ne_of_lt (h.logged session hs).1)]
    refine ⟨fun n session hn => ?_, fun session hs => ?_, h.client, fun n hn => ?_, fun role session => ?_⟩
    · rw [readers] at hn
      split at hn
      · cases hn
      · exact h.owner n session hn
    · rw [hold session hs, accepted]
      exact ⟨Nat.lt_succ_of_lt (h.logged session hs).1, (h.logged session hs).2⟩
    · rw [readers] at hn
      rw [accepted]
      split at hn
      · omega
      · exact Nat.lt_succ_of_lt (h.running n hn)
    · rw [registry, h.registry]
      refine and_congr_right fun hfind => ?_
      rw [hold session (latestOf_role hfind).1]
  | cleanup number own running readers registry accepted =>
    refine ⟨fun n session hn => ?_, fun session hs => ?_, h.client, fun n hn => ?_, fun role session => ?_⟩
    · rw [readers] at hn
      split at hn
      · cases hn
      · exact h.owner n session hn
    · rw [readers, accepted]
      refine ⟨(h.logged session hs).1, fun held hheld => ?_⟩
      split at hheld
      · cases hheld
      · exact (h.logged session hs).2 held hheld
    · rw [readers] at hn
      rw [accepted]
      split at hn
      · cases hn
      · exact h.running n hn
    · rw [registry, h.get_removed, h.registry, readers, and_assoc]
      refine and_congr_right fun hfind => ?_
      have hmem := (latestOf_role hfind).1
      by_cases hn : session.connection = number
      · rw [if_pos hn]
        refine iff_of_false (fun hkept => hkept.2 ?_) (fun hr => by cases hr)
        exact (h.logged session hmem).2 own (hn ▸ running)
      · rw [if_neg hn]
        refine and_iff_left fun hown => hn ?_
        exact (h.owner number session (hown ▸ running)).1
  | register session client unregistered readers registry accepted =>
    have hother : ∀ x ∈ log, x.connection ≠ session.connection := by
      intro x hx heq
      cases (h.logged x hx).2 none (heq ▸ unregistered)
    refine ⟨fun n x hn => ?_, fun x hx => ?_, List.forall_mem_cons.mpr ⟨client, h.client⟩, fun n hn => ?_,
      fun role x => ?_⟩
    · rw [readers] at hn
      split at hn
      · rename_i hself
        cases hn
        exact ⟨hself.symm, List.mem_cons_self ..⟩
      · obtain ⟨hown, hmem⟩ := h.owner n x hn
        exact ⟨hown, List.mem_cons_of_mem _ hmem⟩
    · rw [accepted, readers]
      rcases List.mem_cons.mp hx with rfl | hx
      · refine ⟨h.running x.connection (by rw [unregistered]; rfl), fun held hheld => ?_⟩
        rw [if_pos rfl] at hheld
        exact (Option.some.inj hheld).symm
      · rw [if_neg (hother x hx)]
        exact h.logged x hx
    · rw [readers] at hn
      rw [accepted]
      split at hn
      · rename_i hself
        exact h.running n (by rw [hself, unregistered]; rfl)
      · exact h.running n hn
    · have hrunning : (s'.reader x.connection).isSome = (s.reader x.connection).isSome := by
        rw [readers]
        split
        · rename_i hself
          rw [hself, unregistered]
          rfl
        · rfl
      rw [ClientRegistry.get, registry, Dict.get?_set, hrunning]
      change _ ↔ latestOf role (session :: log) = some x ∧ _
      rw [latestOf_cons]
      by_cases hrole : role = session.role
      · rw [if_pos hrole, if_pos hrole]
        refine (and_iff_left_of_imp fun heq => ?_).symm
        cases heq
        rw [unregistered]
        rfl
      · rw [if_neg hrole, if_neg hrole]
        exact h.registry role x

theorem tracks_run (loads : JsonLoads) (events : List Event) {s : State} {log : List ClientSession}
    (h : Tracks s log) : Tracks (events.foldl (step loads) s) (registrations loads s events ++ log) := by
  induction events generalizing s log with
  | nil => exact h
  | cons event rest ih =>
    have hnext := ih (tracks_step h (step_registers loads s event))
    rwa [← List.append_assoc] at hnext

theorem tracks_start : Tracks {} [] := by
  refine ⟨nofun, nofun, nofun, nofun, fun role session => ?_⟩
  exact iff_of_false nofun fun h => by cases h.1

/-- In every run the registry holds for a role exactly the session registered last, while its reader runs; the cleanup
of a reader takes at most its own session out, and `remove` reports whether it did. -/
theorem registry_latest_running (loads : JsonLoads) (events : List Event) :
    let s := events.foldl (step loads) {}
    (∀ role session, s.registry.get role = some session ↔
      latestOf role (registrations loads {} events) = some session ∧
        (s.connections.get? session.connection).isSome) ∧
    ∀ number connection session, s.connections.get? number = some connection → connection.session = some session →
      let cleaned := (s.finish number connection).registry
      (∀ role other, cleaned.get role = some other ↔ s.registry.get role = some other ∧ other ≠ session) ∧
      (s.registry.removes session = true ↔ ∃ role, s.registry.get role = some session) := by
  have htracks := tracks_run loads events tracks_start
  rw [List.append_nil] at htracks
  generalize registrations loads {} events = log at htracks
  intro s
  have hrole : ∀ role other, s.registry.get role = some other → other.role = role := fun role other hget =>
    (latestOf_role ((htracks.registry role other).mp hget).1).2
  refine ⟨fun role session => ?_, fun number connection session hc hsession => ⟨fun role other => ?_, ?_⟩⟩
  · rw [htracks.registry, State.reader, Option.isSome_map]
  · rw [State.finish, hsession, remove_get_iff]
    refine and_congr_right fun hget => or_iff_left_of_imp fun hne heq => hne ?_
    rw [← hrole role other hget, heq]
  · rw [ClientRegistry.removes, decide_eq_true_iff]
    refine ⟨fun hget => ⟨_, hget⟩, ?_⟩
    rintro ⟨role, hget⟩
    rw [hrole role session hget]
    exact hget

/-- The second debugger client says hello, and only then does the replaced first one finish. -/
def replacedThenFinished : List Event := threeClients ++ [.line 2, .line 1, .recv 1 []]

theorem registry_latest_running_replaced :
    (replacedThenFinished.foldl (step sampleLoads) {}).registry.get .windbg =
      some { role := .windbg, connection := 2 } :=
  ((registry_latest_running sampleLoads replacedThenFinished).1 .windbg { role := .windbg, connection := 2 }).mpr
    (by decide +kernel)

end DynvarSync.Broker
