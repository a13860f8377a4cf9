import DynvarSync.Broker.Readers
import DynvarSync.Broker.RouteDirection

/-! Two registered clients and whatever else connects: each line of one of them is written to the
other, and nothing else is. -/
namespace DynvarSync.Broker
open Lib Ida

/-- What an event writes to a connection. -/
def sentTo (loads : JsonLoads) (number : Nat) (s : State) (event : Event) : List Payload :=
  ((stepOut loads s event).sent.filter fun written => written.1 = number).map Prod.snd

/-- A line the router passes from a client of the role to the other client. -/
def Crosses (loads : JsonLoads) (role : Role) (line : List UInt8) : Prop :=
  isBlankLine line = false ∧
    ∃ message, readMessage loads line = .ok message ∧ message.role = role ∧ message.type ∈ documentedTypes role

/-- A line a new connection registers with. -/
def Greets (loads : JsonLoads) (line : List UInt8) : Prop :=
  ∃ message, readMessage loads line = .ok message ∧ message.type = .hello ∧
    (message.role = .ida ∨ message.role = .windbg)

/-- The session of a running reader, and whether its socket is open. -/
def State.standing (s : State) (number : Nat) : Option (Option ClientSession × Bool) :=
  (s.connections.get? number).map fun connection => (connection.session, connection.socketOpen)

/-- The only sessions are those of two clients, each the active one of its role. -/
structure Paired (s : State) (a b : ClientSession) : Prop where
  opposite : oppositeRole a.role = some b.role
  first : s.standing a.connection = some (some a, true)
  second : s.standing b.connection = some (some b, true)
  firstActive : s.registry.get a.role = some a
  secondActive : s.registry.get b.role = some b
  alone : ∀ n session, s.reader n = some (some session) → session = a ∨ session = b

/-- The two clients send what crosses and stay connected; nobody else says hello as a client. -/
structure Undisturbed (loads : JsonLoads) (a b : ClientSession) (s : State) (event : Event) : Prop where
  first : ∀ line ∈ Reading.lineRead s a.connection event, Crosses loads a.role line
  second : ∀ line ∈ Reading.lineRead s b.connection event, Crosses loads b.role line
  others : ∀ n, n ≠ a.connection → n ≠ b.connection → ∀ line ∈ Reading.lineRead s n event, ¬ Greets loads line
  connected : ∀ n, event = .recv n [] → n ≠ a.connection ∧ n ≠ b.connection

theorem oppositeRole_symm {role other : Role} (h : oppositeRole role = some other) :
    oppositeRole other = some role := by
  cases role <;> cases h <;> rfl

/-- What each client sends is routed to the other. -/
theorem destination_of_documented {role other : Role} (h : oppositeRole role = some other) {type : MessageType}
    (htype : type ∈ documentedTypes role) : destinationRole role type = some other := by
  cases role <;> cases h <;> cases type <;> first | rfl | exact absurd htype (by decide)

theorem not_hello_of_documented {role : Role} {type : MessageType} (htype : type ∈ documentedTypes role) :
    type ≠ .hello := by
  rintro rfl
  cases role <;> exact absurd htype (by decide)

theorem readMessage_fields {loads : JsonLoads} {line : List UInt8} {message : Message}
    (h : readMessage loads line = .ok message) : decodeJsonlLine loads line = .ok message.fields := by
  rw [readMessage] at h
  split at h
  · cases h
  · rename_i fields hdecode
    rw [hdecode]
    unfold validateMessageShape at h
    repeat' split at h
    all_goals first | cases h; rfl | cases h

section pairs
variable {loads : JsonLoads} {s : State} {a b : ClientSession} {event : Event} {number : Nat} {connection : Connection}

theorem Paired.symm (h : Paired s a b) : Paired s b a :=
  ⟨oppositeRole_symm h.opposite, h.second, h.first, h.secondActive, h.firstActive,
    fun n session hn => (h.alone n session hn).symm⟩

theorem Undisturbed.symm (h : Undisturbed loads a b s event) : Undisturbed loads b a s event :=
  ⟨h.second, h.first, fun n hb ha => h.others n ha hb, fun n hn => (h.connected n hn).symm⟩

theorem Paired.ne (h : Paired s a b) : a.connection ≠ b.connection := by
  intro heq
  have hsame := h.first
  rw [heq, h.second] at hsame
  obtain rfl : b = a := Option.some.inj (Prod.mk.inj (Option.some.inj hsame)).1
  have hopposite := h.opposite
  cases hrole : b.role <;> rw [hrole] at hopposite <;> cases hopposite

theorem reader_eq_standing (s : State) (n : Nat) : s.reader n = (s.standing n).map Prod.fst := by
  rw [State.reader, State.standing, Option.map_map]
  rfl

theorem standing_of_get (hc : s.connections.get? number = some connection) :
    s.standing number = some (connection.session, connection.socketOpen) := by
  rw [State.standing, hc, Option.map_some]

theorem standing_putConnection (n : Nat) : (s.putConnection number connection).standing n =
    if n = number then some (connection.session, connection.socketOpen) else s.standing n := by
  rw [State.standing, State.putConnection, Dict.get?_set, State.standing]
  split <;> rfl

/-- Another buffer is no other standing. -/
theorem standing_buffered (hc : s.connections.get? number = some connection) (buffer : List UInt8) (n : Nat) :
    (s.putConnection number { connection with buffer := buffer }).standing n = s.standing n := by
  rw [standing_putConnection]
  split
  · rename_i hn
    rw [hn, standing_of_get hc]
  · rfl

theorem standing_finish (n : Nat) :
    (s.finish number connection).standing n = if n = number then none else s.standing n := by
  rw [State.standing, State.finish, Dict.get?_pop, State.standing]
  split <;> rfl

/-- The pair stays if its own connections stand as before and no other reader has a session. -/
theorem Paired.kept {t : State} (h : Paired s a b) (hregistry : t.registry = s.registry)
    (hstanding : ∀ n, t.standing n = s.standing n ∨
      n ≠ a.connection ∧ n ≠ b.connection ∧ ∀ session, t.reader n ≠ some (some session)) : Paired t a b := by
  refine ⟨h.opposite, ?_, ?_, hregistry ▸ h.firstActive, hregistry ▸ h.secondActive, fun n session hn => ?_⟩
  · rcases hstanding a.connection with hsame | ⟨hne, _, _⟩
    · exact hsame.trans h.first
    · exact absurd rfl hne
  · rcases hstanding b.connection with hsame | ⟨_, hne, _⟩
    · exact hsame.trans h.second
    · exact absurd rfl hne
  · rcases hstanding n with hsame | ⟨_, _, hnone⟩
    · refine h.alone n session ?_
      rwa [reader_eq_standing, ← hsame, ← reader_eq_standing]
    · exact absurd hn (hnone session)

/-- Whoever else connects has no session. -/
theorem Paired.sessionless (h : Paired s a b) {log : List ClientSession} (htracks : Tracks s log)
    (hc : s.connections.get? number = some connection) (ha : number ≠ a.connection) (hb : number ≠ b.connection) :
    connection.session = none := by
  cases hsession : connection.session with
  | none => rfl
  | some session =>
    have hreader : s.reader number = some (some session) := by rw [reader_of_get hc, hsession]
    have howner := (htracks.owner number session hreader).1
    rcases h.alone number session hreader with rfl | rfl
    · exact absurd howner.symm ha
    · exact absurd howner.symm hb

/-- A client's line that crosses is written to the other client and nowhere else. -/
theorem handleLine_crosses (h : Paired s a b) (hsession : connection.session = some a) {line : List UInt8}
    (hcrosses : Crosses loads a.role line) (rest : List UInt8) :
    ∃ fields, decodeJsonlLine loads line = .ok fields ∧
      (s.handleLine loads number connection line rest).sent = [(b.connection, fields)] ∧
      (s.handleLine loads number connection line rest).state =
        s.putConnection number { connection with buffer := rest } := by
  obtain ⟨hblank, message, hread, hrole, htype⟩ := hcrosses
  have hactive : (s.putConnection number { connection with buffer := rest }).registry.get b.role = some b :=
    h.secondActive
  have hhandled : s.handleLine loads number connection line rest =
      (s.putConnection number { connection with buffer := rest }).routeMessage a message := by
    rw [State.handleLine, hblank, hread, if_neg Bool.false_ne_true]
    dsimp only
    rw [State.handleMessage, hsession]
    dsimp only
    rw [if_neg (not_not.mpr hrole), if_neg (not_hello_of_documented htype)]
  refine ⟨message.fields, readMessage_fields hread, ?_, ?_⟩
  · rw [hhandled, State.routeMessage, destination_of_documented h.opposite htype]
    dsimp only
    rw [hactive]
  · rw [hhandled, routeMessage_state]

/-- A connection without a session that does not register is answered itself, if anybody. -/
theorem handleLine_sessionless (hsession : connection.session = none) {line : List UInt8}
    (hgreets : ¬ Greets loads line) (rest : List UInt8) :
    (∀ written ∈ (s.handleLine loads number connection line rest).sent, written.1 = number) ∧
      ((s.handleLine loads number connection line rest).state =
          s.putConnection number { connection with buffer := rest } ∨
        (s.handleLine loads number connection line rest).state =
          (s.putConnection number { connection with buffer := rest }).finish number
            { connection with buffer := rest }) := by
  rw [State.handleLine]
  split
  · exact ⟨List.forall_mem_nil _, .inl rfl⟩
  · split
    · rename_i message hread
      rw [State.handleMessage, hsession]
      dsimp only
      split
      · exact ⟨List.forall_mem_singleton.mpr rfl, .inl rfl⟩
      · rename_i hello
        split
        · exact ⟨List.forall_mem_singleton.mpr rfl, .inl rfl⟩
        · rename_i hrole
          exact absurd ⟨message, hread, not_not.mp hello, (not_and_or.mp hrole).imp not_not.mp not_not.mp⟩ hgreets
    · exact ⟨List.forall_mem_singleton.mpr rfl, .inl rfl⟩
    · exact ⟨List.forall_mem_nil _, .inr rfl⟩

end pairs

/-- What an event writes to the second client is what it handles of the first one. -/
structure Relays (loads : JsonLoads) (a b : ClientSession) (s : State) (event : Event) : Prop where
  kept : Paired (step loads s event) a b
  relayed : (sentTo loads b.connection s event).map Except.ok =
    (Reading.lineRead s a.connection event).map (decodeJsonlLine loads)

section relaying
variable {loads : JsonLoads} {s : State} {a b : ClientSession} {event : Event}

/-- An event that writes nothing and handles no line. -/
theorem Paired.silent (h : Paired s a b) {t : State} (hstep : stepOut loads s event = { state := t })
    (hline : Reading.lineRead s a.connection event = []) (hregistry : t.registry = s.registry)
    (hstanding : ∀ n, t.standing n = s.standing n ∨
      n ≠ a.connection ∧ n ≠ b.connection ∧ ∀ session, t.reader n ≠ some (some session)) :
    Relays loads a b s event := by
  refine ⟨?_, ?_⟩
  · rw [step, hstep]
    exact h.kept hregistry hstanding
  · rw [sentTo, hstep, hline]
    rfl

theorem lineRead_none {n number : Nat} (hc : s.connections.get? n = none) :
    Reading.lineRead s number (.line n) = [] := by
  rw [Reading.lineRead, hc]

theorem lineRead_other {n number : Nat} (hn : n ≠ number) : Reading.lineRead s number (.line n) = [] := by
  rw [Reading.lineRead]
  split
  · exact if_neg hn
  · rfl

theorem lineRead_self {n : Nat} {connection : Connection} (hc : s.connections.get? n = some connection) :
    Reading.lineRead s n (.line n) = ((splitLine connection.buffer).map Prod.fst).toList := by
  rw [Reading.lineRead, hc]
  exact if_pos rfl

theorem Paired.accepted (h : Paired s a b) {log : List ClientSession} (htracks : Tracks s log) :
    Relays loads a b s .accept := by
  have hne : ∀ session, s.standing session.connection = some (some session, true) →
      s.accepted ≠ session.connection := by
    intro session hstanding
    have hrunning := htracks.running session.connection (by rw [reader_eq_standing, hstanding]; rfl)
    exact Nat.ne_of_gt hrunning
  refine h.silent rfl rfl rfl fun n => ?_
  change (s.putConnection s.accepted {}).standing n = s.standing n ∨ _
  by_cases hn : n = s.accepted
  · refine .inr ⟨hn ▸ hne a h.first, hn ▸ hne b h.second, fun session => ?_⟩
    change (s.putConnection s.accepted {}).reader n ≠ some (some session)
    rw [reader_putConnection, if_pos hn]
    intro hsession
    cases hsession
  · refine .inl ?_
    rw [standing_putConnection, if_neg hn]

theorem Paired.received (h : Paired s a b) {log : List ClientSession} (htracks : Tracks s log) {n : Nat}
    {chunk : List UInt8} (hquiet : Undisturbed loads a b s (.recv n chunk)) : Relays loads a b s (.recv n chunk) := by
  cases hc : s.connections.get? n with
  | none => exact h.silent (by rw [stepOut, hc]) rfl rfl fun _ => .inl rfl
  | some connection =>
    by_cases hpending : (splitLine connection.buffer).isSome = true
    · refine h.silent ?_ rfl rfl fun _ => .inl rfl
      rw [stepOut, hc]
      exact if_pos hpending
    by_cases hend : chunk = [] ∨ connection.socketOpen = false
    · have hother : ∀ session, s.standing session.connection = some (some session, true) →
          (∀ k, Event.recv n chunk = .recv k [] → k ≠ session.connection) → n ≠ session.connection := by
        rintro session hstanding hconnected rfl
        rcases hend with rfl | hclosed
        · exact hconnected session.connection rfl rfl
        · rw [standing_of_get hc, hclosed] at hstanding
          exact absurd (Prod.mk.inj (Option.some.inj hstanding)).2 Bool.false_ne_true
      have ha : n ≠ a.connection := hother a h.first fun k hk => (hquiet.connected k hk).1
      have hb : n ≠ b.connection := hother b h.second fun k hk => (hquiet.connected k hk).2
      refine h.silent (t := s.finish n connection) ?_ rfl ?_ fun k => ?_
      · rw [stepOut, hc]
        dsimp only
        rw [if_neg hpending, if_pos hend]
      · rw [State.finish, h.sessionless htracks hc ha hb]
      · rw [reader_eq_standing, standing_finish]
        by_cases hk : k = n
        · rw [if_pos hk]
          exact .inr ⟨hk ▸ ha, hk ▸ hb, fun _ hsession => by cases hsession⟩
        · rw [if_neg hk]
          exact .inl rfl
    · refine h.silent (t := s.putConnection n { connection with buffer := connection.buffer ++ chunk }) ?_ rfl rfl
        fun k => .inl (standing_buffered hc _ k)
      rw [stepOut, hc]
      dsimp only
      rw [if_neg hpending, if_neg hend]

theorem Paired.handled (h : Paired s a b) {log : List ClientSession} (htracks : Tracks s log) {n : Nat}
    (hquiet : Undisturbed loads a b s (.line n)) : Relays loads a b s (.line n) := by
  cases hc : s.connections.get? n with
  | none => exact h.silent (by rw [stepOut, hc]) (lineRead_none hc) rfl fun _ => .inl rfl
  | some connection =>
    cases hsplit : splitLine connection.buffer with
    | none =>
      refine h.silent ?_ ?_ rfl fun _ => .inl rfl
      · rw [stepOut, hc]
        dsimp only
        rw [hsplit]
      · by_cases hn : n = a.connection
        · rw [← hn, lineRead_self hc, hsplit]
          rfl
        · exact lineRead_other hn
    | some split =>
      obtain ⟨line, rest⟩ := split
      have hstep : stepOut loads s (.line n) = s.handleLine loads n connection line rest := by
        rw [stepOut, hc]
        dsimp only
        rw [hsplit]
      have hread : Reading.lineRead s n (.line n) = [line] := by
        rw [lineRead_self hc, hsplit]
        rfl
      have hbuffered := standing_buffered hc rest
      by_cases ha : n = a.connection
      · subst ha
        have hsession : connection.session = some a := by
          have hfirst := h.first
          rw [standing_of_get hc] at hfirst
          exact (Prod.mk.inj (Option.some.inj hfirst)).1
        obtain ⟨fields, hfields, hsent, hstate⟩ :=
          handleLine_crosses h hsession (hquiet.first line (hread ▸ List.mem_singleton_self line)) rest
        refine ⟨?_, ?_⟩
        · rw [step, hstep, hstate]
          exact h.kept rfl fun k => .inl (hbuffered k)
        · rw [sentTo, hstep, hsent, hread, List.map_singleton, hfields]
          simp
      by_cases hb : n = b.connection
      · subst hb
        have hsession : connection.session = some b := by
          have hsecond := h.second
          rw [standing_of_get hc] at hsecond
          exact (Prod.mk.inj (Option.some.inj hsecond)).1
        obtain ⟨fields, _, hsent, hstate⟩ :=
          handleLine_crosses h.symm hsession (hquiet.second line (hread ▸ List.mem_singleton_self line)) rest
        refine ⟨?_, ?_⟩
        · rw [step, hstep, hstate]
          exact h.kept rfl fun k => .inl (hbuffered k)
        · rw [sentTo, hstep, hsent, lineRead_other ha, List.filter_cons_of_neg (by simpa using h.ne)]
          rfl
      have hsession := h.sessionless htracks hc ha hb
      obtain ⟨hsent, hstate⟩ := handleLine_sessionless (s := s) hsession
        (hquiet.others n ha hb line (hread ▸ List.mem_singleton_self line)) rest
      refine ⟨?_, ?_⟩
      · rw [step, hstep]
        rcases hstate with hkept | hended
        · rw [hkept]
          exact h.kept rfl fun k => .inl (hbuffered k)
        · rw [hended]
          refine h.kept ?_ fun k => ?_
          · rw [State.finish, hsession]
            rfl
          · rw [reader_eq_standing, standing_finish]
            by_cases hk : k = n
            · rw [if_pos hk]
              exact .inr ⟨hk ▸ ha, hk ▸ hb, fun _ hsession => by cases hsession⟩
            · rw [if_neg hk]
              exact .inl (hbuffered k)
      · rw [sentTo, hstep, lineRead_other ha, List.filter_eq_nil_iff.mpr]
        · rfl
        · intro written hwritten
          rw [hsent written hwritten, decide_eq_true_eq]
          exact hb

theorem Paired.relays (h : Paired s a b) {log : List ClientSession} (htracks : Tracks s log)
    (hquiet : Undisturbed loads a b s event) : Relays loads a b s event := by
  cases event with
  | accept => exact h.accepted htracks
  | recv n chunk => exact h.received htracks hquiet
  | line n => exact h.handled htracks hquiet

theorem undisturbed_recv {n : Nat} {chunk : List UInt8} (h : chunk ≠ []) :
    Undisturbed loads a b s (.recv n chunk) := by
  refine ⟨List.forall_mem_nil _, List.forall_mem_nil _, fun _ _ _ => List.forall_mem_nil _, fun k hk => ?_⟩
  cases hk
  exact absurd rfl h

theorem undisturbed_line (hne : a.connection ≠ b.connection) {line : List UInt8}
    (hread : Reading.lineRead s a.connection (.line a.connection) = [line]) (hcrosses : Crosses loads a.role line) :
    Undisturbed loads a b s (.line a.connection) := by
  refine ⟨?_, ?_, fun n ha _ => ?_, fun k hk => by cases hk⟩
  · rw [hread]
    exact List.forall_mem_singleton.mpr hcrosses
  · rw [lineRead_other hne]
    exact List.forall_mem_nil _
  · rw [lineRead_other (Ne.symm ha)]
    exact List.forall_mem_nil _

/-- What a line crosses by is read off its message. -/
theorem crosses_of_read {role : Role} {type : MessageType} {line : List UInt8} (hblank : isBlankLine line = false)
    (hread : (readMessage loads line).toOption.map (fun message => (message.role, message.type)) = some (role, type))
    (htype : type ∈ documentedTypes role) : Crosses loads role line := by
  obtain ⟨message, hmessage, heq⟩ := Option.map_eq_some_iff.mp hread
  obtain ⟨rfl, rfl⟩ := Prod.mk.inj heq
  refine ⟨hblank, message, ?_, rfl, htype⟩
  cases hresult : readMessage loads line with
  | ok other =>
    rw [hresult] at hmessage
    exact congrArg Except.ok (Option.some.inj hmessage)
  | error error =>
    rw [hresult] at hmessage
    cases hmessage

end relaying

end DynvarSync.Broker
