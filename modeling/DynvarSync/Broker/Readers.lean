import DynvarSync.Broker.Registrations
import DynvarSync.Lib.Framing
import DynvarSync.Lib.Run

/-! How a reader cuts the bytes of its connection: line by line, with the incomplete
rest kept, whatever the other connections do. -/
namespace DynvarSync.Broker
open Lib

theorem splitLine_none {buffer : List UInt8} (h : splitLine buffer = none) : 10 ∉ buffer := by
  induction buffer with
  | nil => exact List.not_mem_nil
  | cons b rest ih =>
    rw [splitLine] at h
    split at h
    · cases h
    · rename_i hb
      exact List.not_mem_cons_of_ne_of_not_mem (Ne.symm hb) (ih (Option.map_eq_none_iff.mp h))

theorem splitLine_some {buffer line rest : List UInt8} (h : splitLine buffer = some (line, rest)) :
    10 ∉ line ∧ buffer = line ++ 10 :: rest := by
  induction buffer generalizing line with
  | nil => cases h
  | cons b buffer ih =>
    rw [splitLine] at h
    split at h
    · rename_i hb
      obtain ⟨rfl, rfl⟩ := Prod.mk.inj (Option.some.inj h)
      exact ⟨List.not_mem_nil, by rw [hb, List.nil_append]⟩
    · rename_i hb
      obtain ⟨⟨line', rest'⟩, hsplit, heq⟩ := Option.map_eq_some_iff.mp h
      obtain ⟨rfl, rfl⟩ := Prod.mk.inj heq
      obtain ⟨hline, rfl⟩ := ih hsplit
      exact ⟨List.not_mem_cons_of_ne_of_not_mem (Ne.symm hb) hline, rfl⟩

/-- What a connection has in its buffer while its reader runs. -/
def State.buffer (s : State) (number : Nat) : Option (List UInt8) :=
  (s.connections.get? number).map Connection.buffer

/-- The broker with what one connection's reader has received and which lines it has handled. -/
structure Reading where
  state : State := {}
  received : List UInt8 := []
  handled : List (List UInt8) := []

namespace Reading

def bytesRead (s : State) (number : Nat) : Event → List UInt8
  | .recv n chunk => match s.connections.get? n with
    | some connection =>
      if n = number ∧ splitLine connection.buffer = none ∧ connection.socketOpen = true then chunk else []
    | none => []
  | _ => []

def lineRead (s : State) (number : Nat) : Event → List (List UInt8)
  | .line n => match s.connections.get? n with
    | some connection => if n = number then ((splitLine connection.buffer).map Prod.fst).toList else []
    | none => []
  | _ => []

def step (loads : JsonLoads) (number : Nat) (r : Reading) (event : Event) : Reading :=
  { state := Broker.step loads r.state event
    received := r.received ++ bytesRead r.state number event
    handled := r.handled ++ lineRead r.state number event }

/-- The handled lines are the first of those received; a running reader has the others before it. -/
structure Cuts (number : Nat) (r : Reading) : Prop where
  known : r.state.accepted ≤ number → r.state.buffer number = none ∧ r.received = [] ∧ r.handled = []
  handled : r.handled <+: Framing.lines 10 r.received
  waiting : ∀ buffer, r.state.buffer number = some buffer →
    Framing.lines 10 r.received = r.handled ++ Framing.lines 10 buffer ∧
      Framing.tail 10 r.received = Framing.tail 10 buffer

end Reading

section buffers
variable {loads : JsonLoads} {s : State} {number : Nat} {connection : Connection}

theorem buffer_putConnection (n : Nat) :
    (s.putConnection number connection).buffer n = if n = number then some connection.buffer else s.buffer n := by
  rw [State.buffer, State.putConnection, Dict.get?_set, State.buffer]
  split <;> rfl

theorem buffer_finish (n : Nat) :
    (s.finish number connection).buffer n = if n = number then none else s.buffer n := by
  rw [State.buffer, State.finish, Dict.get?_pop, State.buffer]
  split <;> rfl

theorem buffer_register (session : ClientSession) (n : Nat) : (s.register session).buffer n = s.buffer n := by
  rw [State.buffer, register_connections, Option.map_map, State.buffer]
  rfl

/-- A message is handled without touching what any connection has buffered. -/
theorem buffer_handleMessage (hc : s.buffer number = some connection.buffer) (message : Message) (n : Nat) :
    (s.handleMessage number connection message).state.buffer n = s.buffer n := by
  unfold State.handleMessage
  cases connection.session with
  | some session =>
    dsimp only
    split
    · rfl
    · split
      · rfl
      · rw [routeMessage_state]
  | none =>
    dsimp only
    split
    · rfl
    · split
      · rfl
      · dsimp only
        rw [buffer_putConnection, buffer_register]
        split
        · rename_i hn
          rw [hn, hc]
        · rfl

/-- Handling a line leaves its reader the rest, or ends it. -/
theorem buffer_handleLine (loads : JsonLoads) (s : State) (number : Nat) (connection : Connection)
    (line rest : List UInt8) (n : Nat) :
    (s.handleLine loads number connection line rest).state.buffer n = s.buffer n ∧ n ≠ number ∨
      n = number ∧ ((s.handleLine loads number connection line rest).state.buffer n = some rest ∨
        (s.handleLine loads number connection line rest).state.buffer n = none) := by
  have hput : (s.putConnection number { connection with buffer := rest }).buffer number = some rest := by
    rw [buffer_putConnection, if_pos rfl]
  rw [State.handleLine]
  by_cases hn : n = number
  · subst hn
    refine .inr ⟨rfl, ?_⟩
    split
    · exact .inl hput
    split
    · rw [buffer_handleMessage hput]
      exact .inl hput
    · exact .inl hput
    · rw [buffer_finish, if_pos rfl]
      exact .inr rfl
  · have hother : (s.putConnection number { connection with buffer := rest }).buffer n = s.buffer n := by
      rw [buffer_putConnection, if_neg hn]
    refine .inl ⟨?_, hn⟩
    split
    · exact hother
    split
    · rw [buffer_handleMessage hput]
      exact hother
    · exact hother
    · rw [buffer_finish, if_neg hn]
      exact hother

theorem accepted_step (loads : JsonLoads) (s : State) (event : Event) :
    s.accepted ≤ (step loads s event).accepted := by
  have hregisters := step_registers loads s event
  generalize registeredBy loads s event = session at hregisters
  cases hregisters with
  | stay _ _ haccepted => exact le_of_eq haccepted.symm
  | accept _ _ haccepted => exact haccepted ▸ Nat.le_succ _
  | cleanup _ _ _ _ _ haccepted => exact le_of_eq haccepted.symm
  | register _ _ _ _ _ haccepted => exact le_of_eq haccepted.symm

end buffers

namespace Reading
variable {loads : JsonLoads} {number : Nat} {r : Reading}

/-- Where the reader takes and handles nothing, it is as it was or has ended. -/
theorem Cuts.kept (h : r.Cuts number) {event : Event} (hbytes : bytesRead r.state number event = [])
    (hline : lineRead r.state number event = [])
    (hbuffer : (Broker.step loads r.state event).buffer number = r.state.buffer number ∨
      (Broker.step loads r.state event).buffer number = none) : Cuts number (r.step loads number event) := by
  rw [step, hbytes, hline, List.append_nil, List.append_nil]
  refine ⟨fun hle => ?_, h.handled, fun buffer hb => ?_⟩
  · obtain ⟨hnone, hreceived, hhandled⟩ := h.known ((accepted_step loads r.state event).trans hle)
    refine ⟨?_, hreceived, hhandled⟩
    rcases hbuffer with hkept | hended
    · exact hkept.trans hnone
    · exact hended
  · rcases hbuffer with hkept | hended
    · exact h.waiting buffer (hkept ▸ hb)
    · rw [hended] at hb
      cases hb

theorem step_cuts (event : Event) (h : r.Cuts number) : (r.step loads number event).Cuts number := by
  cases event with
  | accept =>
    by_cases hnew : number = r.state.accepted
    · obtain ⟨_, hreceived, hhandled⟩ := h.known (le_of_eq hnew.symm)
      have hbuffer : (Broker.step loads r.state .accept).buffer number = some [] := by
        rw [Broker.step, stepOut]
        change (r.state.putConnection r.state.accepted {}).buffer number = some []
        rw [buffer_putConnection, if_pos hnew]
      have hsame : r.step loads number .accept =
          { state := Broker.step loads r.state .accept, received := [], handled := [] } := by
        rw [step, hreceived, hhandled]
        rfl
      rw [hsame]
      refine ⟨fun hle => ?_, List.nil_prefix, fun buffer hb => ?_⟩
      · change r.state.accepted + 1 ≤ number at hle
        omega
      · rw [hbuffer] at hb
        cases hb
        exact ⟨rfl, rfl⟩
    · refine h.kept rfl rfl (.inl ?_)
      rw [Broker.step, stepOut]
      change (r.state.putConnection r.state.accepted {}).buffer number = _
      rw [buffer_putConnection, if_neg hnew]
  | recv n chunk =>
    cases hc : r.state.connections.get? n with
    | none =>
      refine h.kept ?_ rfl (.inl ?_)
      · rw [bytesRead, hc]
      · rw [Broker.step, stepOut, hc]
    | some connection =>
      by_cases hwaits : n = number ∧ splitLine connection.buffer = none ∧ connection.socketOpen = true
      · obtain ⟨rfl, hnone, hopen⟩ := hwaits
        have hread : bytesRead r.state n (.recv n chunk) = chunk := by
          rw [bytesRead, hc]
          exact if_pos ⟨rfl, hnone, hopen⟩
        have hbefore : r.state.buffer n = some connection.buffer := by rw [State.buffer, hc, Option.map_some]
        by_cases hempty : chunk = []
        · refine h.kept (hread.trans hempty) rfl (.inr ?_)
          rw [Broker.step, stepOut, hc]
          dsimp only
          rw [hnone, Option.isSome_none, if_neg Bool.false_ne_true, if_pos (.inl hempty), buffer_finish, if_pos rfl]
        · have hstep : Broker.step loads r.state (.recv n chunk) =
              r.state.putConnection n { connection with buffer := connection.buffer ++ chunk } := by
            rw [Broker.step, stepOut, hc]
            dsimp only
            rw [hnone, Option.isSome_none, if_neg Bool.false_ne_true, if_neg (by simp [hempty, hopen])]
          obtain ⟨hlines, htail⟩ := h.waiting connection.buffer hbefore
          obtain ⟨hmore, hleft⟩ := Framing.lines_append 10 r.received chunk
          obtain ⟨hmore', hleft'⟩ := Framing.lines_append 10 connection.buffer chunk
          have hsame : r.step loads n (.recv n chunk) =
              { state := r.state.putConnection n { connection with buffer := connection.buffer ++ chunk }
                received := r.received ++ chunk, handled := r.handled } := by
            rw [step, hread, hstep]
            exact congrArg _ (List.append_nil _)
          rw [hsame]
          refine ⟨fun hle => ?_, ?_, fun buffer hb => ?_⟩
          · obtain ⟨hgone, _⟩ := h.known hle
            rw [hbefore] at hgone
            cases hgone
          · exact h.handled.trans (Framing.lines_prefix (List.prefix_append _ _))
          · dsimp only at hb ⊢
            rw [buffer_putConnection, if_pos rfl] at hb
            cases hb
            rw [hmore, hleft, hmore', hleft', hlines, htail, List.append_assoc]
            exact ⟨rfl, rfl⟩
      · have hread : bytesRead r.state number (.recv n chunk) = [] := by
          rw [bytesRead, hc]
          exact if_neg hwaits
        refine h.kept hread rfl ?_
        rw [Broker.step, stepOut, hc]
        dsimp only
        split
        · exact .inl rfl
        · rename_i hnoline
          have hnone : splitLine connection.buffer = none := by simpa using hnoline
          split
          · rw [buffer_finish]
            split
            · exact .inr rfl
            · exact .inl rfl
          · rename_i hgoing
            rw [not_or, Bool.not_eq_false] at hgoing
            have hne : number ≠ n := fun heq => hwaits ⟨heq.symm, hnone, hgoing.2⟩
            rw [buffer_putConnection, if_neg hne]
            exact .inl rfl
  | line n =>
    cases hc : r.state.connections.get? n with
    | none =>
      refine h.kept rfl ?_ (.inl ?_)
      · rw [lineRead, hc]
      · rw [Broker.step, stepOut, hc]
    | some connection =>
      cases hsplit : splitLine connection.buffer with
      | none =>
        refine h.kept rfl ?_ (.inl ?_)
        · rw [lineRead, hc]
          dsimp only
          rw [hsplit]
          exact ite_self _
        · rw [Broker.step, stepOut, hc]
          dsimp only
          rw [hsplit]
      | some split =>
        obtain ⟨line, rest⟩ := split
        have hstep : Broker.step loads r.state (.line n) = (r.state.handleLine loads n connection line rest).state := by
          rw [Broker.step, stepOut, hc]
          dsimp only
          rw [hsplit]
        by_cases hn : number = n
        · subst hn
          have hbefore : r.state.buffer number = some connection.buffer := by rw [State.buffer, hc, Option.map_some]
          obtain ⟨hline, hbytes⟩ := splitLine_some hsplit
          obtain ⟨hlines, htail⟩ := h.waiting connection.buffer hbefore
          obtain ⟨hfirst, hkept⟩ := Framing.lines_cons hline rest
          rw [hbytes, hfirst] at hlines
          rw [hbytes, hkept] at htail
          have hread : lineRead r.state number (.line number) = [line] := by
            rw [lineRead, hc]
            dsimp only
            rw [if_pos rfl, hsplit]
            rfl
          have hsame : r.step loads number (.line number) =
              { state := (r.state.handleLine loads number connection line rest).state
                received := r.received, handled := r.handled ++ [line] } := by
            rw [step, hread, hstep]
            exact congrArg (fun received => Reading.mk _ received _) (List.append_nil _)
          rw [hsame]
          refine ⟨fun hle => ?_, ?_, fun buffer hb => ?_⟩
          · have hgone := (h.known ((accepted_step loads r.state (.line number)).trans (hstep ▸ hle))).1
            rw [hbefore] at hgone
            cases hgone
          · rw [hlines]
            exact ⟨Framing.lines 10 rest, by rw [List.append_assoc, List.singleton_append]⟩
          · rcases buffer_handleLine loads r.state number connection line rest number with
              ⟨_, hne⟩ | ⟨_, hrest | hended⟩
            · exact absurd rfl hne
            · dsimp only at hb ⊢
              rw [hrest] at hb
              cases hb
              rw [hlines, htail, List.append_assoc, List.singleton_append]
              exact ⟨rfl, rfl⟩
            · dsimp only at hb
              rw [hended] at hb
              cases hb
        · have hread : lineRead r.state number (.line n) = [] := by
            rw [lineRead, hc]
            exact if_neg (Ne.symm hn)
          refine h.kept rfl hread ?_
          rw [hstep]
          rcases buffer_handleLine loads r.state n connection line rest number with ⟨hkept, _⟩ | ⟨heq, _⟩
          · exact .inl hkept
          · exact absurd heq hn

theorem run_cuts (loads : JsonLoads) (number : Nat) (events : List Event) :
    Cuts number (events.foldl (step loads number) {}) := by
  have hstart : Cuts number {} := ⟨fun _ => ⟨rfl, rfl, rfl⟩, List.prefix_rfl, nofun⟩
  exact Run.invariant (step loads number) (fun _ event h => step_cuts event h) hstart events _
    (Run.foldl_mem_states _ _ events)

/-- Whatever the other connections do, and however the bytes of a connection are cut into chunks, its reader handles
its complete lines one by one from the first on, and what is left is the bytes of the lines to come. -/
theorem reader_handles_lines (loads : JsonLoads) (number : Nat) (events : List Event) :
    let r := events.foldl (step loads number) {}
    r.handled <+: Framing.lines 10 r.received ∧
      ∀ connection, r.state.connections.get? number = some connection →
        Framing.lines 10 r.received = r.handled ++ Framing.lines 10 connection.buffer ∧
          Framing.tail 10 r.received = Framing.tail 10 connection.buffer := by
  intro r
  have hcuts : r.Cuts number := run_cuts loads number events
  exact ⟨hcuts.handled, fun connection hc => hcuts.waiting _ (by rw [State.buffer, hc, Option.map_some])⟩

end Reading

end DynvarSync.Broker
