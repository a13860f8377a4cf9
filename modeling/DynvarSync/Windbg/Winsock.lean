import DynvarSync.Windbg.SocketClient

/-! The extension's one socket over the Winsock resources it takes: connecting,
disconnecting, and sending whole lines in as many pieces as Winsock wants. -/
namespace DynvarSync.Windbg
open Lib

/-- What becomes of one address of `getaddrinfo`. -/
inductive Candidate where
  | noSocket | refused | connected
  deriving DecidableEq

/-- What Winsock answers to one connection attempt: `WSAStartup` and `getaddrinfo` may fail with a code. -/
structure ConnectAnswers where
  startup : Option Int := none
  addresses : Except Int (List Candidate)

/-- What one call of `send` answers. -/
inductive SendAnswer where
  | sent (count : Nat)
  | failed (code : Int)
  deriving DecidableEq

/-- What the process holds of Winsock, and the bytes written to each socket. -/
structure Winsock where
  startups : Nat := 0
  addressLists : Nat := 0
  openSockets : List Nat := []
  nextSocket : Nat := 0
  written : List (Nat × List UInt8) := []

/-- The static variables of the socket client. -/
structure SocketState where
  os : Winsock := {}
  socket : Option Nat := none
  wsaStarted : Bool := false
  recvBuffer : List UInt8 := []

namespace SocketState

/-- `DvsSocketDisconnect`. -/
def disconnect (s : SocketState) : SocketState :=
  let s := match s.socket with
    | some socket =>
      { s with os := { s.os with openSockets := s.os.openSockets.erase socket }, socket := none }
    | none => s
  let s := if s.wsaStarted then
      { s with os := { s.os with startups := s.os.startups - 1 }, wsaStarted := false }
    else s
  { s with recvBuffer := [] }

/-- The addresses are tried in turn until one connects. -/
def tryAddresses (s : SocketState) : List Candidate → SocketState
  | [] => s
  | .noSocket :: rest => s.tryAddresses rest
  | .refused :: rest =>
    tryAddresses { s with os := { s.os with
      openSockets := (s.os.nextSocket :: s.os.openSockets).erase s.os.nextSocket
      nextSocket := s.os.nextSocket + 1 } } rest
  | .connected :: _ =>
    { s with
      os := { s.os with
        openSockets := s.os.nextSocket :: s.os.openSockets
        nextSocket := s.os.nextSocket + 1 }
      socket := some s.os.nextSocket }

/-- `DvsSocketConnect`, and whether it returns OK. -/
def connect (s : SocketState) (answers : ConnectAnswers) : SocketState × Bool :=
  let s := if s.socket.isSome then s.disconnect else s
  match answers.startup with
  | some _ => (s, false)
  | none =>
    let s := { s with os := { s.os with startups := s.os.startups + 1 }, wsaStarted := true }
    match answers.addresses with
    | .error _ => (s.disconnect, false)
    | .ok candidates =>
      let s := { s with os := { s.os with addressLists := s.os.addressLists + 1 } }.tryAddresses candidates
      let s := { s with os := { s.os with addressLists := s.os.addressLists - 1 } }
      if s.socket.isNone then (s.disconnect, false) else (s, true)

/-- The loop of `DvsSocketSendAll`, with what is left to send: the bytes written and whether all were. -/
def sendLoop (answers : Nat → SendAnswer) : Nat → Nat → List UInt8 → List UInt8 × Bool
  | _, _, [] => ([], true)
  | 0, _, _ :: _ => ([], false)
  | budget + 1, turn, b :: rest => match answers turn with
    | .failed _ => ([], false)
    | .sent 0 => ([], false)
    | .sent (count + 1) =>
      let (more, whole) := sendLoop answers budget (turn + 1) ((b :: rest).drop (count + 1))
      ((b :: rest).take (count + 1) ++ more, whole)

/-- `DvsSocketSendAll`, with the answers to its calls of `send` and whether it returns OK. -/
def sendAll (s : SocketState) (answers : Nat → SendAnswer) (data : List UInt8) : SocketState × Bool :=
  match s.socket with
  | none => (s, false)
  | some socket =>
    let (bytes, whole) := sendLoop answers data.length 0 data
    let s := { s with os := { s.os with written := s.os.written ++ [(socket, bytes)] } }
    if whole then (s, true) else (s.disconnect, false)

/-- `DvsSocketReceiveLine`. -/
def receiveLine (s : SocketState) (lineSize : Nat) (wait : Wait) : SocketState × Outcome :=
  let client : SocketClient := { connected := s.socket.isSome, buffer := s.recvBuffer }
  let (client, outcome) := client.receiveLine lineSize wait
  if client.connected then ({ s with recvBuffer := client.buffer }, outcome)
  else if s.socket.isSome then (s.disconnect, outcome)
  else (s, outcome)

end SocketState

/-- A call into the socket client with what Winsock answers. -/
inductive SocketCall where
  | connect (answers : ConnectAnswers)
  | sendAll (answers : Nat → SendAnswer) (data : List UInt8)
  | receiveLine (lineSize : Nat) (wait : Wait)
  | disconnect

/-- The calls made so far: the data of the sends that returned OK, that of those that failed on an open socket,
and the bytes received, each with its socket. -/
structure SocketRun where
  state : SocketState := {}
  sent : List (Nat × List UInt8) := []
  failed : List (Nat × List UInt8) := []
  received : List (Nat × List UInt8) := []

/-- What went over one socket. -/
def bytesOf (socket : Nat) (log : List (Nat × List UInt8)) : List UInt8 :=
  (log.filter fun entry => entry.1 = socket).flatMap Prod.snd

namespace SocketRun

/-- The bytes a call takes from the socket. -/
def taken (s : SocketState) (lineSize : Nat) (wait : Wait) : List UInt8 :=
  if lineSize = 0 then [] else Calls.taken { buffer := s.recvBuffer } wait

def step (r : SocketRun) : SocketCall → SocketRun
  | .connect answers => { r with state := (r.state.connect answers).1 }
  | .sendAll answers data =>
    let (state, whole) := r.state.sendAll answers data
    let entry := (r.state.socket.map fun socket => (socket, data)).toList
    { r with
      state := state
      sent := if whole then r.sent ++ entry else r.sent
      failed := if whole then r.failed else r.failed ++ entry }
  | .receiveLine lineSize wait =>
    { r with
      state := (r.state.receiveLine lineSize wait).1
      received := r.received ++
        (r.state.socket.map fun socket => (socket, taken r.state lineSize wait)).toList }
  | .disconnect => { r with state := r.state.disconnect }

end SocketRun

namespace SocketState

/-- What a run of calls leaves held between two of them. -/
structure Balanced (s : SocketState) : Prop where
  sockets : s.os.openSockets = s.socket.toList
  startups : s.os.startups = if s.wsaStarted then 1 else 0
  started : s.wsaStarted = s.socket.isSome
  addressLists : s.os.addressLists = 0
  buffer : s.socket = none → s.recvBuffer = []
  fresh : ∀ n ∈ s.socket, n < s.os.nextSocket

/-- Nothing is held, as after `DvsSocketDisconnect`. -/
structure Released (s : SocketState) : Prop where
  sockets : s.os.openSockets = []
  startups : s.os.startups = 0
  addressLists : s.os.addressLists = 0
  socket : s.socket = none
  wsaStarted : s.wsaStarted = false
  buffer : s.recvBuffer = []

theorem Released.balanced {s : SocketState} (h : s.Released) : s.Balanced where
  sockets := by rw [h.sockets, h.socket]; rfl
  startups := by rw [h.startups, h.wsaStarted]; rfl
  started := by rw [h.wsaStarted, h.socket]; rfl
  addressLists := h.addressLists
  buffer _ := h.buffer
  fresh n hn := by
    rw [h.socket] at hn
    cases hn

@[simp] theorem disconnect_socket (s : SocketState) : s.disconnect.socket = none := by
  rw [disconnect]
  cases hsocket : s.socket <;> cases hstarted : s.wsaStarted <;> simp [hsocket]

@[simp] theorem disconnect_wsaStarted (s : SocketState) : s.disconnect.wsaStarted = false := by
  rw [disconnect]
  cases hsocket : s.socket <;> cases hstarted : s.wsaStarted <;> simp [hstarted]

@[simp] theorem disconnect_recvBuffer (s : SocketState) : s.disconnect.recvBuffer = [] := rfl

@[simp] theorem disconnect_addressLists (s : SocketState) : s.disconnect.os.addressLists = s.os.addressLists := by
  rw [disconnect]
  cases s.socket <;> cases s.wsaStarted <;> rfl

@[simp] theorem disconnect_nextSocket (s : SocketState) : s.disconnect.os.nextSocket = s.os.nextSocket := by
  rw [disconnect]
  cases s.socket <;> cases s.wsaStarted <;> rfl

@[simp] theorem disconnect_written (s : SocketState) : s.disconnect.os.written = s.os.written := by
  rw [disconnect]
  cases s.socket <;> cases s.wsaStarted <;> rfl

theorem disconnect_openSockets (s : SocketState) :
    s.disconnect.os.openSockets = s.socket.elim s.os.openSockets s.os.openSockets.erase := by
  rw [disconnect]
  cases s.socket <;> cases s.wsaStarted <;> rfl

theorem disconnect_startups (s : SocketState) :
    s.disconnect.os.startups = if s.wsaStarted then s.os.startups - 1 else s.os.startups := by
  rw [disconnect]
  cases s.socket <;> cases s.wsaStarted <;> rfl

/-- One startup and one socket at most are given back, whether or not they were taken. -/
theorem released_disconnect {s : SocketState} (hsockets : s.os.openSockets = s.socket.toList)
    (hstartups : s.os.startups = if s.wsaStarted then 1 else 0) (hlists : s.os.addressLists = 0) :
    s.disconnect.Released where
  sockets := by
    rw [disconnect_openSockets, hsockets]
    cases s.socket with
    | none => rfl
    | some n => simp
  startups := by
    rw [disconnect_startups, hstartups]
    cases s.wsaStarted <;> rfl
  addressLists := by rw [disconnect_addressLists, hlists]
  socket := disconnect_socket s
  wsaStarted := disconnect_wsaStarted s
  buffer := rfl

theorem Balanced.released_disconnect {s : SocketState} (h : s.Balanced) : s.disconnect.Released :=
  SocketState.released_disconnect h.sockets h.startups h.addressLists

/-- The addresses leave no socket open but a connected one, which is new. -/
theorem tryAddresses_spec (candidates : List Candidate) {s : SocketState} (hsocket : s.socket = none)
    (hopen : s.os.openSockets = []) :
    let t := s.tryAddresses candidates
    t.os.openSockets = t.socket.toList ∧ t.os.startups = s.os.startups ∧ t.wsaStarted = s.wsaStarted ∧
      t.os.addressLists = s.os.addressLists ∧ t.recvBuffer = s.recvBuffer ∧ t.os.written = s.os.written ∧
      s.os.nextSocket ≤ t.os.nextSocket ∧ ∀ n ∈ t.socket, s.os.nextSocket ≤ n ∧ n < t.os.nextSocket := by
  induction candidates generalizing s with
  | nil =>
    refine ⟨?_, rfl, rfl, rfl, rfl, rfl, Nat.le_refl _, ?_⟩
    · rw [tryAddresses, hsocket, hopen]
      rfl
    · intro n hn
      rw [tryAddresses, hsocket] at hn
      cases hn
  | cons candidate rest ih =>
    cases candidate with
    | noSocket => exact ih hsocket hopen
    | refused =>
      rw [tryAddresses]
      set next : SocketState := { s with os := { s.os with
        openSockets := (s.os.nextSocket :: s.os.openSockets).erase s.os.nextSocket
        nextSocket := s.os.nextSocket + 1 } } with hnext
      have hnone : next.os.openSockets = [] := by
        rw [hnext]
        dsimp only
        rw [List.erase_cons_head, hopen]
      obtain ⟨h1, h2, h3, h4, h5, h6, h7, h8⟩ := ih (s := next) hsocket hnone
      refine ⟨h1, h2, h3, h4, h5, h6, Nat.le_of_succ_le h7, ?_⟩
      intro n hn
      exact ⟨Nat.le_of_succ_le (h8 n hn).1, (h8 n hn).2⟩
    | connected =>
      rw [tryAddresses]
      refine ⟨?_, rfl, rfl, rfl, rfl, rfl, Nat.le_succ _, ?_⟩
      · rw [hopen]
        rfl
      · intro n hn
        cases hn
        exact ⟨Nat.le_refl _, Nat.lt_succ_self _⟩

/-- A connection attempt ends with nothing held, or with a new socket that has no bytes yet. -/
theorem connect_spec {s : SocketState} (h : s.Balanced) (answers : ConnectAnswers) :
    let t := (s.connect answers).1
    t.Balanced ∧ t.os.written = s.os.written ∧ s.os.nextSocket ≤ t.os.nextSocket ∧ t.recvBuffer = [] ∧
      ∀ n ∈ t.socket, s.os.nextSocket ≤ n := by
  have hstart : ∃ u : SocketState, (if s.socket.isSome then s.disconnect else s) = u ∧ u.Released ∧
      u.os.written = s.os.written ∧ u.os.nextSocket = s.os.nextSocket := by
    refine ⟨_, rfl, ?_⟩
    cases hsocket : s.socket with
    | none =>
      have hstarted : s.wsaStarted = false := by rw [h.started, hsocket]; rfl
      rw [if_neg (by decide)]
      refine ⟨⟨?_, ?_, h.addressLists, hsocket, hstarted, h.buffer hsocket⟩, rfl, rfl⟩
      · rw [h.sockets, hsocket]
        rfl
      · rw [h.startups, hstarted]
        rfl
    | some n =>
      rw [if_pos Option.isSome_some]
      exact ⟨h.released_disconnect, disconnect_written s, disconnect_nextSocket s⟩
  obtain ⟨u, hu, hreleased, hwritten, hnext⟩ := hstart
  rw [connect, hu]
  cases answers.startup with
  | some code =>
    refine ⟨hreleased.balanced, hwritten, Nat.le_of_eq hnext.symm, hreleased.buffer, ?_⟩
    intro n hn
    rw [show u.socket = none from hreleased.socket] at hn
    cases hn
  | none =>
    dsimp only
    set v : SocketState := { u with os := { u.os with startups := u.os.startups + 1 }, wsaStarted := true } with hv
    have hsocket : v.socket = none := hreleased.socket
    have hopen : v.os.openSockets = [] := hreleased.sockets
    have hstartups : v.os.startups = 1 := by
      rw [hv]
      dsimp only
      rw [hreleased.startups]
    have hlists : v.os.addressLists = 0 := hreleased.addressLists
    have hclosed : ∀ w : SocketState, w.os.openSockets = w.socket.toList → w.os.startups = 1 → w.wsaStarted = true →
        w.os.addressLists = 0 → w.os.written = s.os.written → s.os.nextSocket ≤ w.os.nextSocket →
        w.disconnect.Balanced ∧ w.disconnect.os.written = s.os.written ∧
          s.os.nextSocket ≤ w.disconnect.os.nextSocket ∧ w.disconnect.recvBuffer = [] ∧
          ∀ n ∈ w.disconnect.socket, s.os.nextSocket ≤ n := by
      intro w h1 h2 h3 h4 h5 h6
      refine ⟨(SocketState.released_disconnect h1 (by rw [h2, h3]; rfl) h4).balanced, ?_, ?_, rfl, ?_⟩
      · rw [disconnect_written, h5]
      · rw [disconnect_nextSocket]
        exact h6
      · intro n hn
        rw [disconnect_socket] at hn
        cases hn
    cases answers.addresses with
    | error code =>
      exact hclosed v (by rw [hopen, hsocket]; rfl) hstartups rfl hlists hwritten (Nat.le_of_eq hnext.symm)
    | ok candidates =>
      dsimp only
      obtain ⟨h1, h2, h3, h4, h5, h6, h7, h8⟩ := tryAddresses_spec candidates
        (s := { v with os := { v.os with addressLists := v.os.addressLists + 1 } }) hsocket hopen
      set w := tryAddresses { v with os := { v.os with addressLists := v.os.addressLists + 1 } } candidates
      have hfreed : w.os.addressLists - 1 = 0 := by
        rw [h4]
        exact hlists
      have hgrown : s.os.nextSocket ≤ w.os.nextSocket := Nat.le_trans (Nat.le_of_eq hnext.symm) h7
      rcases Option.eq_none_or_eq_some w.socket with hw | ⟨n, hw⟩
      · have hnone : w.socket.isNone = true := by rw [hw]; rfl
        rw [if_pos hnone]
        exact hclosed { w with os := { w.os with addressLists := w.os.addressLists - 1 } } h1 (h2.trans hstartups) h3
          hfreed (h6.trans hwritten) hgrown
      · have hsome : ¬ w.socket.isNone = true := by rw [hw]; exact Bool.false_ne_true
        rw [if_neg hsome]
        refine ⟨⟨h1, ?_, ?_, hfreed, ?_, fun m hm => (h8 m hm).2⟩, h6.trans hwritten, hgrown, ?_, ?_⟩
        · dsimp only
          rw [h2, hstartups, h3]
          rfl
        · dsimp only
          rw [h3, hw]
          rfl
        · intro hnone
          exact absurd (hw.symm.trans hnone) (Option.some_ne_none n)
        · exact h5.trans hreleased.buffer
        · intro m hm
          exact Nat.le_trans (Nat.le_of_eq hnext.symm) (h8 m hm).1

/-- The loop writes a prefix of the data, and reports the whole of it exactly when it wrote the whole. -/
theorem sendLoop_spec (answers : Nat → SendAnswer) (budget turn : Nat) (data : List UInt8) :
    let out := sendLoop answers budget turn data
    out.1 <+: data ∧ (out.2 = true ↔ out.1 = data) := by
  induction budget generalizing turn data with
  | zero =>
    cases data with
    | nil => exact ⟨List.nil_prefix, iff_of_true rfl rfl⟩
    | cons b rest => exact ⟨List.nil_prefix, iff_of_false Bool.false_ne_true (List.cons_ne_nil b rest).symm⟩
  | succ budget ih =>
    cases data with
    | nil => exact ⟨List.nil_prefix, iff_of_true rfl rfl⟩
    | cons b rest =>
      have hstop : ([] : List UInt8) <+: b :: rest ∧ (false = true ↔ [] = b :: rest) :=
        ⟨List.nil_prefix, iff_of_false Bool.false_ne_true (List.cons_ne_nil b rest).symm⟩
      rw [sendLoop]
      cases answers turn with
      | failed code => exact hstop
      | sent count =>
        cases count with
        | zero => exact hstop
        | succ count =>
          obtain ⟨hpre, hwhole⟩ := ih (turn + 1) ((b :: rest).drop (count + 1))
          dsimp only
          have hsplit := List.take_append_drop (count + 1) (b :: rest)
          constructor
          · have hcut := (List.prefix_append_right_inj ((b :: rest).take (count + 1))).mpr hpre
            rwa [hsplit] at hcut
          · rw [hwhole]
            constructor
            · intro h
              rw [h, hsplit]
            · intro h
              exact List.append_cancel_left (h.trans hsplit.symm)

/-- Every accepted piece has a byte, so as many turns as there are bytes are enough. -/
theorem sendLoop_budget (answers : Nat → SendAnswer) {budget : Nat} (turn : Nat) {data : List UInt8}
    (h : data.length ≤ budget) : sendLoop answers (budget + 1) turn data = sendLoop answers budget turn data := by
  induction budget generalizing turn data with
  | zero =>
    rw [List.eq_nil_of_length_eq_zero (Nat.le_zero.mp h)]
    rfl
  | succ budget ih =>
    cases data with
    | nil => rfl
    | cons b rest =>
      rw [sendLoop, sendLoop.eq_def _ (budget + 1)]
      dsimp only
      cases answers turn with
      | failed code => rfl
      | sent count =>
        cases count with
        | zero => rfl
        | succ count =>
          have hrest : ((b :: rest).drop (count + 1)).length ≤ budget := by
            rw [List.length_drop]
            omega
          dsimp only
          rw [ih (turn + 1) hrest]

/-- A send writes a prefix of its data to the open socket, the whole of it exactly when it returns OK, and keeps the
connection then only. -/
theorem sendAll_spec (s : SocketState) (answers : Nat → SendAnswer) (data : List UInt8) :
    (s.socket = none ∧ s.sendAll answers data = (s, false)) ∨
    ∃ n bytes whole, s.socket = some n ∧ bytes <+: data ∧ (whole = true ↔ bytes = data) ∧
      let t : SocketState := { s with os := { s.os with written := s.os.written ++ [(n, bytes)] } }
      s.sendAll answers data = (if whole then t else t.disconnect, whole) := by
  rw [sendAll]
  cases hsocket : s.socket with
  | none => exact .inl ⟨rfl, rfl⟩
  | some n =>
    obtain ⟨hpre, hwhole⟩ := sendLoop_spec answers data.length 0 data
    refine .inr ⟨n, (sendLoop answers data.length 0 data).1, (sendLoop answers data.length 0 data).2, rfl, hpre,
      hwhole, ?_⟩
    dsimp only
    cases (sendLoop answers data.length 0 data).2 <;> rfl

end SocketState

namespace SocketClient

theorem tryPopLine_buffer (s : SocketClient) (lineSize : Nat) :
    (s.tryPopLine lineSize).1.connected = s.connected ∧ (s.tryPopLine lineSize).1.buffer <:+ s.buffer := by
  rw [tryPopLine]
  split
  · exact ⟨rfl, List.suffix_rfl⟩
  · split
    · exact ⟨rfl, List.nil_suffix⟩
    · exact ⟨rfl, List.drop_suffix _ _⟩

theorem tryPopLine_ne_timeout {s : SocketClient} (h : 10 ∈ s.buffer) (lineSize : Nat) :
    (s.tryPopLine lineSize).2 ≠ .timeout := by
  rcases Framing.first_line 10 s.buffer with hno | ⟨body, rest, hbody, hbuffer⟩
  · exact absurd h hno
  · have hlength : body.length ≠ (body ++ 10 :: rest).length := by
      rw [List.length_append, List.length_cons]
      omega
    simp only [tryPopLine, hbuffer, takeWhile_line hbody, if_neg hlength]
    split
    · intro h
      cases h
    · intro h
      cases h

/-- A receive disconnects, or keeps an end of what the buffer held and the call took. -/
theorem receiveLine_buffer {s : SocketClient} (hconnected : s.connected = true) (lineSize : Nat) (wait : Wait) :
    (s.receiveLine lineSize wait).1 = disconnect ∨ (s.receiveLine lineSize wait).1.connected = true ∧
      (s.receiveLine lineSize wait).1.buffer <:+ s.buffer ++ if lineSize = 0 then [] else Calls.taken s wait := by
  rw [receiveLine.eq_def, hconnected, if_neg (by decide)]
  by_cases hsize : lineSize = 0
  · rw [if_pos hsize, if_pos hsize, List.append_nil]
    exact .inr ⟨hconnected, List.suffix_rfl⟩
  · rw [if_neg hsize, if_neg hsize]
    by_cases hline : 10 ∈ s.buffer
    · rw [Calls.taken_of_line hline, List.append_nil]
      obtain ⟨hkept, hsuffix⟩ := s.tryPopLine_buffer lineSize
      split
      · rename_i heq
        exact absurd (congrArg Prod.snd heq) (tryPopLine_ne_timeout hline lineSize)
      · exact .inr ⟨hkept.trans hconnected, hsuffix⟩
    · rw [tryPopLine_none hline]
      cases wait with
      | timedOut => exact .inr ⟨hconnected, ⟨[], (List.append_nil s.buffer).symm⟩⟩
      | failed code => exact .inl rfl
      | readable received =>
        dsimp only
        by_cases hfull : recvBufferSize ≤ s.buffer.length
        · rw [if_pos hfull]
          exact .inr ⟨rfl, List.nil_suffix⟩
        · rw [if_neg hfull]
          cases received with
          | closed => exact .inl rfl
          | failed code => exact .inl rfl
          | bytes chunk =>
            have htaken : Calls.taken s (.readable (.bytes chunk)) = chunk := if_neg (not_or.mpr ⟨hline, hfull⟩)
            rw [receiveBytes, htaken]
            obtain ⟨hkept, hsuffix⟩ := tryPopLine_buffer { s with buffer := s.buffer ++ chunk } lineSize
            exact .inr ⟨hkept.trans hconnected, hsuffix⟩

end SocketClient

namespace SocketState

/-- A receive does nothing without a socket; with one it disconnects, or keeps an end of the buffer and what it took. -/
theorem receiveLine_spec (s : SocketState) (lineSize : Nat) (wait : Wait) :
    (s.socket = none ∧ (s.receiveLine lineSize wait).1 = s) ∨
    ∃ n, s.socket = some n ∧ ((s.receiveLine lineSize wait).1 = s.disconnect ∨
      ∃ buffer, (s.receiveLine lineSize wait).1 = { s with recvBuffer := buffer } ∧
        buffer <:+ s.recvBuffer ++ SocketRun.taken s lineSize wait) := by
  rw [receiveLine]
  rcases Option.eq_none_or_eq_some s.socket with hsocket | ⟨n, hsocket⟩
  · refine .inl ⟨hsocket, ?_⟩
    rw [hsocket]
    rfl
  · refine .inr ⟨n, hsocket, ?_⟩
    have hopen : s.socket.isSome = true := by rw [hsocket]; rfl
    dsimp only
    rw [hopen]
    obtain hlost | ⟨hkept, hbuffer⟩ :=
      SocketClient.receiveLine_buffer (s := { buffer := s.recvBuffer }) rfl lineSize wait
    · rw [hlost]
      exact .inl rfl
    · rw [hkept]
      exact .inr ⟨_, rfl, hbuffer⟩

end SocketState
theorem bytesOf_append (n : Nat) (log more : List (Nat × List UInt8)) :
    bytesOf n (log ++ more) = bytesOf n log ++ bytesOf n more := by
  rw [bytesOf, List.filter_append, List.flatMap_append]
  rfl

theorem bytesOf_singleton_self (n : Nat) (data : List UInt8) : bytesOf n [(n, data)] = data := by
  rw [bytesOf, List.filter_cons_of_pos (by simp), List.filter_nil, List.flatMap_singleton]

theorem bytesOf_singleton_of_ne {n m : Nat} (h : m ≠ n) (data : List UInt8) : bytesOf n [(m, data)] = [] := by
  rw [bytesOf, List.filter_cons_of_neg (by simpa using h)]
  rfl

namespace SocketRun

/-- Each socket carries the data of the sends that returned OK, then at most part of that of one send that failed and
so closed it; the buffer holds bytes of the open socket only. -/
structure Wired (r : SocketRun) : Prop where
  whole : ∀ n, ∃ cut, bytesOf n r.state.os.written = bytesOf n r.sent ++ cut ∧
    (cut = [] ∨ r.state.socket ≠ some n ∧ ∃ data, (n, data) ∈ r.failed ∧ cut <+: data ∧ cut ≠ data)
  fresh : ∀ n, r.state.os.nextSocket ≤ n → bytesOf n r.state.os.written = []
  buffer : ∀ n ∈ r.state.socket, r.state.recvBuffer <:+ bytesOf n r.received

theorem Wired.of_open {r : SocketRun} (h : r.Wired) {n : Nat} (hsocket : r.state.socket = some n) :
    bytesOf n r.state.os.written = bytesOf n r.sent := by
  obtain ⟨cut, hcut, rfl | ⟨hne, _⟩⟩ := h.whole n
  · rw [hcut, List.append_nil]
  · exact absurd hsocket hne

/-- Losing the socket keeps what it carried. -/
theorem wired_disconnect {r : SocketRun} (h : r.Wired) (received : List (Nat × List UInt8)) :
    Wired { r with state := r.state.disconnect, received := received } where
  whole n := by
    obtain ⟨cut, hcut, hkind⟩ := h.whole n
    refine ⟨cut, ?_, hkind.imp_right fun ⟨_, hdata⟩ => ⟨?_, hdata⟩⟩
    · rwa [SocketState.disconnect_written]
    · rw [SocketState.disconnect_socket]
      exact nofun
  fresh n hn := by
    rw [SocketState.disconnect_nextSocket] at hn
    rw [SocketState.disconnect_written]
    exact h.fresh n hn
  buffer n hn := by
    rw [SocketState.disconnect_socket] at hn
    cases hn

theorem wired_connect {r : SocketRun} (hbalanced : r.state.Balanced) (h : r.Wired) (answers : ConnectAnswers) :
    Wired { r with state := (r.state.connect answers).1 } := by
  obtain ⟨_, hwritten, hgrown, hbuffer, hnew⟩ := SocketState.connect_spec hbalanced answers
  refine ⟨fun n => ?_, fun n hn => ?_, fun n _ => ?_⟩
  · obtain ⟨cut, hcut, hkind⟩ := h.whole n
    refine ⟨cut, hwritten.symm ▸ hcut, ?_⟩
    by_cases hfresh : r.state.os.nextSocket ≤ n
    · rw [h.fresh n hfresh] at hcut
      exact .inl (List.append_eq_nil_iff.mp hcut.symm).2
    · exact hkind.imp_right fun ⟨_, hdata⟩ => ⟨fun hsocket => hfresh (hnew n hsocket), hdata⟩
  · dsimp only
    rw [hwritten]
    exact h.fresh n (Nat.le_trans hgrown hn)
  · dsimp only
    rw [hbuffer]
    exact List.nil_suffix

/-- A send that returns OK. -/
theorem wired_sent {r : SocketRun} (hbalanced : r.state.Balanced) (h : r.Wired) {n : Nat}
    (hsocket : r.state.socket = some n) (data : List UInt8) :
    Wired { r with
      state := { r.state with os := { r.state.os with written := r.state.os.written ++ [(n, data)] } }
      sent := r.sent ++ [(n, data)] } := by
  refine ⟨fun m => ?_, fun m hm => ?_, h.buffer⟩
  · by_cases hm : n = m
    · subst hm
      refine ⟨[], ?_, .inl rfl⟩
      dsimp only
      rw [bytesOf_append, bytesOf_append, h.of_open hsocket, List.append_nil]
    · obtain ⟨cut, hcut, hkind⟩ := h.whole m
      refine ⟨cut, ?_, hkind⟩
      dsimp only
      rw [bytesOf_append, bytesOf_append, bytesOf_singleton_of_ne hm, List.append_nil, List.append_nil, hcut]
  · have hne : n ≠ m := Nat.ne_of_lt (Nat.lt_of_lt_of_le (hbalanced.fresh n hsocket) hm)
    dsimp only
    rw [bytesOf_append, bytesOf_singleton_of_ne hne, h.fresh m hm, List.append_nil]

/-- A send that fails with part of its data written. -/
theorem wired_failed {r : SocketRun} (hbalanced : r.state.Balanced) (h : r.Wired) {n : Nat}
    (hsocket : r.state.socket = some n) {data bytes : List UInt8} (hpre : bytes <+: data) (hcut : bytes ≠ data) :
    Wired { r with
      state := SocketState.disconnect
        { r.state with os := { r.state.os with written := r.state.os.written ++ [(n, bytes)] } }
      failed := r.failed ++ [(n, data)] } := by
  refine ⟨fun m => ?_, fun m hm => ?_, fun m hm => ?_⟩
  · dsimp only
    rw [SocketState.disconnect_written, SocketState.disconnect_socket]
    dsimp only
    rw [bytesOf_append]
    by_cases hm : n = m
    · subst hm
      refine ⟨bytes, ?_, .inr ⟨nofun, data, List.mem_append_right _ (List.mem_singleton_self _), hpre,
        hcut⟩⟩
      rw [h.of_open hsocket, bytesOf_singleton_self]
    · obtain ⟨cut, hwritten, hkind⟩ := h.whole m
      refine ⟨cut, ?_, hkind.imp_right fun ⟨_, kept, hmem, hkept⟩ =>
        ⟨nofun, kept, List.mem_append_left _ hmem, hkept⟩⟩
      rw [bytesOf_singleton_of_ne hm, List.append_nil, hwritten]
  · dsimp only at hm ⊢
    rw [SocketState.disconnect_nextSocket] at hm
    have hne : n ≠ m := Nat.ne_of_lt (Nat.lt_of_lt_of_le (hbalanced.fresh n hsocket) hm)
    rw [SocketState.disconnect_written]
    dsimp only
    rw [bytesOf_append, bytesOf_singleton_of_ne hne, h.fresh m hm, List.append_nil]
  · dsimp only at hm
    rw [SocketState.disconnect_socket] at hm
    cases hm

theorem wired_receive {r : SocketRun} (h : r.Wired) (lineSize : Nat) (wait : Wait) :
    (r.step (.receiveLine lineSize wait)).Wired := by
  rw [step]
  rcases r.state.receiveLine_spec lineSize wait with ⟨hsocket, hsame⟩ | ⟨n, hsocket, hlost | ⟨buffer, hkept, hsuffix⟩⟩
  · rw [hsame]
    refine ⟨h.whole, h.fresh, fun n hn => ?_⟩
    exact absurd (hsocket.symm.trans hn) (Option.some_ne_none n).symm
  · rw [hlost]
    exact wired_disconnect h _
  · have hentry : (r.state.socket.map fun socket => (socket, taken r.state lineSize wait)).toList =
        [(n, taken r.state lineSize wait)] := by
      rw [hsocket]
      rfl
    rw [hkept, hentry]
    refine ⟨h.whole, h.fresh, fun m hm => ?_⟩
    obtain rfl : n = m := Option.some.inj (hsocket.symm.trans hm)
    dsimp only
    rw [bytesOf_append, bytesOf_singleton_self]
    obtain ⟨before, hbefore⟩ := h.buffer n hsocket
    refine hsuffix.trans ⟨before, ?_⟩
    rw [← List.append_assoc, hbefore]

/-- One call keeps the Winsock resources balanced and the wires whole. -/
theorem step_keeps {r : SocketRun} (h : r.state.Balanced ∧ r.Wired) (call : SocketCall) :
    (r.step call).state.Balanced ∧ (r.step call).Wired := by
  obtain ⟨hbalanced, hwired⟩ := h
  cases call with
  | connect answers => exact ⟨(SocketState.connect_spec hbalanced answers).1, wired_connect hbalanced hwired answers⟩
  | disconnect => exact ⟨hbalanced.released_disconnect.balanced, wired_disconnect hwired _⟩
  | receiveLine lineSize wait =>
    refine ⟨?_, wired_receive hwired lineSize wait⟩
    rw [step]
    rcases r.state.receiveLine_spec lineSize wait with ⟨_, hsame⟩ | ⟨n, hsocket, hlost | ⟨buffer, hkept, _⟩⟩
    · rw [hsame]
      exact hbalanced
    · rw [hlost]
      exact hbalanced.released_disconnect.balanced
    · rw [hkept]
      exact ⟨hbalanced.sockets, hbalanced.startups, hbalanced.started, hbalanced.addressLists,
        fun hnone => absurd (hsocket.symm.trans hnone) (Option.some_ne_none n), hbalanced.fresh⟩
  | sendAll answers data =>
    rw [step]
    rcases r.state.sendAll_spec answers data with ⟨hsocket, hsame⟩ | ⟨n, bytes, whole, hsocket, hpre, hwhole, hsent⟩
    · rw [hsame, hsocket]
      refine ⟨hbalanced, ?_⟩
      simpa using hwired
    · have hentry : (r.state.socket.map fun socket => (socket, data)).toList = [(n, data)] := by
        rw [hsocket]
        rfl
      have hopen : SocketState.Balanced
          { r.state with os := { r.state.os with written := r.state.os.written ++ [(n, bytes)] } } :=
        ⟨hbalanced.sockets, hbalanced.startups, hbalanced.started, hbalanced.addressLists, hbalanced.buffer,
          hbalanced.fresh⟩
      rw [hsent, hentry]
      cases whole with
      | true =>
        obtain rfl := hwhole.mp rfl
        exact ⟨hopen, wired_sent hbalanced hwired hsocket bytes⟩
      | false =>
        have hcut : bytes ≠ data := fun h => Bool.false_ne_true (hwhole.mpr h)
        exact ⟨hopen.released_disconnect.balanced, wired_failed hbalanced hwired hsocket hpre hcut⟩

theorem run_keeps (calls : List SocketCall) :
    (calls.foldl step {}).state.Balanced ∧ (calls.foldl step {}).Wired := by
  have hstart : SocketState.Balanced {} := ⟨rfl, rfl, rfl, rfl, fun _ => rfl, nofun⟩
  have hwired : Wired {} := ⟨fun _ => ⟨[], rfl, .inl rfl⟩, fun _ _ => rfl, nofun⟩
  exact Run.invariant step (I := fun r => r.state.Balanced ∧ r.Wired) (fun r call h => step_keeps h call)
    ⟨hstart, hwired⟩ calls _ (Run.foldl_mem_states step {} calls)

/-- Whatever Winsock answers, the calls leave one startup and one socket held while connected and nothing otherwise,
a disconnect gives both back, and the receive buffer holds an end of what the open socket received. -/
theorem resources_balanced (calls : List SocketCall) :
    let r := calls.foldl step {}
    r.state.Balanced ∧ r.state.disconnect.Released ∧
      ∀ n ∈ r.state.socket, r.state.recvBuffer <:+ bytesOf n r.received := by
  obtain ⟨hbalanced, hwired⟩ := run_keeps calls
  exact ⟨hbalanced, hbalanced.released_disconnect, hwired.buffer⟩

end SocketRun

/-- Data that is one line with its newline. -/
def IsLine (data : List UInt8) : Prop := ∃ body, 10 ∉ body ∧ data = body ++ [10]

/-- A call as the extension makes it: what it sends is one line. -/
def SocketCall.SendsLine : SocketCall → Prop
  | .sendAll _ data => IsLine data
  | _ => True

theorem IsLine.not_mem_cut {data cut : List UInt8} (h : IsLine data) (hpre : cut <+: data) (hcut : cut ≠ data) :
    10 ∉ cut := by
  obtain ⟨body, hbody, rfl⟩ := h
  rcases List.prefix_concat_iff.mp hpre with heq | hwithin
  · exact absurd heq hcut
  · exact fun hmem => hbody (hwithin.subset hmem)

theorem IsLine.dropLast_append {data : List UInt8} (h : IsLine data) :
    10 ∉ data.dropLast ∧ data = data.dropLast ++ [10] := by
  obtain ⟨body, hbody, rfl⟩ := h
  rw [List.dropLast_concat]
  exact ⟨hbody, rfl⟩

namespace SocketRun

/-- The data of all sends on an open socket so far. -/
def tried (r : SocketRun) : List (List UInt8) := (r.sent ++ r.failed).map Prod.snd

theorem tried_step {r : SocketRun} (h : ∀ data ∈ r.tried, IsLine data) {call : SocketCall} (hcall : call.SendsLine) :
    ∀ data ∈ (r.step call).tried, IsLine data := by
  cases call with
  | connect answers => exact h
  | disconnect => exact h
  | receiveLine lineSize wait => exact h
  | sendAll answers line =>
    intro data hdata
    have hold : data ∈ r.tried ∨ data = line := by
      rw [step, tried] at hdata
      obtain ⟨entry, hentry, rfl⟩ := List.mem_map.mp hdata
      have hnew : entry ∈ r.sent ++ r.failed ∨
          entry ∈ (r.state.socket.map fun socket => (socket, line)).toList := by
        revert hentry
        dsimp only
        cases (r.state.sendAll answers line).2 with
        | true =>
          rw [if_pos rfl, if_pos rfl, List.mem_append, List.mem_append, List.mem_append]
          tauto
        | false =>
          rw [if_neg Bool.false_ne_true, if_neg Bool.false_ne_true, List.mem_append, List.mem_append, List.mem_append]
          tauto
      refine hnew.imp (fun hmem => List.mem_map.mpr ⟨entry, hmem, rfl⟩) fun hmem => ?_
      obtain ⟨socket, _, rfl⟩ := Option.map_eq_some_iff.mp (Option.mem_toList.mp hmem)
      rfl
    rcases hold with hmem | rfl
    · exact h data hmem
    · exact hcall

/-- Each socket carries exactly the lines whose sends returned OK, in order: a line that failed part way is never
completed, and an open socket never stands inside a line. -/
theorem sockets_carry_lines (calls : List SocketCall) (hcalls : ∀ call ∈ calls, call.SendsLine) (n : Nat) :
    let r := calls.foldl step {}
    Framing.lines 10 (bytesOf n r.state.os.written) =
        (r.sent.filter fun entry => entry.1 = n).map (fun entry => entry.2.dropLast) ∧
      (r.state.socket = some n → Framing.tail 10 (bytesOf n r.state.os.written) = []) := by
  intro r
  have hlines : ∀ data ∈ r.tried, IsLine data :=
    Run.invariant_along step (I := fun r => ∀ data ∈ r.tried, IsLine data) (fun r call h hcall => tried_step h hcall)
      (fun data hdata => absurd hdata List.not_mem_nil) (Run.along_of_forall_mem step hcalls {}) _ (Run.foldl_mem_states step {} calls)
  have hsent : ∀ entry ∈ r.sent.filter (fun entry => entry.1 = n), IsLine entry.2 := by
    intro entry hentry
    refine hlines entry.2 (List.mem_map.mpr ⟨entry, List.mem_append_left _ (List.mem_of_mem_filter hentry), rfl⟩)
  have hbytes : bytesOf n r.sent =
      (r.sent.filter fun entry => entry.1 = n).flatMap fun entry => entry.2.dropLast ++ [10] := by
    rw [bytesOf]
    exact List.flatMap_congr fun entry hentry => (hsent entry hentry).dropLast_append.2
  have hwired : r.Wired := (run_keeps calls).2
  have hcarried : ∀ cut : List UInt8, 10 ∉ cut → Framing.lines 10 (bytesOf n r.sent ++ cut) =
      (r.sent.filter fun entry => entry.1 = n).map (fun entry => entry.2.dropLast) := by
    intro cut hcut
    rw [hbytes]
    exact Framing.lines_flatMap _ hcut _ fun entry hentry => (hsent entry hentry).dropLast_append.1
  constructor
  · obtain ⟨cut, hcut, rfl | ⟨_, data, hmem, hpre, hne⟩⟩ := hwired.whole n
    · rw [hcut]
      exact hcarried [] List.not_mem_nil
    · rw [hcut]
      have hdata : IsLine data := hlines data (List.mem_map.mpr ⟨(n, data), List.mem_append_right _ hmem, rfl⟩)
      exact hcarried cut (hdata.not_mem_cut hpre hne)
  · intro hsocket
    rw [hwired.of_open hsocket, hbytes, ← List.append_nil (List.flatMap _ _)]
    exact Framing.tail_flatMap _ List.not_mem_nil _ fun entry hentry => (hsent entry hentry).dropLast_append.1

/-- A connection at the second address loses its second line part way, and the next one carries the third. -/
def sampleCalls : List SocketCall :=
  [.connect { addresses := .ok [.refused, .connected] }, .sendAll (fun _ => .sent 1) [65, 10],
    .sendAll (fun turn => if turn = 0 then .sent 1 else .failed 10054) [66, 67, 10],
    .connect { addresses := .ok [.noSocket, .connected] }, .sendAll (fun _ => .sent 2) [68, 10]]

theorem sockets_carry_lines_sample :
    let r := sampleCalls.foldl step {}
    Framing.lines 10 (bytesOf 1 r.state.os.written) =
        (r.sent.filter fun entry => entry.1 = 1).map (fun entry => entry.2.dropLast) ∧
      (r.state.socket = some 1 → Framing.tail 10 (bytesOf 1 r.state.os.written) = []) := by
  refine sockets_carry_lines sampleCalls (fun call hcall => ?_) 1
  simp only [sampleCalls, List.mem_cons, List.not_mem_nil, or_false] at hcall
  rcases hcall with rfl | rfl | rfl | rfl | rfl
  · trivial
  · exact ⟨[65], by decide, rfl⟩
  · exact ⟨[66, 67], by decide, rfl⟩
  · trivial
  · exact ⟨[68], by decide, rfl⟩

example : (sampleCalls.foldl step {}).state.os.written = [(1, [65, 10]), (1, [66]), (2, [68, 10])] := by decide

end SocketRun
end DynvarSync.Windbg
