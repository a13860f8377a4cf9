import DynvarSync.Lib.Framing
import DynvarSync.Lib.Run
import Mathlib.Data.List.TakeWhile

/-! The extension's receive buffer, and the lines that repeated calls take out of it
however the broker's bytes arrive. -/
namespace DynvarSync.Windbg
open Lib

def recvBufferSize : Nat := 8192

/-- `DVS_LINE_BUFFER_SIZE`. -/
def lineBufferSize : Nat := 4096

/-- The connection and the bytes of the static buffer in use. -/
structure SocketClient where
  connected : Bool := true
  buffer : List UInt8 := []
  deriving DecidableEq

/-- How one call ends. -/
inductive Outcome where
  | line (text : List UInt8)
  | timeout
  | error (text : String)
  deriving DecidableEq

/-- What `recv` answers. -/
inductive Received where
  | bytes (chunk : List UInt8)
  | closed
  | failed (code : Int)
  deriving DecidableEq

/-- What `select` answers, with the `recv` that follows a readable socket. -/
inductive Wait where
  | timedOut
  | failed (code : Int)
  | readable (received : Received)
  deriving DecidableEq

/-- A line without its one trailing carriage return. -/
def dropCr (line : List UInt8) : List UInt8 := if line.getLast? = some 13 then line.dropLast else line

namespace SocketClient

def disconnect : SocketClient := { connected := false, buffer := [] }

/-- Take the first complete line out of the buffer. -/
def tryPopLine (s : SocketClient) (lineSize : Nat) : SocketClient × Outcome :=
  let text := s.buffer.takeWhile (· ≠ 10)
  if text.length = s.buffer.length then (s, .timeout)
  else if lineSize ≤ (dropCr text).length then ({ s with buffer := [] }, .error "received JSONL line too long")
  else ({ s with buffer := s.buffer.drop (text.length + 1) }, .line (dropCr text))

/-- Put received bytes behind those in the buffer and try again. -/
def receiveBytes (s : SocketClient) (lineSize : Nat) : Received → SocketClient × Outcome
  | .failed code => (disconnect, .error ("recv failed with error " ++ toString code))
  | .closed => (disconnect, .error "socket closed")
  | .bytes chunk => tryPopLine { s with buffer := s.buffer ++ chunk } lineSize

/-- One call: the socket is asked only when the buffer holds no complete line. -/
def receiveLine (s : SocketClient) (lineSize : Nat) (wait : Wait) : SocketClient × Outcome :=
  if !s.connected then (s, .error "not connected")
  else if lineSize = 0 then (s, .error "invalid receive line buffer")
  else match s.tryPopLine lineSize with
    | (_, .timeout) =>
      match wait with
      | .timedOut => (s, .timeout)
      | .failed code => (disconnect, .error ("select failed with error " ++ toString code))
      | .readable received =>
        if recvBufferSize ≤ s.buffer.length then
          ({ s with buffer := [] }, .error "receive buffer full without newline")
        else s.receiveBytes lineSize received
    | popped => popped

end SocketClient

/-- The calls made so far: the bytes they received and how they ended, the latest last. -/
structure Calls where
  client : SocketClient := {}
  received : List UInt8 := []
  outcomes : List Outcome := []
  deriving DecidableEq

namespace Calls

/-- The bytes a call takes from the socket. -/
def taken (client : SocketClient) : Wait → List UInt8
  | .readable (.bytes chunk) =>
    if 10 ∈ client.buffer ∨ recvBufferSize ≤ client.buffer.length then [] else chunk
  | _ => []

def call (s : Calls) (wait : Wait) : Calls :=
  let result := s.client.receiveLine lineBufferSize wait
  { client := result.1
    received := s.received ++ taken s.client wait
    outcomes := s.outcomes ++ [result.2] }

/-- The socket times out, or gives the next bytes of the stream: some, and no more than the free space. -/
def Delivers (stream : List UInt8) (s : Calls) : Wait → Prop
  | .timedOut => True
  | .readable (.bytes chunk) => chunk ≠ [] ∧ s.received ++ chunk <+: stream ∧
      (s.client.buffer.length < recvBufferSize → chunk.length ≤ recvBufferSize - s.client.buffer.length)
  | _ => False

/-- The lines the calls returned. -/
def returned (s : Calls) : List (List UInt8) :=
  s.outcomes.filterMap fun outcome => match outcome with
    | .line text => some text
    | _ => none

end Calls

/-- The newline-terminated lines of some bytes, carriage returns removed. -/
def linesOf (bytes : List UInt8) : List (List UInt8) := (Framing.lines 10 bytes).map dropCr

theorem linesOf_eq_nil {bytes : List UInt8} (h : 10 ∉ bytes) : linesOf bytes = [] := by
  rw [linesOf, (Framing.lines_eq_nil h).1]
  rfl

theorem linesOf_cons {body : List UInt8} (hbody : 10 ∉ body) (rest : List UInt8) :
    linesOf (body ++ 10 :: rest) = dropCr body :: linesOf rest := by
  rw [linesOf, (Framing.lines_cons hbody rest).1]
  rfl

theorem linesOf_append (bytes more : List UInt8) :
    linesOf (bytes ++ more) = linesOf bytes ++ linesOf (Framing.tail 10 bytes ++ more) := by
  rw [linesOf, (Framing.lines_append 10 bytes more).1, List.map_append]
  rfl

theorem length_le_dropCr (line : List UInt8) : line.length ≤ (dropCr line).length + 1 := by
  rw [dropCr]
  split
  · rw [List.length_dropLast]
    omega
  · omega

theorem takeWhile_line {body : List UInt8} (hbody : 10 ∉ body) (rest : List UInt8) :
    (body ++ 10 :: rest).takeWhile (· ≠ 10) = body := by
  induction body with
  | nil => rfl
  | cons b body ih =>
    obtain ⟨hb, hbody⟩ := not_or.mp (mt List.mem_cons.mpr hbody)
    rw [List.cons_append, List.takeWhile_cons_of_pos (by simpa using Ne.symm hb), ih hbody]

namespace SocketClient

theorem tryPopLine_none {s : SocketClient} (h : 10 ∉ s.buffer) (lineSize : Nat) :
    s.tryPopLine lineSize = (s, .timeout) := by
  have hall : s.buffer.takeWhile (· ≠ 10) = s.buffer := by
    refine List.takeWhile_eq_self_iff.mpr fun b hb => ?_
    rw [decide_eq_true_iff]
    rintro rfl
    exact h hb
  simp only [tryPopLine, hall, if_true]

/-- A line that fits is taken off with its separator. -/
theorem tryPopLine_line {s : SocketClient} {body rest : List UInt8} (hbody : 10 ∉ body)
    (hbuffer : s.buffer = body ++ 10 :: rest) {lineSize : Nat} (hfits : (dropCr body).length < lineSize) :
    s.tryPopLine lineSize = ({ s with buffer := rest }, .line (dropCr body)) := by
  have hlength : body.length ≠ (body ++ 10 :: rest).length := by
    rw [List.length_append, List.length_cons]
    omega
  have hdrop : (body ++ 10 :: rest).drop (body.length + 1) = rest := by
    rw [← List.drop_drop, List.drop_left, List.drop_succ_cons, List.drop_zero]
  simp only [tryPopLine, hbuffer, takeWhile_line hbody]
  rw [if_neg hlength, if_neg (by omega), hdrop]

/-- The socket is asked only when no complete line is left. -/
theorem receiveLine_eq {s : SocketClient} (hconnected : s.connected = true) (wait : Wait) :
    s.receiveLine lineBufferSize wait =
      if 10 ∈ s.buffer then s.tryPopLine lineBufferSize
      else match wait with
        | .timedOut => (s, .timeout)
        | .failed code => (disconnect, .error ("select failed with error " ++ toString code))
        | .readable received =>
          if recvBufferSize ≤ s.buffer.length then
            ({ s with buffer := [] }, .error "receive buffer full without newline")
          else s.receiveBytes lineBufferSize received := by
  rw [receiveLine.eq_def, hconnected]
  rw [if_neg (by decide), if_neg (by decide)]
  by_cases hline : 10 ∈ s.buffer
  · rw [if_pos hline]
    have hpopped : ∀ t, s.tryPopLine lineBufferSize ≠ (t, .timeout) := by
      intro t h
      rcases Framing.first_line 10 s.buffer with hno | ⟨body, rest, hbody, hbuffer⟩
      · exact hno hline
      · have hlength : body.length ≠ (body ++ 10 :: rest).length := by
          rw [List.length_append, List.length_cons]
          omega
        simp only [tryPopLine, hbuffer, takeWhile_line hbody, if_neg hlength] at h
        split at h <;> cases h
    split
    · rename_i heq
      exact absurd heq (hpopped _)
    · rfl
  · rw [if_neg hline, tryPopLine_none hline]

end SocketClient

namespace Calls

/-- What the calls made so far have taken out of the received bytes, and what they have left. -/
structure Framed (stream : List UInt8) (s : Calls) : Prop where
  connected : s.client.connected = true
  within : s.received <+: stream
  lines : linesOf s.received = s.returned ++ linesOf s.client.buffer
  tail : Framing.tail 10 s.client.buffer = Framing.tail 10 s.received
  noError : ∀ text, .error text ∉ s.outcomes
  drained : s.outcomes.getLast? = some .timeout → 10 ∉ s.client.buffer

theorem returned_concat (s : Calls) (client : SocketClient) (received : List UInt8) (outcome : Outcome) :
    returned { s with client := client, received := received, outcomes := s.outcomes ++ [outcome] } =
      s.returned ++ (match outcome with | .line text => [text] | _ => []) := by
  rw [returned, List.filterMap_append, returned]
  cases outcome <;> rfl

theorem framed_timeout {stream received buffer : List UInt8} {s : Calls} (hwithin : received <+: stream)
    (hlines : linesOf received = s.returned ++ linesOf buffer)
    (htail : Framing.tail 10 buffer = Framing.tail 10 received)
    (hnoError : ∀ text, .error text ∉ s.outcomes) (hno : 10 ∉ buffer) :
    Framed stream { client := { buffer := buffer }, received := received, outcomes := s.outcomes ++ [.timeout] } := by
  refine ⟨rfl, hwithin, ?_, htail, fun text => ?_, fun _ => hno⟩
  · refine hlines.trans ?_
    exact congrArg (· ++ linesOf buffer) ((returned_concat s _ _ .timeout).trans (List.append_nil _)).symm
  · rw [List.mem_append, List.mem_singleton]
    exact not_or.mpr ⟨hnoError text, nofun⟩

/-- Popping a buffer that holds what is left of the received bytes. -/
theorem framed_pop {stream received buffer : List UInt8} {s : Calls} (hwithin : received <+: stream)
    (hlines : linesOf received = s.returned ++ linesOf buffer)
    (htail : Framing.tail 10 buffer = Framing.tail 10 received)
    (hnoError : ∀ text, .error text ∉ s.outcomes) (hfits : ∀ line ∈ linesOf stream, line.length ≤ 4095) :
    let popped := SocketClient.tryPopLine { buffer := buffer } lineBufferSize
    Framed stream { client := popped.1, received := received, outcomes := s.outcomes ++ [popped.2] } := by
  intro popped
  rcases Framing.first_line 10 buffer with hno | ⟨body, rest, hbody, rfl⟩
  · have hpopped : popped = ({ buffer := buffer }, .timeout) :=
      SocketClient.tryPopLine_none (s := { buffer := buffer }) hno lineBufferSize
    rw [hpopped]
    exact framed_timeout hwithin hlines htail hnoError hno
  · rw [linesOf_cons hbody] at hlines
    have hmem : dropCr body ∈ linesOf received := by
      rw [hlines]
      exact List.mem_append_right _ (List.mem_cons_self ..)
    have hlength := hfits (dropCr body) (((Framing.lines_prefix hwithin).map dropCr).subset hmem)
    have hpopped : popped = ({ buffer := rest }, .line (dropCr body)) :=
      SocketClient.tryPopLine_line (s := { buffer := body ++ 10 :: rest }) hbody rfl (Nat.lt_succ_of_le hlength)
    rw [hpopped]
    refine ⟨rfl, hwithin, ?_, ?_, fun text => ?_, fun hlast => ?_⟩
    · refine hlines.trans ?_
      rw [returned_concat s]
      simp
    · exact (Framing.lines_cons hbody rest).2.symm.trans htail
    · rw [List.mem_append, List.mem_singleton]
      exact not_or.mpr ⟨hnoError text, nofun⟩
    · rw [List.getLast?_concat] at hlast
      cases hlast

theorem framed_start (stream : List UInt8) : Framed stream {} :=
  ⟨rfl, List.nil_prefix, rfl, rfl, nofun, nofun⟩

theorem taken_of_line {client : SocketClient} (h : 10 ∈ client.buffer) (wait : Wait) : taken client wait = [] := by
  cases wait with
  | timedOut => rfl
  | failed code => rfl
  | readable result =>
    cases result with
    | bytes chunk => exact if_pos (.inl h)
    | closed => rfl
    | failed code => rfl

/-- A call on a stream whose lines fit keeps what the calls have taken exact. -/
theorem framed_call {stream : List UInt8} (hfits : ∀ line ∈ linesOf stream, line.length ≤ 4095)
    (hrest : (Framing.tail 10 stream).length ≤ recvBufferSize) {s : Calls} (h : Framed stream s) {wait : Wait}
    (hwait : Delivers stream s wait) : Framed stream (s.call wait) := by
  obtain ⟨client, received, outcomes⟩ := s
  obtain ⟨connected, buffer⟩ := client
  obtain rfl : connected = true := h.connected
  have hcall := SocketClient.receiveLine_eq (s := { buffer := buffer }) rfl wait
  rw [call, hcall]
  by_cases hline : 10 ∈ buffer
  · have htaken : taken { buffer := buffer } wait = [] := taken_of_line hline wait
    rw [htaken, List.append_nil, if_pos hline]
    exact framed_pop h.within h.lines h.tail h.noError hfits
  · rw [if_neg hline]
    cases wait with
    | failed code => exact hwait.elim
    | timedOut =>
      have htaken : taken { buffer := buffer } .timedOut = [] := rfl
      rw [htaken, List.append_nil]
      exact framed_timeout h.within h.lines h.tail h.noError hline
    | readable result =>
      cases result with
      | closed => exact hwait.elim
      | failed code => exact hwait.elim
      | bytes chunk =>
        obtain ⟨hchunk, hwithin, _⟩ := hwait
        have hspace : buffer.length < recvBufferSize := by
          obtain ⟨more, hmore⟩ := hwithin
          have hstream : received ++ (chunk ++ more) = stream := by rw [← List.append_assoc, hmore]
          have hbuffer : Framing.tail 10 buffer = buffer := (Framing.lines_eq_nil hline).2
          have hkept : buffer = Framing.tail 10 received := hbuffer.symm.trans h.tail
          rw [hkept]
          refine Framing.tail_lt_of_more recvBufferSize (fun hnil => hchunk (List.append_eq_nil_iff.mp hnil).1)
            ?_ (hstream ▸ hrest)
          intro line hmem
          rw [hstream] at hmem
          have hlength := hfits (dropCr line) (List.mem_map.mpr ⟨line, hmem, rfl⟩)
          have hraw := length_le_dropCr line
          rw [recvBufferSize]
          omega
        have htaken : taken { buffer := buffer } (.readable (.bytes chunk)) = chunk :=
          if_neg (not_or.mpr ⟨hline, Nat.not_le.mpr hspace⟩)
        rw [htaken]
        dsimp only
        rw [if_neg (Nat.not_le.mpr hspace), SocketClient.receiveBytes]
        refine framed_pop hwithin ?_ ?_ h.noError hfits
        · have hlines := h.lines
          have htail := h.tail
          dsimp only at hlines htail
          rw [linesOf_append, hlines, List.append_assoc, ← htail, ← linesOf_append]
        · have htail := h.tail
          dsimp only at htail
          rw [(Framing.lines_append 10 buffer chunk).2, (Framing.lines_append 10 received chunk).2, htail]

/-- However a stream arrives whose lines fit in 4095 bytes and whose unterminated end fits in the buffer, the calls
return the lines received so far in order and once each, keep the incomplete tail, never fail, and time out only when
no line is left. -/
theorem received_lines_exact (stream : List UInt8) (hfits : ∀ line ∈ linesOf stream, line.length ≤ 4095)
    (hrest : (Framing.tail 10 stream).length ≤ recvBufferSize) (waits : List Wait)
    (hwaits : Run.Along call (Delivers stream) {} waits) :
    let s := waits.foldl call {}
    linesOf s.received = s.returned ++ linesOf s.client.buffer ∧
      Framing.tail 10 s.client.buffer = Framing.tail 10 s.received ∧ (∀ text, .error text ∉ s.outcomes) ∧
      (s.outcomes.getLast? = some .timeout → linesOf s.received = s.returned ∧
        s.client.buffer = Framing.tail 10 s.received) := by
  have hrun := Run.invariant_along call (I := Framed stream) (fun s wait hs hwait => framed_call hfits hrest hs hwait)
    (framed_start stream) hwaits
  have hlast := hrun _ (Run.foldl_mem_states call {} waits)
  intro s
  refine ⟨hlast.lines, hlast.tail, hlast.noError, fun htimeout => ?_⟩
  have hno := hlast.drained htimeout
  refine ⟨?_, (Framing.lines_eq_nil hno).2.symm.trans hlast.tail⟩
  rw [hlast.lines, linesOf_eq_nil hno, List.append_nil]

/-- Two lines, one ended by a carriage return, received in pieces that cut through both. -/
def splitWaits : List Wait :=
  [.readable (.bytes [65, 13]), .timedOut, .readable (.bytes [10, 66]), .readable (.bytes [67, 10, 68]), .timedOut]

theorem received_lines_exact_split :
    let s := splitWaits.foldl call {}
    linesOf s.received = s.returned ++ linesOf s.client.buffer ∧
      Framing.tail 10 s.client.buffer = Framing.tail 10 s.received ∧ (∀ text, .error text ∉ s.outcomes) ∧
      (s.outcomes.getLast? = some .timeout → linesOf s.received = s.returned ∧
        s.client.buffer = Framing.tail 10 s.received) := by
  refine received_lines_exact [65, 13, 10, 66, 67, 10, 68] (by decide) (by decide) splitWaits ?_
  refine ⟨⟨by decide, by decide, fun _ => by decide⟩, trivial, ⟨by decide, by decide, fun _ => by decide⟩,
    ⟨by decide, by decide, fun _ => by decide⟩, trivial, trivial⟩

/-- As many bytes without a newline as the buffer holds. -/
def fullBuffer : List UInt8 := List.replicate recvBufferSize 65

theorem fullBuffer_no_newline : 10 ∉ fullBuffer := fun h => absurd (List.eq_of_mem_replicate h) (by decide)

theorem call_fullBuffer : call {} (.readable (.bytes fullBuffer)) =
    { client := { buffer := fullBuffer }, received := fullBuffer, outcomes := [.timeout] } := by
  have hcall := SocketClient.receiveLine_eq (s := {}) rfl (.readable (.bytes fullBuffer))
  rw [if_neg (by decide)] at hcall
  dsimp only at hcall
  rw [if_neg (by decide), SocketClient.receiveBytes, List.nil_append,
    SocketClient.tryPopLine_none (s := { buffer := fullBuffer }) fullBuffer_no_newline] at hcall
  have htaken : taken {} (.readable (.bytes fullBuffer)) = fullBuffer := by
    rw [taken]
    exact if_neg (by decide)
  rw [call, hcall, htaken]
  rfl

/-- One byte more than the buffer holds, without a newline, makes a call fail. -/
theorem full_buffer_fails :
    ¬ ∀ stream : List UInt8, (∀ line ∈ linesOf stream, line.length ≤ 4095) → ∀ waits,
      Run.Along call (Delivers stream) {} waits → ∀ text, .error text ∉ (waits.foldl call {}).outcomes := by
  intro h
  have hno : 10 ∉ fullBuffer ++ [65] := by
    rw [List.mem_append]
    exact not_or.mpr ⟨fullBuffer_no_newline, by decide⟩
  have hlength : fullBuffer.length = recvBufferSize := List.length_replicate
  have hcall := SocketClient.receiveLine_eq (s := { buffer := fullBuffer }) rfl (.readable (.bytes [65]))
  rw [if_neg fullBuffer_no_newline] at hcall
  dsimp only at hcall
  rw [if_pos (Nat.le_of_eq hlength.symm)] at hcall
  refine h (fullBuffer ++ [65]) ?_ [.readable (.bytes fullBuffer), .readable (.bytes [65])] ?_
    "receive buffer full without newline" ?_
  · rw [linesOf_eq_nil hno]
    exact nofun
  · refine ⟨⟨?_, ⟨[65], rfl⟩, fun _ => Nat.le_of_eq hlength⟩, ?_, trivial⟩
    · exact List.ne_nil_of_length_pos (hlength ▸ Nat.zero_lt_succ _)
    · rw [call_fullBuffer]
      exact ⟨List.cons_ne_nil _ _, List.prefix_rfl, fun hfree => absurd hlength (Nat.ne_of_lt hfree)⟩
  · rw [List.foldl_cons, List.foldl_cons, List.foldl_nil, call_fullBuffer, call, hcall]
    exact List.mem_append_right _ (List.mem_singleton_self _)

end Calls
end DynvarSync.Windbg
