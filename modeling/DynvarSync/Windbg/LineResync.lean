import DynvarSync.Windbg.SocketClient

/-! What happens to the lines around one that is too long for its reader. -/
namespace DynvarSync.Windbg
open Lib

def tooLong : Outcome := .error "received JSONL line too long"

/-- A line that a reader's buffer holds. -/
def Fits (line : List UInt8) : Prop := (dropCr line).length < lineBufferSize

instance : DecidablePred Fits := fun _ => inferInstanceAs (Decidable (_ < _))

/-- What a line should be answered with. -/
def verdict (line : List UInt8) : Outcome := if Fits line then .line (dropCr line) else tooLong

/-- What the complete lines of some bytes should be answered with. -/
def transcript (bytes : List UInt8) : List Outcome := (Framing.lines 10 bytes).map verdict

/-- What the lines of a buffer are answered with: the first that is too long takes the others with it. -/
def popped : List (List UInt8) → List Outcome
  | [] => []
  | line :: more => if Fits line then .line (dropCr line) :: popped more else [tooLong]

/-- A line, or the report of one that was too long. -/
def Outcome.isAnswer : Outcome → Bool
  | .line _ => true
  | outcome => outcome = tooLong

namespace Calls

def answers (s : Calls) : List Outcome := s.outcomes.filter Outcome.isAnswer

/-- As many calls without new bytes as could take a line out of the buffer. -/
def drain (s : Calls) : Calls := (List.replicate s.client.buffer.length .timedOut).foldl call s

/-- Once the buffer is drained, every line received whole has been returned, or reported as too long, once and in
order, and nothing else has. -/
def Answered (s : Calls) : Prop := s.drain.answers = transcript s.received

/-- What was thrown away of the line that is still incomplete. -/
def discarded (s : Calls) : List UInt8 :=
  Framing.tail 10 (s.received.take (s.received.length - s.client.buffer.length))

/-- Of the lines that the received bytes complete, only the last is too long, and the first either lost nothing before,
or nothing but a carriage return, or what is left of it is too long by itself. -/
def Resynchronises (s : Calls) (wait : Wait) : Prop :=
  taken s.client wait ≠ [] →
    (∀ line ∈ (Framing.lines 10 (s.client.buffer ++ taken s.client wait)).dropLast, Fits line) ∧
      ∀ line ∈ (Framing.lines 10 (s.client.buffer ++ taken s.client wait)).head?,
        s.discarded = [] ∨ ¬ Fits line ∨ (s.discarded = [13] ∧ line = [])

instance (s : Calls) (wait : Wait) : Decidable (Resynchronises s wait) := inferInstanceAs (Decidable (_ → _))

end Calls

theorem dropCr_append (discarded : List UInt8) {line : List UInt8} (h : line ≠ []) :
    dropCr (discarded ++ line) = discarded ++ dropCr line := by
  unfold dropCr
  rw [List.getLast?_append_of_ne_nil _ h]
  split
  · exact List.dropLast_append_of_ne_nil h
  · rfl

theorem fits_nil : Fits [] := by decide

theorem not_fits_append (discarded : List UInt8) {line : List UInt8} (h : ¬ Fits line) :
    ¬ Fits (discarded ++ line) := by
  have hline : line ≠ [] := fun hnil => h (hnil ▸ fits_nil)
  unfold Fits at h ⊢
  rw [dropCr_append _ hline, List.length_append]
  omega

theorem verdict_of_fits {line : List UInt8} (h : Fits line) : verdict line = .line (dropCr line) := if_pos h

theorem verdict_of_not_fits {line : List UInt8} (h : ¬ Fits line) : verdict line = tooLong := if_neg h

/-- A line that lost its beginning is still answered as a whole when that was nothing, or the carriage return of an
empty line. -/
theorem verdict_append_iff (discarded : List UInt8) {line : List UInt8} (h : Fits line) :
    verdict (discarded ++ line) = .line (dropCr line) ↔ discarded = [] ∨ (discarded = [13] ∧ line = []) := by
  constructor
  · intro hverdict
    have hfits : Fits (discarded ++ line) := by
      by_contra hnot
      rw [verdict_of_not_fits hnot] at hverdict
      cases hverdict
    rw [verdict_of_fits hfits] at hverdict
    have hsame : dropCr (discarded ++ line) = dropCr line := Outcome.line.inj hverdict
    by_cases hline : line = []
    · subst hline
      rw [List.append_nil] at hsame
      have hlength : discarded.length ≤ 1 := by
        have hle := length_le_dropCr discarded
        rwa [hsame] at hle
      cases discarded with
      | nil => exact .inl rfl
      | cons b rest =>
        obtain rfl := List.length_eq_zero_iff.mp (Nat.le_zero.mp (Nat.le_of_succ_le_succ hlength))
        refine .inr ⟨?_, rfl⟩
        by_contra hb
        have hkeep : dropCr [b] = [b] := if_neg fun hlast => hb (congrArg (fun x => [x]) (Option.some.inj hlast))
        rw [hkeep] at hsame
        cases hsame
    · rw [dropCr_append _ hline] at hsame
      exact .inl (List.append_left_eq_self.mp hsame)
  · intro hcases
    rcases hcases with rfl | ⟨rfl, rfl⟩
    · exact verdict_of_fits h
    · rfl

/-- A buffer is answered as it should be when only its last line is too long. -/
theorem popped_eq_iff (lines : List (List UInt8)) :
    popped lines = lines.map verdict ↔ ∀ line ∈ lines.dropLast, Fits line := by
  induction lines with
  | nil => exact iff_of_true rfl (fun line h => absurd h List.not_mem_nil)
  | cons line more ih =>
    have hfirst := popped.eq_2 line more
    cases more with
    | nil =>
      refine iff_of_true ?_ (fun l h => absurd h List.not_mem_nil)
      rw [hfirst, List.map_cons, verdict]
      split
      · rfl
      · rfl
    | cons next more =>
      rw [hfirst, List.dropLast_cons_cons, List.forall_mem_cons, ← ih, List.map_cons]
      by_cases hfits : Fits line
      · rw [if_pos hfits, verdict_of_fits hfits, List.cons.injEq]
        exact ⟨fun h => ⟨hfits, h.2⟩, fun h => ⟨rfl, h.2⟩⟩
      · rw [if_neg hfits, verdict_of_not_fits hfits]
        exact iff_of_false (fun h => by cases h) (fun h => hfits h.1)

/-- What completes a line that lost its beginning is answered as it should be. -/
theorem popped_eq_append_iff (discarded line : List UInt8) (more : List (List UInt8)) :
    popped (line :: more) = ((discarded ++ line) :: more).map verdict ↔
      (∀ l ∈ (line :: more).dropLast, Fits l) ∧
        (discarded = [] ∨ ¬ Fits line ∨ (discarded = [13] ∧ line = [])) := by
  rw [popped, List.map_cons]
  by_cases hfits : Fits line
  · rw [if_pos hfits, List.cons.injEq, eq_comm, verdict_append_iff discarded hfits, popped_eq_iff, and_comm]
    refine and_congr ?_ (or_congr_right (or_iff_right (not_not_intro hfits)).symm)
    cases more with
    | nil => exact Iff.rfl
    | cons next more =>
      rw [List.dropLast_cons_cons, List.forall_mem_cons]
      exact (and_iff_right hfits).symm
  · rw [if_neg hfits, verdict_of_not_fits (not_fits_append discarded hfits), List.cons.injEq]
    cases more with
    | nil => exact iff_of_true ⟨rfl, rfl⟩ ⟨fun l h => absurd h List.not_mem_nil, .inr (.inl hfits)⟩
    | cons next more =>
      refine iff_of_false (fun h => by cases h.2) (fun h => hfits (h.1 line ?_))
      rw [List.dropLast_cons_cons]
      exact List.mem_cons_self ..

namespace SocketClient

/-- A first line that does not fit takes the whole buffer with it. -/
theorem tryPopLine_tooLong {s : SocketClient} {body rest : List UInt8} (hbody : 10 ∉ body)
    (hbuffer : s.buffer = body ++ 10 :: rest) (hlong : ¬ Fits body) :
    s.tryPopLine lineBufferSize = ({ s with buffer := [] }, tooLong) := by
  have hlength : body.length ≠ (body ++ 10 :: rest).length := by
    rw [List.length_append, List.length_cons]
    omega
  simp only [tryPopLine, hbuffer, takeWhile_line hbody]
  rw [if_neg hlength, if_pos (Nat.not_lt.mp hlong)]
  rfl

/-- Popping answers the first line, and leaves the others or nothing. -/
theorem tryPopLine_popped {s : SocketClient} (h : 10 ∈ s.buffer) :
    ∃ buffer answer, s.tryPopLine lineBufferSize = ({ s with buffer := buffer }, answer) ∧ answer.isAnswer = true ∧
      buffer <:+ s.buffer ∧ (Framing.lines 10 buffer).length ≤ (Framing.lines 10 s.buffer).length - 1 ∧
      answer :: popped (Framing.lines 10 buffer) = popped (Framing.lines 10 s.buffer) := by
  rcases Framing.first_line 10 s.buffer with hno | ⟨body, rest, hbody, hbuffer⟩
  · exact absurd h hno
  have hlines : Framing.lines 10 s.buffer = body :: Framing.lines 10 rest := by
    rw [hbuffer]
    exact (Framing.lines_cons hbody rest).1
  rw [hlines, popped]
  by_cases hfits : Fits body
  · refine ⟨rest, .line (dropCr body), tryPopLine_line hbody hbuffer hfits, rfl, ?_, Nat.le_refl _, (if_pos hfits).symm⟩
    exact ⟨body ++ [10], by rw [hbuffer, List.append_assoc]; rfl⟩
  · exact ⟨[], tooLong, tryPopLine_tooLong hbody hbuffer hfits, by decide, List.nil_suffix, Nat.zero_le _,
      (if_neg hfits).symm⟩

end SocketClient

namespace Calls

/-- The socket times out or gives bytes. -/
def Answers : Wait → Prop
  | .timedOut => True
  | .readable (.bytes _) => True
  | _ => False

theorem answers_concat (s : Calls) (client : SocketClient) (received : List UInt8) {outcome : Outcome}
    (h : outcome.isAnswer = true) :
    answers { client := client, received := received, outcomes := s.outcomes ++ [outcome] } =
      s.answers ++ [outcome] := by
  unfold answers
  rw [List.filter_append, List.filter_cons_of_pos h, List.filter_nil]

theorem answers_concat_other (s : Calls) (client : SocketClient) (received : List UInt8) {outcome : Outcome}
    (h : outcome.isAnswer = false) :
    answers { client := client, received := received, outcomes := s.outcomes ++ [outcome] } = s.answers := by
  unfold answers
  rw [List.filter_append, List.filter_cons_of_neg (Bool.eq_false_iff.mp h), List.filter_nil, List.append_nil]

theorem popped_of_no_line {buffer : List UInt8} (h : 10 ∉ buffer) : popped (Framing.lines 10 buffer) = [] := by
  rw [(Framing.lines_eq_nil h).1]
  rfl

/-- A call that had these bytes gave the first answer of them and left the rest. -/
structure TookFrom (s : Calls) (bytes : List UInt8) (result : SocketClient × Outcome) : Prop where
  connected : result.1.connected = true
  suffix : result.1.buffer <:+ bytes
  shorter : (Framing.lines 10 result.1.buffer).length ≤ (Framing.lines 10 bytes).length - 1
  answers : ∀ received,
    Calls.answers { client := result.1, received := received, outcomes := s.outcomes ++ [result.2] } ++
      popped (Framing.lines 10 result.1.buffer) = s.answers ++ popped (Framing.lines 10 bytes)

theorem no_lines {buffer : List UInt8} (h : 10 ∉ buffer) (n : Nat) : (Framing.lines 10 buffer).length ≤ n := by
  rw [(Framing.lines_eq_nil h).1]
  exact Nat.zero_le n

theorem tookFrom_pop (s : Calls) (bytes : List UInt8) :
    TookFrom s bytes (SocketClient.tryPopLine { buffer := bytes } lineBufferSize) := by
  by_cases hline : 10 ∈ bytes
  · obtain ⟨buffer, answer, hpop, hanswer, hsuffix, hshorter, hpopped⟩ :=
      SocketClient.tryPopLine_popped (s := { buffer := bytes }) hline
    rw [hpop]
    refine ⟨rfl, hsuffix, hshorter, fun received => ?_⟩
    rw [answers_concat s _ received hanswer, List.append_assoc]
    exact congrArg (s.answers ++ ·) hpopped
  · rw [SocketClient.tryPopLine_none (s := { buffer := bytes }) hline]
    refine ⟨rfl, List.suffix_rfl, no_lines hline _, fun received => ?_⟩
    rw [answers_concat_other s _ received rfl]

/-- A call gives the first answer of what it then has in the buffer, and keeps the rest for later calls. -/
theorem call_tookFrom {s : Calls} (hconnected : s.client.connected = true) {wait : Wait} (hwait : Answers wait) :
    TookFrom s (s.client.buffer ++ taken s.client wait) (s.client.receiveLine lineBufferSize wait) := by
  obtain ⟨client, received, outcomes⟩ := s
  obtain ⟨connected, buffer⟩ := client
  obtain rfl : connected = true := hconnected
  rw [SocketClient.receiveLine_eq (s := { buffer := buffer }) rfl wait]
  by_cases hline : 10 ∈ buffer
  · have htaken : taken { buffer := buffer } wait = [] := taken_of_line hline wait
    rw [if_pos hline, htaken, List.append_nil]
    exact tookFrom_pop _ buffer
  · rw [if_neg hline]
    cases wait with
    | failed code => exact hwait.elim
    | timedOut =>
      have htaken : taken { buffer := buffer } .timedOut = [] := rfl
      rw [htaken, List.append_nil]
      refine ⟨rfl, List.suffix_rfl, no_lines hline _, fun received' => ?_⟩
      rw [answers_concat_other _ _ received' rfl]
    | readable result =>
      cases result with
      | closed => exact hwait.elim
      | failed code => exact hwait.elim
      | bytes chunk =>
        dsimp only
        by_cases hfull : recvBufferSize ≤ buffer.length
        · have htaken : taken { buffer := buffer } (.readable (.bytes chunk)) = [] := if_pos (.inr hfull)
          rw [if_pos hfull, htaken, List.append_nil]
          refine ⟨rfl, List.nil_suffix, Nat.zero_le _, fun received' => ?_⟩
          rw [answers_concat_other _ _ received' (by decide), popped_of_no_line hline]
          rfl
        · have htaken : taken { buffer := buffer } (.readable (.bytes chunk)) = chunk :=
            if_neg (not_or.mpr ⟨hline, hfull⟩)
          rw [if_neg hfull, htaken, SocketClient.receiveBytes]
          exact tookFrom_pop _ (buffer ++ chunk)

theorem drain_loop_answers (calls : Nat) {s : Calls} (hconnected : s.client.connected = true)
    (hcalls : (Framing.lines 10 s.client.buffer).length ≤ calls) :
    ((List.replicate calls .timedOut).foldl call s).answers =
      s.answers ++ popped (Framing.lines 10 s.client.buffer) := by
  induction calls generalizing s with
  | zero =>
    rw [List.length_eq_zero_iff.mp (Nat.le_zero.mp hcalls)]
    exact (List.append_nil _).symm
  | succ calls ih =>
    have hwait : Answers .timedOut := trivial
    have htook := call_tookFrom hconnected hwait
    have htaken : taken s.client .timedOut = [] := rfl
    rw [htaken, List.append_nil] at htook
    have hshorter := htook.shorter
    rw [List.replicate_succ, List.foldl_cons, ih (s := s.call .timedOut) htook.connected]
    · exact htook.answers _
    · exact hshorter.trans (by omega)

/-- Draining gives all answers that popping the buffer reaches. -/
theorem drain_answers {s : Calls} (hconnected : s.client.connected = true) :
    s.drain.answers = s.answers ++ popped (Framing.lines 10 s.client.buffer) :=
  drain_loop_answers s.client.buffer.length hconnected (Framing.length_lines_le s.client.buffer)

/-- The connection stands, and the buffer holds the last bytes received. -/
structure Holds (s : Calls) : Prop where
  connected : s.client.connected = true
  buffer : s.client.buffer <:+ s.received

theorem call_holds {s : Calls} (h : Holds s) {wait : Wait} (hwait : Answers wait) : Holds (s.call wait) := by
  have htook := call_tookFrom h.connected hwait
  obtain ⟨consumed, hconsumed⟩ := h.buffer
  refine ⟨htook.connected, htook.suffix.trans ⟨consumed, ?_⟩⟩
  rw [← List.append_assoc, hconsumed]
  rfl

theorem answers_of_delivers {stream : List UInt8} {s : Calls} {wait : Wait} (h : Delivers stream s wait) :
    Answers wait := by
  cases wait with
  | timedOut => trivial
  | failed code => exact h
  | readable result =>
    cases result with
    | bytes chunk => trivial
    | closed => exact h
    | failed code => exact h

/-- The line in progress is what was thrown away of it and what the buffer holds. -/
theorem tail_received {s : Calls} (h : Holds s) (hline : 10 ∉ s.client.buffer) :
    Framing.tail 10 s.received = s.discarded ++ s.client.buffer := by
  obtain ⟨consumed, hconsumed⟩ := h.buffer
  have htake : s.received.take (s.received.length - s.client.buffer.length) = consumed := by
    rw [← hconsumed, List.length_append, Nat.add_sub_cancel, List.take_left]
  have hwhole : 10 ∉ Framing.tail 10 consumed ++ s.client.buffer := by
    rw [List.mem_append]
    exact not_or.mpr ⟨Framing.not_mem_tail consumed, hline⟩
  rw [discarded, htake, ← hconsumed, (Framing.lines_append 10 consumed s.client.buffer).2]
  exact (Framing.lines_eq_nil hwhole).2

theorem transcript_append {s : Calls} (h : Holds s) (hline : 10 ∉ s.client.buffer) (chunk : List UInt8) :
    transcript (s.received ++ chunk) =
      transcript s.received ++ transcript (s.discarded ++ (s.client.buffer ++ chunk)) := by
  rw [transcript, (Framing.lines_append 10 s.received chunk).1, tail_received h hline, List.map_append,
    List.append_assoc]
  rfl

theorem not_mem_discarded (s : Calls) : 10 ∉ s.discarded := Framing.not_mem_tail _

theorem call_answered_iff {s : Calls} (h : Holds s) {wait : Wait} (hwait : Answers wait) (hanswered : Answered s) :
    Answered (s.call wait) ↔ Resynchronises s wait := by
  have htook := call_tookFrom h.connected hwait
  have hafter : (s.call wait).drain.answers =
      s.answers ++ popped (Framing.lines 10 (s.client.buffer ++ taken s.client wait)) :=
    (drain_answers (s := s.call wait) htook.connected).trans (htook.answers _)
  have hbefore : s.answers ++ popped (Framing.lines 10 s.client.buffer) = transcript s.received :=
    (drain_answers h.connected).symm.trans hanswered
  change (s.call wait).drain.answers = transcript (s.received ++ taken s.client wait) ↔ _
  rw [hafter, Resynchronises]
  generalize htaken : taken s.client wait = chunk
  by_cases hchunk : chunk = []
  · subst hchunk
    rw [List.append_nil, List.append_nil]
    exact iff_of_true hbefore fun hnone => absurd rfl hnone
  have hline : 10 ∉ s.client.buffer := fun hline => hchunk (htaken.symm.trans (taken_of_line hline wait))
  rw [popped_of_no_line hline, List.append_nil] at hbefore
  rw [transcript_append h hline, hbefore, List.append_cancel_left_eq, transcript]
  rcases Framing.first_line 10 (s.client.buffer ++ chunk) with hno | ⟨body, rest, hbody, hsplit⟩
  · have hwhole : 10 ∉ s.discarded ++ (s.client.buffer ++ chunk) := by
      rw [List.mem_append]
      exact not_or.mpr ⟨not_mem_discarded s, hno⟩
    rw [(Framing.lines_eq_nil hno).1, (Framing.lines_eq_nil hwhole).1]
    exact iff_of_true rfl fun _ => ⟨fun l hl => absurd hl List.not_mem_nil, fun l hl => by cases hl⟩
  · have hwhole : 10 ∉ s.discarded ++ body := by
      rw [List.mem_append]
      exact not_or.mpr ⟨not_mem_discarded s, hbody⟩
    rw [hsplit, ← List.append_assoc, (Framing.lines_cons hbody rest).1, (Framing.lines_cons hwhole rest).1,
      popped_eq_append_iff]
    constructor
    · intro hcond _
      refine ⟨hcond.1, fun line hfirst => ?_⟩
      obtain rfl := Option.some.inj hfirst
      exact hcond.2
    · intro hcond
      obtain ⟨hfit, hfirst⟩ := hcond hchunk
      exact ⟨hfit, hfirst body rfl⟩

/-- On every stream, in whatever pieces it comes, the calls resynchronise after every line that is too long exactly
when each call that receives bytes meets the condition. -/
theorem lines_resynchronised_iff (stream : List UInt8) (waits : List Wait)
    (hwaits : Run.Along call (Delivers stream) {} waits) :
    (∀ s ∈ Run.states call {} waits, Answered s) ↔ Run.Along call Resynchronises {} waits := by
  have hstart : Holds {} := ⟨rfl, List.suffix_rfl⟩
  have hanswered : Answered {} := rfl
  exact Run.forall_states_iff_along_within call (P := Delivers stream) (Q := Resynchronises) (I := Holds)
    (G := Answered) (fun _ _ h hwait => call_holds h (answers_of_delivers hwait))
    (fun _ _ h hwait => call_answered_iff h (answers_of_delivers hwait)) hstart hanswered hwaits

theorem split_resynchronised : Answered (splitWaits.foldl call {}) := by
  refine (lines_resynchronised_iff [65, 13, 10, 66, 67, 10, 68] splitWaits ?_).mpr (by decide) _
    (Run.foldl_mem_states call {} splitWaits)
  exact ⟨⟨by decide, by decide, fun _ => by decide⟩, trivial, ⟨by decide, by decide, fun _ => by decide⟩,
    ⟨by decide, by decide, fun _ => by decide⟩, trivial, trivial⟩

/-- A line one byte too long. -/
def longLine : List UInt8 := List.replicate lineBufferSize 65

theorem longLine_no_newline : 10 ∉ longLine := fun h => absurd (List.eq_of_mem_replicate h) (by decide)

theorem longLine_not_fits : ¬ Fits longLine := by
  have hlast : longLine.getLast? ≠ some 13 := fun h =>
    absurd (List.eq_of_mem_replicate (List.mem_of_getLast? h)) (by decide)
  rw [Fits, dropCr, if_neg hlast, longLine, List.length_replicate]
  exact Nat.lt_irrefl _

/-- A line received in one piece with a line that is too long before it is lost. -/
theorem line_behind_long_lost :
    ¬ ∀ (stream : List UInt8) (waits : List Wait), Run.Along call (Delivers stream) {} waits →
      ∀ s ∈ Run.states call {} waits, Answered s := by
  intro h
  have hlength : longLine.length = lineBufferSize := List.length_replicate
  have hcall : call {} (.readable (.bytes (longLine ++ 10 :: [66, 10]))) =
      { client := {}, received := longLine ++ 10 :: [66, 10], outcomes := [tooLong] } := by
    have hreceive := SocketClient.receiveLine_eq (s := {}) rfl (.readable (.bytes (longLine ++ 10 :: [66, 10])))
    rw [if_neg (by decide)] at hreceive
    dsimp only at hreceive
    rw [if_neg (by decide), SocketClient.receiveBytes, List.nil_append,
      SocketClient.tryPopLine_tooLong (s := { buffer := longLine ++ 10 :: [66, 10] }) longLine_no_newline rfl
        longLine_not_fits] at hreceive
    have htaken : taken {} (.readable (.bytes (longLine ++ 10 :: [66, 10]))) = longLine ++ 10 :: [66, 10] := by
      rw [taken]
      exact if_neg (by decide)
    rw [call, hreceive, htaken]
    rfl
  have hanswered := h (longLine ++ 10 :: [66, 10]) [.readable (.bytes (longLine ++ 10 :: [66, 10]))] ?_ _
    (Run.foldl_mem_states call {} _)
  · rw [List.foldl_cons, List.foldl_nil, hcall, Answered, transcript, (Framing.lines_cons longLine_no_newline _).1]
      at hanswered
    exact absurd (congrArg List.length hanswered) (by decide)
  · refine ⟨⟨?_, List.prefix_rfl, fun _ => ?_⟩, trivial⟩
    · exact List.append_ne_nil_of_right_ne_nil _ (List.cons_ne_nil _ _)
    · rw [List.length_append, hlength]
      decide

end Calls
end DynvarSync.Windbg
