import DynvarSync.Lib.Run

/-! A queue that any thread puts messages on, and one consumer that is woken after each put and
then takes until nothing is left. -/
namespace DynvarSync.Lib.Mailbox

variable {α ε β σ : Type}

/-- How the consumer handles a message with what it is answered meanwhile, whether that raises, and what else it
does. -/
structure Consumer (α ε β σ : Type) where
  handle : σ → ε → α → σ
  raises : σ → ε → α → Bool
  act : σ → β → σ

/-- The threads between a put and its wake-up call, the calls that wait, and the drain that is going on, with all that
was put, all the consumer has done, and whether a call has failed or a handling raised since a drain ran to its end. -/
structure State (α ε β σ : Type) where
  consumer : σ
  queue : List α := []
  putting : Nat := 0
  woken : Nat := 0
  draining : Bool := false
  allPut : List α := []
  log : List (ε × α ⊕ β) := []
  stranded : Bool := false

inductive Event (α ε β : Type) where
  | put (a : α)
  | wake (reached : Bool)
  | start
  | take (answer : ε)
  | act (b : β)

/-- A drain ends when nothing is left or a handling raises; other actions wait for its end. -/
def step (c : Consumer α ε β σ) (s : State α ε β σ) : Event α ε β → State α ε β σ
  | .put a => { s with queue := s.queue ++ [a], putting := s.putting + 1, allPut := s.allPut ++ [a] }
  | .wake reached =>
    if s.putting = 0 then s
    else if reached then { s with putting := s.putting - 1, woken := s.woken + 1 }
    else { s with putting := s.putting - 1, stranded := true }
  | .start => if s.draining ∨ s.woken = 0 then s else { s with woken := s.woken - 1, draining := true }
  | .take answer =>
    if s.draining then
      match s.queue with
      | [] => { s with draining := false, stranded := false }
      | a :: rest =>
        { s with
          consumer := c.handle s.consumer answer a
          queue := rest
          draining := !c.raises s.consumer answer a
          log := s.log ++ [.inl (answer, a)]
          stranded := s.stranded || c.raises s.consumer answer a }
    else s
  | .act b => if s.draining then s else { s with consumer := c.act s.consumer b, log := s.log ++ [.inr b] }

/-- What the consumer has done, done again. -/
def perform (c : Consumer α ε β σ) (s : σ) : ε × α ⊕ β → σ
  | .inl (answer, a) => c.handle s answer a
  | .inr b => c.act s b

def taken : ε × α ⊕ β → Option α
  | .inl (_, a) => some a
  | .inr _ => none

/-- Nothing is lost, doubled or reordered, and what waits is waited for. -/
structure Holds (c : Consumer α ε β σ) (start : σ) (s : State α ε β σ) : Prop where
  order : s.allPut = s.log.filterMap taken ++ s.queue
  replayed : s.consumer = s.log.foldl (perform c) start
  served : s.queue ≠ [] → s.putting ≠ 0 ∨ s.woken ≠ 0 ∨ s.draining = true ∨ s.stranded = true

section steps
variable {c : Consumer α ε β σ} {start : σ} {s : State α ε β σ}

theorem holds_put (h : Holds c start s) (a : α) : Holds c start (step c s (.put a)) := by
  refine ⟨?_, h.replayed, fun _ => .inl (Nat.succ_ne_zero _)⟩
  change s.allPut ++ [a] = s.log.filterMap taken ++ (s.queue ++ [a])
  rw [h.order, List.append_assoc]

theorem holds_wake (h : Holds c start s) (reached : Bool) : Holds c start (step c s (.wake reached)) := by
  rw [step]
  split
  · exact h
  · split
    · exact ⟨h.order, h.replayed, fun _ => .inr (.inl (Nat.succ_ne_zero _))⟩
    · exact ⟨h.order, h.replayed, fun _ => .inr (.inr (.inr rfl))⟩

theorem holds_start (h : Holds c start s) : Holds c start (step c s .start) := by
  rw [step]
  split
  · exact h
  · exact ⟨h.order, h.replayed, fun _ => .inr (.inr (.inl rfl))⟩

theorem holds_take (h : Holds c start s) (answer : ε) : Holds c start (step c s (.take answer)) := by
  rw [step]
  split
  · cases hqueue : s.queue with
    | nil =>
      refine ⟨?_, h.replayed, fun hne => absurd rfl hne⟩
      change s.allPut = s.log.filterMap taken ++ []
      rw [h.order, hqueue]
    | cons a rest =>
      refine ⟨?_, ?_, fun _ => ?_⟩
      · change s.allPut = (s.log ++ [Sum.inl (answer, a)]).filterMap taken ++ rest
        rw [h.order, hqueue, List.filterMap_append, List.append_assoc]
        rfl
      · change c.handle s.consumer answer a = (s.log ++ [Sum.inl (answer, a)]).foldl (perform c) start
        rw [List.foldl_append, ← h.replayed]
        rfl
      · cases hraises : c.raises s.consumer answer a with
        | false => exact .inr (.inr (.inl (congrArg not hraises)))
        | true => exact .inr (.inr (.inr ((congrArg (s.stranded || ·) hraises).trans (Bool.or_true _))))
  · exact h

theorem holds_act (h : Holds c start s) (b : β) : Holds c start (step c s (.act b)) := by
  rw [step]
  split
  · exact h
  · refine ⟨?_, ?_, h.served⟩
    · change s.allPut = (s.log ++ [Sum.inr b]).filterMap taken ++ s.queue
      rw [h.order, List.filterMap_append]
      exact congrArg (· ++ s.queue) (List.append_nil _).symm
    · change c.act s.consumer b = (s.log ++ [Sum.inr b]).foldl (perform c) start
      rw [List.foldl_append, ← h.replayed]
      rfl

end steps

/-- Whatever the threads do in whatever order, the messages put are those handled, in order, and then those queued. -/
theorem run_holds (c : Consumer α ε β σ) (start : σ) (events : List (Event α ε β)) :
    Holds c start (events.foldl (step c) { consumer := start }) := by
  have hstep : ∀ s event, Holds c start s → Holds c start (step c s event) := by
    intro s event h
    cases event with
    | put a => exact holds_put h a
    | wake reached => exact holds_wake h reached
    | start => exact holds_start h
    | take answer => exact holds_take h answer
    | act b => exact holds_act h b
  have hinitial : Holds c start ({ consumer := start } : State α ε β σ) := ⟨rfl, rfl, fun hne => absurd rfl hne⟩
  exact Run.invariant (step c) hstep hinitial events _ (Run.foldl_mem_states _ _ events)

end DynvarSync.Lib.Mailbox
