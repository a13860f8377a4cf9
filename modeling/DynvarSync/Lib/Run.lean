/-! Runs of a deterministic machine: the states a list of events passes through,
conditions met at every event, and the rules that carry facts along a run. -/
namespace DynvarSync.Lib.Run

variable {σ ε : Type} (step : σ → ε → σ)

/-- The states of a run, the first one included. -/
def states (s : σ) : List ε → List σ
  | [] => [s]
  | e :: rest => s :: states (step s e) rest

/-- Every event of the run meets `P` in the state it happens in. -/
def Along (P : σ → ε → Prop) (s : σ) : List ε → Prop
  | [] => True
  | e :: rest => P s e ∧ Along P (step s e) rest

instance decidableAlong (P : σ → ε → Prop) [∀ s e, Decidable (P s e)] :
    ∀ (events : List ε) (s : σ), Decidable (Along step P s events)
  | [], _ => isTrue trivial
  | e :: rest, s =>
    have := decidableAlong P rest (step s e)
    inferInstanceAs (Decidable (P s e ∧ Along step P (step s e) rest))

theorem along_append {P : σ → ε → Prop} {s : σ} (before after : List ε) :
    Along step P s (before ++ after) ↔ Along step P s before ∧ Along step P (before.foldl step s) after := by
  induction before generalizing s with
  | nil => exact ⟨fun h => ⟨trivial, h⟩, fun h => h.2⟩
  | cons e before ih => rw [List.cons_append, Along, Along, ih, List.foldl_cons, and_assoc]

/-- What every event meets in every state, every run meets. -/
theorem along_of_forall {P : σ → ε → Prop} (h : ∀ s e, P s e) (s : σ) (events : List ε) : Along step P s events := by
  induction events generalizing s with
  | nil => trivial
  | cons e rest ih => exact ⟨h s e, ih (step s e)⟩

theorem along_of_forall_mem {P : ε → Prop} {events : List ε} (h : ∀ e ∈ events, P e) (s : σ) :
    Along step (fun _ e => P e) s events := by
  induction events generalizing s with
  | nil => trivial
  | cons e rest ih =>
    obtain ⟨he, hrest⟩ := List.forall_mem_cons.mp h
    exact ⟨he, ih hrest (step s e)⟩

theorem mem_states_self (s : σ) (events : List ε) : s ∈ states step s events := by
  cases events <;> simp [states]

theorem foldl_mem_states (s : σ) (events : List ε) : events.foldl step s ∈ states step s events := by
  induction events generalizing s with
  | nil => exact List.mem_singleton_self s
  | cons e rest ih => exact List.mem_cons_of_mem s (ih (step s e))

/-- What every event preserves holds in every state of a run. -/
theorem invariant {I : σ → Prop} (hstep : ∀ s e, I s → I (step s e)) {s : σ} (hs : I s) (events : List ε) :
    ∀ t ∈ states step s events, I t := by
  induction events generalizing s with
  | nil =>
    intro t ht
    rwa [List.mem_singleton.mp ht]
  | cons e rest ih =>
    intro t ht
    rcases List.mem_cons.mp ht with rfl | ht
    · exact hs
    · exact ih (hstep s e hs) t ht

/-- What every event that meets `P` preserves holds along a run that meets `P`. -/
theorem invariant_along {P : σ → ε → Prop} {I : σ → Prop} (hstep : ∀ s e, I s → P s e → I (step s e)) {s : σ}
    (hs : I s) {events : List ε} (halong : Along step P s events) : ∀ t ∈ states step s events, I t := by
  induction events generalizing s with
  | nil =>
    intro t ht
    rwa [List.mem_singleton.mp ht]
  | cons e rest ih =>
    intro t ht
    rcases List.mem_cons.mp ht with rfl | ht
    · exact hs
    · exact ih (hstep s e hs halong.1) halong.2 t ht

/-- A condition that keeps an invariant, and with it implies another condition, implies it all along. -/
theorem along_imp {P Q : σ → ε → Prop} {I : σ → Prop} (hstep : ∀ s e, I s → P s e → I (step s e))
    (himp : ∀ s e, I s → P s e → Q s e) {s : σ} (hs : I s) {events : List ε} (halong : Along step P s events) :
    Along step Q s events := by
  induction events generalizing s with
  | nil => trivial
  | cons e rest ih => exact ⟨himp s e hs halong.1, ih (hstep s e hs halong.1) halong.2⟩

/-- Conditions that agree wherever an invariant holds agree along every run. -/
theorem along_congr {P Q : σ → ε → Prop} {I : σ → Prop} (hstep : ∀ s e, I s → I (step s e))
    (hcongr : ∀ s e, I s → (P s e ↔ Q s e)) {s : σ} (hs : I s) (events : List ε) :
    Along step P s events ↔ Along step Q s events := by
  induction events generalizing s with
  | nil => exact Iff.rfl
  | cons e rest ih => exact and_congr (hcongr s e hs) (ih (hstep s e hs))

/-- If along `P` an event leads from good to good exactly when it meets `Q`, the good runs along `P` are those along
`Q` as well. -/
theorem forall_states_iff_along_within {P Q : σ → ε → Prop} {I G : σ → Prop}
    (hI : ∀ s e, I s → P s e → I (step s e)) (hG : ∀ s e, I s → P s e → G s → (G (step s e) ↔ Q s e)) {s : σ}
    (hs : I s) (hgood : G s) {events : List ε} (halong : Along step P s events) :
    (∀ t ∈ states step s events, G t) ↔ Along step Q s events := by
  induction events generalizing s with
  | nil => exact iff_of_true (fun t ht => List.mem_singleton.mp ht ▸ hgood) trivial
  | cons e rest ih =>
    obtain ⟨hP, halong⟩ := halong
    rw [states, List.forall_mem_cons, Along]
    constructor
    · rintro ⟨_, hrest⟩
      have hnext := hrest _ (mem_states_self step _ rest)
      exact ⟨(hG s e hs hP hgood).mp hnext, (ih (hI s e hs hP) hnext halong).mp hrest⟩
    · rintro ⟨hQ, hrest⟩
      have hnext := (hG s e hs hP hgood).mpr hQ
      exact ⟨hgood, (ih (hI s e hs hP) hnext halong).mpr hrest⟩

/-- If an event leads from good to good exactly when it meets `P`, the good runs are those along `P`. -/
theorem forall_states_iff_along {P : σ → ε → Prop} {I G : σ → Prop} (hI : ∀ s e, I s → I (step s e))
    (hG : ∀ s e, I s → G s → (G (step s e) ↔ P s e)) {s : σ} (hs : I s) (hgood : G s) (events : List ε) :
    (∀ t ∈ states step s events, G t) ↔ Along step P s events :=
  forall_states_iff_along_within step (P := fun _ _ => True) (fun s e hs _ => hI s e hs) (fun s e hs _ => hG s e hs)
    hs hgood (along_of_forall step (fun _ _ => trivial) s events)

/-- Events that serve a queue's first entry, and keep an invariant, serve the whole queue when repeated. -/
theorem drains {α : Type} (queue : σ → List α) (serve : List ε) {I : σ → Prop}
    (hserve : ∀ s a rest, I s → queue s = a :: rest →
      queue (serve.foldl step s) = rest ∧ I (serve.foldl step s)) {s : σ} (hs : I s) :
    ∃ events : List ε, (∀ e ∈ events, e ∈ serve) ∧ queue (events.foldl step s) = [] ∧ I (events.foldl step s) := by
  generalize hqueue : queue s = entries
  induction entries generalizing s with
  | nil => exact ⟨[], nofun, hqueue, hs⟩
  | cons a rest ih =>
    obtain ⟨hrest, hnext⟩ := hserve s a rest hs hqueue
    obtain ⟨events, hevents, hdone, hkept⟩ := ih hnext hrest
    refine ⟨serve ++ events, List.forall_mem_append.mpr ⟨fun _ h => h, hevents⟩, ?_, ?_⟩
    · rw [List.foldl_append]
      exact hdone
    · rw [List.foldl_append]
      exact hkept

end DynvarSync.Lib.Run
