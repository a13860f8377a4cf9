import DynvarSync.Lib.Dict
import Mathlib.Logic.Relation

/-! A table of outstanding requests in two stages. An opening request stands
alone; its answer may plan any number of follow-ups, each answered on its own. -/
namespace DynvarSync.Lib

/-- Which entries are opening requests and which are follow-ups, by key and content. -/
structure RequestScheme (ι ρ : Type) where
  Opening : ι → ρ → Prop
  FollowUp : ι → ρ → Prop
  disjoint : ∀ {i j : ι} {p q : ρ}, Opening i p → FollowUp j q → j ≠ i

namespace RequestScheme
variable {ι ρ : Type} [DecidableEq ι] (S : RequestScheme ι ρ) {d e f : Dict ι ρ} {i : ι}

/-- Every entry is of one of the two stages, and an opening one has the table to itself. -/
structure Valid (d : Dict ι ρ) : Prop where
  stages : ∀ i p, d.get? i = some p → S.Opening i p ∨ S.FollowUp i p
  alone : ∀ i p j, d.get? i = some p → S.Opening i p → d.get? j ≠ none → j = i

/-- Only follow-ups are outstanding. -/
def Following (d : Dict ι ρ) : Prop := ∀ i p, d.get? i = some p → S.FollowUp i p

/-- New or replaced entries are follow-ups. -/
def Extends (d e : Dict ι ρ) : Prop := ∀ i, e.get? i = d.get? i ∨ ∃ p, e.get? i = some p ∧ S.FollowUp i p

/-- The answer to `i` is accepted: its entry is consumed, and an opening one may
be replaced by follow-ups. -/
inductive Accept (i : ι) (d e : Dict ι ρ) : Prop
  | opening (p : ρ) (hp : d.get? i = some p) (ho : S.Opening i p) (he : S.Extends (d.pop i) e)
  | followUp (p : ρ) (hp : d.get? i = some p) (hf : S.FollowUp i p) (he : e.Same (d.pop i))

/-- What can happen to the table while no new opening request is made. -/
inductive Step (d e : Dict ι ρ) : Prop
  | refuse (h : e.Same d)
  | accept (i : ι) (h : S.Accept i d e)
  | clear (h : e = Dict.empty)

variable {S}

theorem Extends.refl (d : Dict ι ρ) : S.Extends d d := fun _ => .inl rfl

theorem Extends.trans (h : S.Extends d e) (h' : S.Extends e f) : S.Extends d f := by
  intro i
  rcases h' i with hi | hi
  · rw [hi]
    exact h i
  · exact .inr hi

theorem Extends.set (d : Dict ι ρ) {p : ρ} (h : S.FollowUp i p) : S.Extends d (d.set i p) := by
  intro j
  rw [Dict.get?_set]
  split
  · rename_i hj
    exact .inr ⟨p, rfl, hj ▸ h⟩
  · exact .inl rfl

theorem Following.valid (h : S.Following d) : S.Valid d :=
  ⟨fun i p hp => .inr (h i p hp), fun i p _ hp ho => absurd rfl (S.disjoint ho (h i p hp))⟩

theorem valid_empty : S.Valid (Dict.empty : Dict ι ρ) :=
  Following.valid fun i p hp => by simp at hp

theorem valid_opening {p : ρ} (h : S.Opening i p) : S.Valid ((Dict.empty : Dict ι ρ).set i p) := by
  have hget : ∀ j, ((Dict.empty : Dict ι ρ).set i p).get? j = if j = i then some p else none := by
    intro j
    rw [Dict.get?_set, Dict.get?_empty]
  refine ⟨fun j q hq => .inl ?_, fun j q k hq ho hk => ?_⟩
  · rw [hget] at hq
    split at hq
    · rename_i hj
      cases hq
      exact hj ▸ h
    · cases hq
  · rw [hget] at hq hk
    split at hq
    · rename_i hj
      rw [hj]
      by_contra hne
      exact hk (if_neg hne)
    · cases hq

/-- After an accepted answer only follow-ups are left, and the answered entry is gone. -/
theorem Accept.consumes (h : S.Accept i d e) (hv : S.Valid d) : S.Following e ∧ e.get? i = none := by
  cases h with
  | opening p hp ho he =>
    refine ⟨fun j q hq => ?_, ?_⟩
    · rcases he j with hj | ⟨q', hq', hf⟩
      · rw [hj, Dict.get?_pop] at hq
        split at hq
        · cases hq
        · exact absurd (hv.alone i p j hp ho (by simp [hq])) ‹_›
      · rw [hq] at hq'
        cases hq'
        exact hf
    · rcases he i with hi | ⟨q, _, hf⟩
      · rw [hi, Dict.get?_pop_self]
      · exact absurd rfl (S.disjoint ho hf)
  | followUp p hp hf he =>
    refine ⟨fun j q hq => ?_, by rw [he i, Dict.get?_pop_self]⟩
    rw [he j, Dict.get?_pop] at hq
    split at hq
    · cases hq
    · rcases hv.stages j q hq with ho | hf'
      · have hij := hv.alone j q i hq ho (by simp [hp])
        exact absurd hij.symm ‹_›
      · exact hf'

/-- An answer leaves the table as it was, or is accepted under one of its ids. -/
theorem Step.of_answer {accepted : Bool} {named : ι → Prop} (hrefuse : accepted = false → e.Same d)
    (haccept : accepted = true → ∃ i, named i ∧ S.Accept i d e) : S.Step d e := by
  cases accepted with
  | false => exact .refuse (hrefuse rfl)
  | true =>
    obtain ⟨i, _, h⟩ := haccept rfl
    exact .accept i h

theorem Step.valid (h : S.Step d e) (hv : S.Valid d) : S.Valid e := by
  cases h with
  | refuse h =>
    exact ⟨fun i p hp => hv.stages i p (h i ▸ hp), fun i p j hp ho hj => hv.alone i p j (h i ▸ hp) ho (h j ▸ hj)⟩
  | accept i h => exact (h.consumes hv).1.valid
  | clear h => exact h ▸ valid_empty

/-- Among follow-ups nothing absent comes back. -/
theorem Step.following (h : S.Step d e) (hf : S.Following d) :
    S.Following e ∧ (d.get? i = none → e.get? i = none) := by
  cases h with
  | refuse h => exact ⟨fun j q hq => hf j q (h j ▸ hq), fun hi => (h i).trans hi⟩
  | accept j h =>
    refine ⟨(h.consumes hf.valid).1, fun hi => ?_⟩
    cases h with
    | opening p hp ho _ => exact absurd rfl (S.disjoint ho (hf j p hp))
    | followUp p _ _ he =>
      rw [he i, Dict.get?_pop]
      split
      · rfl
      · exact hi
  | clear h => exact ⟨fun j q hq => by simp [h] at hq, fun _ => by simp [h]⟩

/-- A request is answered at most once: whatever follows, its entry stays absent. -/
theorem Accept.absent (h : S.Accept i d e) (hv : S.Valid d) (hlater : Relation.ReflTransGen S.Step e f) :
    f.get? i = none := by
  have hstay : S.Following f ∧ f.get? i = none := by
    induction hlater with
    | refl => exact h.consumes hv
    | tail _ hstep ih => exact ⟨(hstep.following ih.1 (i := i)).1, (hstep.following ih.1).2 ih.2⟩
  exact hstay.2

end RequestScheme
end DynvarSync.Lib
