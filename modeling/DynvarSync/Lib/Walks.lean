import Mathlib.Data.List.Nodup
import Mathlib.Data.List.Perm.Subperm
import Mathlib.Logic.Relation
import Mathlib.Order.WellFounded

/-! Walks of a relation: the infinite ones, the cycles, and how the two meet where
only finitely many nodes can be reached. -/
namespace DynvarSync.Lib.Walks
open Relation

variable {α : Type} {r : α → α → Prop} {a b : α}

/-- The relation can be followed forever. -/
def InfiniteWalk (r : α → α → Prop) (a : α) : Prop := ∃ f : Nat → α, f 0 = a ∧ ∀ n, r (f n) (f (n + 1))

/-- Every walk from the node ends. -/
abbrev Ends (r : α → α → Prop) (a : α) : Prop := Acc (fun x y => r y x) a

theorem not_infiniteWalk_iff : ¬ InfiniteWalk r a ↔ Ends r a :=
  not_iff_comm.mp not_acc_iff_exists_descending_chain

theorem walk_reach {f : Nat → α} (hf : ∀ n, r (f n) (f (n + 1))) {i j : Nat} (h : i < j) : TransGen r (f i) (f j) := by
  induction j with
  | zero => omega
  | succ j ih =>
    rcases Nat.lt_succ_iff_lt_or_eq.mp h with h | rfl
    · exact (ih h).tail (hf j)
    · exact .single (hf i)

theorem length_le_of_subset {l l' : List α} (h : l.Nodup) (hsub : l ⊆ l') : l.length ≤ l'.length :=
  (List.subperm_of_subset h hsub).length_le

/-- A walk that never leaves finitely many nodes comes back to one of them. -/
theorem exists_cycle_of_walk {f : Nat → α} (hf : ∀ n, r (f n) (f (n + 1))) {nodes : List α}
    (hmem : ∀ n, f n ∈ nodes) : ∃ n, TransGen r (f n) (f n) := by
  by_contra hno
  have hne : ∀ i j, i < j → f i ≠ f j := by
    intro i j hij heq
    have hreach := walk_reach hf hij
    rw [← heq] at hreach
    exact hno ⟨i, hreach⟩
  have hnodup : ((List.range (nodes.length + 1)).map f).Nodup := by
    refine List.Nodup.map_on (fun i _ j _ heq => ?_) List.nodup_range
    rcases Nat.lt_trichotomy i j with h | h | h
    · exact absurd heq (hne i j h)
    · exact h
    · exact absurd heq.symm (hne j i h)
  have hlength := length_le_of_subset hnodup fun x hx => by
    obtain ⟨n, _, rfl⟩ := List.mem_map.mp hx
    exact hmem n
  rw [List.length_map, List.length_range] at hlength
  omega

theorem Ends.reach (h : Ends r a) (hab : ReflTransGen r a b) : Ends r b := by
  induction hab with
  | refl => exact h
  | tail _ hstep ih => exact ih.inv hstep

theorem acc_irrefl (h : Acc r a) : ¬ r a a := by
  induction h with
  | intro x _ ih => exact fun hx => ih x hx hx

theorem Ends.no_cycle (h : Ends r a) : ¬ TransGen r a a := by
  intro hcycle
  have hswap : TransGen (Function.swap r) a a := transGen_swap.mpr hcycle
  have hacc : Acc (TransGen (Function.swap r)) a := Acc.transGen h
  exact acc_irrefl hacc hswap

/-- Where only finitely many nodes can be reached, every walk ends unless a cycle can be reached. -/
theorem ends_iff_no_cycle {nodes : List α} (hfinite : ∀ b, ReflTransGen r a b → b ∈ nodes) :
    Ends r a ↔ ∀ b, ReflTransGen r a b → ¬ TransGen r b b := by
  constructor
  · exact fun h b hab => (h.reach hab).no_cycle
  · intro hno
    rw [← not_infiniteWalk_iff]
    rintro ⟨f, rfl, hf⟩
    have hreach : ∀ n, ReflTransGen r (f 0) (f n) := by
      intro n
      induction n with
      | zero => exact .refl
      | succ n ih => exact ih.tail (hf n)
    obtain ⟨n, hcycle⟩ := exists_cycle_of_walk hf fun n => hfinite _ (hreach n)
    exact hno _ (hreach n) hcycle

/-- Among finitely many sources, no node lies on a cycle exactly when every node is well founded. -/
theorem acc_iff_no_cycle {nodes : List α} (hfinite : ∀ a b, r a b → a ∈ nodes) :
    (∀ a, Acc r a) ↔ ∀ a, ¬ TransGen r a a := by
  constructor
  · exact fun h a => acc_irrefl (h a).transGen
  · intro hno a
    by_contra hacc
    obtain ⟨f, _, hf⟩ := not_acc_iff_exists_descending_chain.mp hacc
    have hwalk : ∀ n, Function.swap r (f (n + 1)) (f (n + 1 + 1)) := fun n => hf (n + 1)
    obtain ⟨n, hcycle⟩ := exists_cycle_of_walk hwalk fun n => hfinite _ _ (hf n)
    exact hno _ (transGen_swap.mp hcycle)

/-- A walk ends at a node it can reach and cannot leave. -/
def StopsAt (r : α → α → Prop) (a b : α) : Prop := ReflTransGen r a b ∧ ∀ c, ¬ r b c

/-- Where every walk ends, one of them does. -/
theorem Ends.exists_stop (h : Ends r a) : ∃ b, StopsAt r a b := by
  induction h with
  | intro a _ ih =>
    by_cases hnext : ∃ c, r a c
    · obtain ⟨c, hstep⟩ := hnext
      obtain ⟨b, hreach, hstuck⟩ := ih c hstep
      exact ⟨b, .head hstep hreach, hstuck⟩
    · exact ⟨a, .refl, fun c hstep => hnext ⟨c, hstep⟩⟩

/-- A walk along a function ends at only one node. -/
theorem StopsAt.unique (hfun : Relator.RightUnique r) {c : α} (hb : StopsAt r a b) (hc : StopsAt r a c) : b = c := by
  rcases hb.1.total_of_right_unique hfun hc.1 with h | h
  · rcases ReflTransGen.cases_head h with heq | ⟨d, hstep, _⟩
    · exact heq
    · exact absurd hstep (hb.2 d)
  · rcases ReflTransGen.cases_head h with heq | ⟨d, hstep, _⟩
    · exact heq.symm
    · exact absurd hstep (hc.2 d)

/-- A relation of inner steps and crossings, and a coarser relation that takes
all inner steps from a head and the crossing after them at once. -/
structure Segments (inner cross jump : α → α → Prop) (live : α → Prop) (start : α) : Prop where
  ends : ∀ a, Ends inner a
  source : ∀ a b, inner a b ∨ cross a b → live a
  complete : ∀ h, ReflTransGen jump start h → ∀ a b, ReflTransGen inner h a → cross a b → live b → jump h b

section segments
variable {inner cross jump : α → α → Prop} {live : α → Prop} {start : α}

/-- Every live node of a walk lies in the segment of a head. -/
theorem Segments.reach (hseg : Segments inner cross jump live start)
    (h : ReflTransGen (fun x y => inner x y ∨ cross x y) start b) (hb : live b) :
    ∃ head, ReflTransGen jump start head ∧ ReflTransGen inner head b := by
  induction h with
  | refl => exact ⟨start, .refl, .refl⟩
  | tail _ hstep ih =>
    obtain ⟨head, hhead, hinner⟩ := ih (hseg.source _ _ hstep)
    rcases hstep with hstep | hstep
    · exact ⟨head, hhead, hinner.tail hstep⟩
    · exact ⟨_, hhead.tail (hseg.complete head hhead _ _ hinner hstep hb), .refl⟩

/-- Walks end if the walks of the heads do. -/
theorem Segments.ends_step (hseg : Segments inner cross jump live start) (h : Ends jump start) :
    Ends (fun x y => inner x y ∨ cross x y) start := by
  have hheads : ∀ head, Acc (fun x y => jump y x) head → ReflTransGen jump start head →
      ∀ a, ReflTransGen inner head a → Ends (fun x y => inner x y ∨ cross x y) a := by
    intro head hacc
    induction hacc with
    | intro head _ ih =>
      intro hhead a ha
      have hinner := hseg.ends a
      induction hinner with
      | intro a _ iha =>
        refine .intro a fun b hstep => ?_
        rcases hstep with hstep | hstep
        · exact iha b hstep (ha.tail hstep)
        · by_cases hb : live b
          · have hjump := hseg.complete head hhead a b ha hstep hb
            exact ih b hjump (hhead.tail hjump) b .refl
          · exact .intro b fun c hc => absurd (hseg.source b c hc) hb
  exact hheads start h .refl start .refl

end segments

/-- A relation that takes several steps at once ends where they do. -/
theorem Ends.of_steps {s : α → α → Prop} (h : Ends r a) (hsub : ∀ x y, s x y → TransGen r x y) : Ends s a := by
  have hacc : Acc (TransGen (Function.swap r)) a := Acc.transGen h
  exact Subrelation.accessible (fun {x y} hxy => transGen_swap.mpr (hsub y x hxy)) hacc

end DynvarSync.Lib.Walks
