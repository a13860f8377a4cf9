import Mathlib.Data.List.Nodup
import Mathlib.Data.Finset.Dedup
import Mathlib.Data.Finset.Card

/-! Filling a bounded selection in passes. A pass offers its candidates in turn; an
allowed candidate that is not taken yet is taken while there is room. -/
namespace DynvarSync.Lib.Budget
variable {α : Type} (budget : Nat) (allowed : α → Bool)

/-- What a pass over `xs` does to the selection. -/
structure Fills (taken xs taken' : List α) : Prop where
  keeps : taken <+: taken'
  source : ∀ x ∈ taken', x ∈ taken ∨ x ∈ xs ∧ allowed x = true
  nodup : taken.Nodup → taken'.Nodup
  within : taken.length ≤ budget → taken'.length ≤ budget
  full : taken'.length < budget → ∀ x ∈ xs, allowed x = true → x ∈ taken'

variable {budget allowed}

theorem fills_nil (taken : List α) : Fills budget allowed taken [] taken where
  keeps := List.prefix_rfl
  source _ hx := .inl hx
  nodup h := h
  within h := h
  full _ _ hx := absurd hx List.not_mem_nil

/-- Two passes in a row are one pass over both lists. -/
theorem Fills.append {taken xs taken₁ ys taken₂ : List α} (h : Fills budget allowed taken xs taken₁)
    (h' : Fills budget allowed taken₁ ys taken₂) : Fills budget allowed taken (xs ++ ys) taken₂ where
  keeps := h.keeps.trans h'.keeps
  source x hx := by
    rcases h'.source x hx with hfirst | ⟨hmem, hallowed⟩
    · rcases h.source x hfirst with hold | ⟨hmem, hallowed⟩
      · exact .inl hold
      · exact .inr ⟨List.mem_append_left ys hmem, hallowed⟩
    · exact .inr ⟨List.mem_append_right xs hmem, hallowed⟩
  nodup := h'.nodup ∘ h.nodup
  within := h'.within ∘ h.within
  full hroom x hx hallowed := by
    rcases List.mem_append.mp hx with hfirst | hsecond
    · exact h'.keeps.subset (h.full (h'.keeps.length_le.trans_lt hroom) x hfirst hallowed)
    · exact h'.full hroom x hsecond hallowed

/-- The order of the candidates does not matter to what a pass may do. -/
theorem Fills.congr {taken xs ys taken' : List α} (h : Fills budget allowed taken xs taken')
    (hmem : ∀ x, x ∈ xs ↔ x ∈ ys) : Fills budget allowed taken ys taken' where
  keeps := h.keeps
  source x hx := (h.source x hx).imp_right (And.imp_left (hmem x).mp)
  nodup := h.nodup
  within := h.within
  full hroom x hx := h.full hroom x ((hmem x).mpr hx)

section offering
variable [DecidableEq α]

def offer (budget : Nat) (allowed : α → Bool) (taken : List α) (x : α) : List α :=
  if budget ≤ taken.length ∨ x ∈ taken ∨ allowed x = false then taken else taken ++ [x]

theorem foldl_offer_of_full (budget : Nat) (allowed : α → Bool) {taken : List α} (h : budget ≤ taken.length)
    (xs : List α) :
    xs.foldl (offer budget allowed) taken = taken := by
  induction xs with
  | nil => rfl
  | cons x xs ih => rw [List.foldl_cons, offer, if_pos (.inl h), ih]

theorem fills_offer (taken : List α) (x : α) : Fills budget allowed taken [x] (offer budget allowed taken x) := by
  rw [offer]
  split
  · rename_i h
    refine ⟨List.prefix_rfl, fun y hy => .inl hy, id, id, fun hroom y hy hallowed => ?_⟩
    rw [List.mem_singleton] at hy
    rcases h with hfull | hmem | hnot
    · omega
    · rwa [hy]
    · rw [hy, hnot] at hallowed
      cases hallowed
  · rename_i h
    obtain ⟨hroom, hnew, hallowed⟩ : taken.length < budget ∧ x ∉ taken ∧ allowed x = true := by
      simpa only [not_or, Nat.not_le, Bool.not_eq_false] using h
    refine ⟨List.prefix_append .., fun y hy => ?_, fun hnodup => ?_, fun _ => ?_, fun _ y hy _ => ?_⟩
    · rcases List.mem_append.mp hy with hold | hlast
      · exact .inl hold
      · exact .inr ⟨hlast, by rwa [List.mem_singleton.mp hlast]⟩
    · exact List.Nodup.append hnodup (List.nodup_singleton x) (List.disjoint_singleton.mpr hnew)
    · rw [List.length_append, List.length_singleton]
      exact hroom
    · exact List.mem_append_right taken hy

theorem fills_foldl (xs taken : List α) : Fills budget allowed taken xs (xs.foldl (offer budget allowed) taken) := by
  induction xs generalizing taken with
  | nil => exact fills_nil taken
  | cons x xs ih => exact (fills_offer taken x).append (ih _)

/-- Candidates already taken need not be offered. -/
theorem Fills.of_filter {taken xs taken' : List α} (h : Fills budget allowed taken (xs.filter (· ∉ taken)) taken') :
    Fills budget allowed taken xs taken' where
  keeps := h.keeps
  source x hx := (h.source x hx).imp_right (And.imp_left List.mem_of_mem_filter)
  nodup := h.nodup
  within := h.within
  full hroom x hx hallowed := by
    by_cases hmem : x ∈ taken
    · exact h.keeps.subset hmem
    · exact h.full hroom x (List.mem_filter.mpr ⟨hx, decide_eq_true hmem⟩) hallowed

theorem mem_offer {taken : List α} {x : α} (hroom : taken.length < budget) (hallowed : allowed x = true) :
    x ∈ offer budget allowed taken x := by
  by_cases hmem : x ∈ taken
  · exact (fills_offer taken x).keeps.subset hmem
  · have htake : ¬ (budget ≤ taken.length ∨ x ∈ taken ∨ allowed x = false) := by
      simp only [Nat.not_le.mpr hroom, hmem, hallowed, Bool.true_eq_false, or_self, not_false_eq_true]
    rw [offer, if_neg htake]
    exact List.mem_append_right taken (List.mem_singleton_self x)

/-- Everything offered while there is room is taken. -/
theorem mem_foldl_offer {xs taken : List α} (hallowed : ∀ x ∈ xs, allowed x = true)
    (hroom : ∀ t < xs.length, ((xs.take t).foldl (offer budget allowed) taken).length < budget) :
    ∀ x ∈ xs, x ∈ xs.foldl (offer budget allowed) taken := by
  induction xs generalizing taken with
  | nil => exact fun x hx => absurd hx List.not_mem_nil
  | cons first xs ih =>
    intro x hx
    rw [List.foldl_cons]
    rcases List.mem_cons.mp hx with rfl | hmore
    · have htaken := mem_offer (hroom 0 (Nat.succ_pos _)) (hallowed x (List.mem_cons_self ..))
      exact (fills_foldl xs _).keeps.subset htaken
    · exact ih (fun y hy => hallowed y (List.mem_cons_of_mem first hy))
        (fun t ht => hroom (t + 1) (Nat.succ_lt_succ ht)) x hmore

/-- A pass over different candidates takes, in their order, as many of the new ones as fit. -/
theorem foldl_offer_eq {xs : List α} (hxs : xs.Nodup) (taken : List α) :
    xs.foldl (offer budget allowed) taken =
      taken ++ (xs.filter fun x => allowed x && decide (x ∉ taken)).take (budget - taken.length) := by
  induction xs generalizing taken with
  | nil => rw [List.foldl_nil, List.filter_nil, List.take_nil, List.append_nil]
  | cons x xs ih =>
    obtain ⟨hx, hrest⟩ := List.nodup_cons.mp hxs
    rw [List.foldl_cons, ih hrest, offer]
    by_cases hfull : budget ≤ taken.length
    · rw [if_pos (.inl hfull), Nat.sub_eq_zero_of_le hfull, List.take_zero, List.take_zero]
    · by_cases hskip : x ∈ taken ∨ allowed x = false
      · rw [if_pos (.inr hskip), List.filter_cons_of_neg]
        rcases hskip with hmem | hnot
        · simp [hmem]
        · simp [hnot]
      · obtain ⟨hnew, hallowed⟩ := not_or.mp hskip
        have hfilter : (xs.filter fun y => allowed y && decide (y ∉ taken ++ [x])) =
            xs.filter fun y => allowed y && decide (y ∉ taken) := by
          refine List.filter_congr fun y hy => ?_
          have hne : y ≠ x := fun heq => hx (heq ▸ hy)
          simp only [List.mem_append, List.mem_singleton, hne, or_false]
        rw [if_neg (by simp only [hfull, hskip, or_self, not_false_eq_true]), hfilter,
          List.filter_cons_of_pos (by simp [hnew, hallowed])]
        obtain ⟨room, hroom⟩ := Nat.exists_eq_add_of_lt (Nat.lt_of_not_le hfull)
        have hbefore : budget - taken.length = room + 1 := by omega
        have hafter : budget - (taken ++ [x]).length = room := by
          rw [List.length_append, List.length_singleton]
          omega
        rw [hbefore, hafter, List.take_succ_cons, List.append_assoc, List.singleton_append]

end offering

/-- Passes one after another, from one selection to another. -/
inductive Passes (budget : Nat) (allowed : α → Bool) : List (List α) → List α → List α → Prop
  | done (taken : List α) : Passes budget allowed [] taken taken
  | pass {taken xs taken₁ final : List α} {passes : List (List α)} (first : Fills budget allowed taken xs taken₁)
      (rest : Passes budget allowed passes taken₁ final) : Passes budget allowed (xs :: passes) taken final

theorem Passes.fills {passes : List (List α)} {taken final : List α} (h : Passes budget allowed passes taken final) :
    Fills budget allowed taken passes.flatten final := by
  induction h with
  | done taken => exact fills_nil taken
  | pass first rest ih => exact first.append ih

/-- Nothing from a later pass is taken while something of an earlier pass is left out. -/
theorem Passes.earlier_first {before after : List (List α)} {taken final : List α} {x : α}
    (h : Passes budget allowed (before ++ after) taken final) (hbudget : taken.length ≤ budget) (hx : x ∈ final)
    (hnew : x ∉ taken) (hlater : ∀ xs ∈ before, x ∉ xs) : ∀ xs ∈ before, ∀ y ∈ xs, allowed y = true → y ∈ final := by
  induction before generalizing taken with
  | nil => exact fun xs hxs => absurd hxs List.not_mem_nil
  | cons first before ih =>
    cases h with
    | pass hfirst hrest =>
      rename_i taken₁
      have hleft : x ∉ taken₁ := by
        intro hmem
        rcases hfirst.source x hmem with hold | ⟨hmem, -⟩
        · exact hnew hold
        · exact hlater first (List.mem_cons_self ..) hmem
      have hroom : taken₁.length < budget := by
        have hwithin := hrest.fills.within (hfirst.within hbudget)
        refine Nat.lt_of_lt_of_le (Nat.lt_of_le_of_ne hrest.fills.keeps.length_le fun hlength => ?_) hwithin
        exact hleft (hrest.fills.keeps.eq_of_length hlength ▸ hx)
      intro xs hxs y hy hallowed
      rcases List.mem_cons.mp hxs with rfl | hmore
      · exact hrest.fills.keeps.subset (hfirst.full hroom y hy hallowed)
      · exact ih hrest (hfirst.within hbudget) hleft (fun ys hys => hlater ys (List.mem_cons_of_mem _ hys)) xs
          hmore y hy
          hallowed

/-- Passes that offer every allowed candidate fill the budget, or take them all. -/
theorem Passes.card {passes : List (List α)} [DecidableEq α] {final : List α}
    (h : Passes budget allowed passes [] final) {all : Finset α}
    (hall : ∀ x, x ∈ all ↔ x ∈ passes.flatten ∧ allowed x = true) :
    final.toFinset ⊆ all ∧ final.toFinset.card = min budget all.card := by
  have hfills := h.fills
  have hsub : final.toFinset ⊆ all := by
    intro x hx
    rcases hfills.source x (List.mem_toFinset.mp hx) with hnone | hmem
    · exact absurd hnone List.not_mem_nil
    · exact (hall x).mpr hmem
  have hcard : final.toFinset.card = final.length := List.toFinset_card_of_nodup (hfills.nodup List.nodup_nil)
  have hwithin : final.length ≤ budget := hfills.within (Nat.zero_le _)
  refine ⟨hsub, ?_⟩
  rcases Nat.lt_or_eq_of_le hwithin with hroom | hfull
  · have heq : final.toFinset = all := by
      refine Finset.Subset.antisymm hsub fun x hx => List.mem_toFinset.mpr ?_
      obtain ⟨hmem, hallowed⟩ := (hall x).mp hx
      exact hfills.full hroom x hmem hallowed
    rw [← heq, Nat.min_eq_right (by omega)]
  · have hle := Finset.card_le_card hsub
    rw [Nat.min_eq_left (by omega), hcard, hfull]

end DynvarSync.Lib.Budget
