import Mathlib.Data.List.Forall2
import Mathlib.Data.List.Perm.Basic

/-! Independent requests answered one by one: each is ready until its own turn
and done after it, so the order of the turns does not matter. -/
namespace DynvarSync.Lib.AnyOrder

/-- A rearrangement of mapped elements maps a rearrangement of the elements. -/
theorem exists_perm_of_perm_map {α β : Type} (f : α → β) {l : List α} {order : List β}
    (h : order.Perm (l.map f)) : ∃ l' : List α, l'.Perm l ∧ order = l'.map f := by
  have hcomp : Relation.Comp (List.Forall₂ fun a b => f a = b) List.Perm l order := by
    refine ⟨l.map f, ?_, h.symm⟩
    rw [← List.forall₂_map_left_iff, List.forall₂_eq_eq_eq]
  rw [List.forall₂_comp_perm_eq_perm_comp_forall₂] at hcomp
  obtain ⟨l', hperm, hf⟩ := hcomp
  rw [← List.forall₂_map_left_iff, List.forall₂_eq_eq_eq] at hf
  exact ⟨l', hperm.symm, hf.symm⟩

section turns
variable {σ α κ : Type} (key : α → κ) (apply : σ → α → σ) (Ready Done : α → σ → Prop)

/-- What every turn of a ready request preserves holds after all of them. -/
theorem preserved (P : σ → Prop)
    (hready : ∀ x y s, key x ≠ key y → Ready y s → Ready x s → Ready x (apply s y))
    (l : List α) (s : σ) (hP : ∀ y ∈ l, ∀ s, Ready y s → P s → P (apply s y))
    (hnodup : (l.map key).Nodup) (hl : ∀ x ∈ l, Ready x s) (hs : P s) : P (l.foldl apply s) := by
  induction l generalizing s with
  | nil => exact hs
  | cons y l ih =>
    rw [List.map_cons, List.nodup_cons] at hnodup
    have hy := hl y (List.mem_cons_self ..)
    refine ih _ (fun x hx => hP x (List.mem_cons_of_mem y hx)) hnodup.2 (fun x hx => ?_)
      (hP y (List.mem_cons_self ..) s hy hs)
    have hne : key x ≠ key y := fun h => hnodup.1 (h ▸ List.mem_map_of_mem hx)
    exact hready x y s hne hy (hl x (List.mem_cons_of_mem y hx))

/-- Every ready request ends done, in whatever order the turns come. -/
theorem answered
    (hdone : ∀ x s, Ready x s → Done x (apply s x))
    (hready : ∀ x y s, key x ≠ key y → Ready y s → Ready x s → Ready x (apply s y))
    (hkeep : ∀ x y s, key x ≠ key y → Ready y s → Done x s → Done x (apply s y))
    (l : List α) (s : σ) (hnodup : (l.map key).Nodup) (hl : ∀ x ∈ l, Ready x s) :
    ∀ x ∈ l, Done x (l.foldl apply s) := by
  induction l generalizing s with
  | nil => exact fun _ h => by cases h
  | cons y l ih =>
    rw [List.map_cons, List.nodup_cons] at hnodup
    have hy := hl y (List.mem_cons_self ..)
    have hne : ∀ x ∈ l, key x ≠ key y := fun x hx h => hnodup.1 (h ▸ List.mem_map_of_mem hx)
    have hrest : ∀ x ∈ l, Ready x (apply s y) := fun x hx =>
      hready x y s (hne x hx) hy (hl x (List.mem_cons_of_mem y hx))
    intro x hx
    rcases List.mem_cons.mp hx with rfl | hx
    · exact preserved key apply Ready (Done x) hready l _ (fun z hz t hzt => hkeep x z t (hne z hz).symm hzt)
        hnodup.2 hrest (hdone x s hy)
    · exact ih _ hnodup.2 hrest x hx

end turns
end DynvarSync.Lib.AnyOrder
