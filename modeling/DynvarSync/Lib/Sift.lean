import Mathlib.Data.List.Basic

/-! A queue in which some entries stand for something, in order, and the others for nothing. -/
namespace DynvarSync.Lib

/-- What a queue's entries stand for, once the noise is sifted out. -/
inductive Sifts {α β : Type} (noise : α → Prop) (stands : α → β → Prop) : List α → List β → Prop
  | nil : Sifts noise stands [] []
  | noise {a : α} {queue : List α} {sifted : List β} (ha : noise a) (h : Sifts noise stands queue sifted) :
      Sifts noise stands (a :: queue) sifted
  | stands {a : α} {b : β} {queue : List α} {sifted : List β} (hab : stands a b)
      (h : Sifts noise stands queue sifted) : Sifts noise stands (a :: queue) (b :: sifted)

namespace Sifts
variable {α β : Type} {noise : α → Prop} {stands : α → β → Prop} {queue more : List α} {sifted further : List β}

/-- What is queued behind is sifted behind. -/
theorem append (h : Sifts noise stands queue sifted) (hmore : Sifts noise stands more further) :
    Sifts noise stands (queue ++ more) (sifted ++ further) := by
  induction h with
  | nil => exact hmore
  | noise ha _ ih => exact .noise ha ih
  | stands hab _ ih => exact .stands hab ih

theorem of_noise (h : ∀ a ∈ queue, noise a) : Sifts noise stands queue [] := by
  induction queue with
  | nil => exact .nil
  | cons a queue ih =>
    obtain ⟨ha, hqueue⟩ := List.forall_mem_cons.mp h
    exact .noise ha (ih hqueue)

theorem singleton {a : α} {b : β} (h : stands a b) : Sifts noise stands [a] [b] := .stands h .nil

/-- Noise behind a queue adds nothing. -/
theorem append_noise (h : Sifts noise stands queue sifted) (hmore : ∀ a ∈ more, noise a) :
    Sifts noise stands (queue ++ more) sifted := by
  have happend : Sifts noise stands (queue ++ more) (sifted ++ []) := h.append (of_noise hmore)
  rwa [List.append_nil] at happend

/-- An empty queue stands for nothing. -/
theorem eq_nil (h : Sifts noise stands [] sifted) : sifted = [] := by
  cases h
  rfl

end Sifts
end DynvarSync.Lib
