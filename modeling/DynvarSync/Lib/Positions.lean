import Mathlib.Data.List.Induction

/-! First and last positions of an element in a list. -/
namespace DynvarSync.Lib
variable {α : Type}

def LastAt (xs : List α) (x : α) (i : Nat) : Prop := xs[i]? = some x ∧ ∀ later, i < later → xs[later]? ≠ some x

def FirstAt (xs : List α) (x : α) (i : Nat) : Prop := xs[i]? = some x ∧ ∀ earlier < i, xs[earlier]? ≠ some x

theorem LastAt.lt {xs : List α} {x : α} {i : Nat} (h : LastAt xs x i) : i < xs.length :=
  (List.getElem?_eq_some_iff.mp h.1).1

theorem FirstAt.lt {xs : List α} {x : α} {i : Nat} (h : FirstAt xs x i) : i < xs.length :=
  (List.getElem?_eq_some_iff.mp h.1).1

theorem LastAt.unique {xs : List α} {x : α} {i j : Nat} (hi : LastAt xs x i) (hj : LastAt xs x j) : i = j := by
  rcases Nat.lt_trichotomy i j with hlt | heq | hgt
  · exact absurd hj.1 (hi.2 j hlt)
  · exact heq
  · exact absurd hi.1 (hj.2 i hgt)

theorem FirstAt.unique {xs : List α} {x : α} {i j : Nat} (hi : FirstAt xs x i) (hj : FirstAt xs x j) : i = j := by
  rcases Nat.lt_trichotomy i j with hlt | heq | hgt
  · exact absurd hi.1 (hj.2 i hlt)
  · exact heq
  · exact absurd hj.1 (hi.2 j hgt)

theorem getElem?_append_singleton_eq (xs : List α) (x y : α) (i : Nat) :
    (xs ++ [x])[i]? = some y ↔ xs[i]? = some y ∨ (i = xs.length ∧ x = y) := by
  rcases Nat.lt_trichotomy i xs.length with hlt | heq | hgt
  · rw [List.getElem?_append_left hlt]
    exact ⟨.inl, fun h => h.resolve_right fun h => absurd h.1 (Nat.ne_of_lt hlt)⟩
  · rw [heq, List.getElem?_concat_length, List.getElem?_eq_none (Nat.le_refl _)]
    simp only [Option.some.injEq, reduceCtorEq, false_or, true_and]
  · rw [List.getElem?_eq_none (by rw [List.length_append, List.length_singleton]; exact hgt),
      List.getElem?_eq_none (Nat.le_of_lt hgt)]
    simp only [reduceCtorEq, false_or, false_iff]
    exact fun h => absurd h.1 (Nat.ne_of_gt hgt)

theorem lastAt_append (xs : List α) (x y : α) (i : Nat) :
    LastAt (xs ++ [x]) y i ↔ (x = y ∧ i = xs.length) ∨ (x ≠ y ∧ LastAt xs y i) := by
  simp only [LastAt, ne_eq, getElem?_append_singleton_eq, not_or]
  constructor
  · rintro ⟨hi, hlater⟩
    rcases hi with hold | ⟨hlast, rfl⟩
    · have hlt := (List.getElem?_eq_some_iff.mp hold).1
      exact .inr ⟨fun h => (hlater xs.length hlt).2 ⟨rfl, h⟩, hold, fun later hl => (hlater later hl).1⟩
    · exact .inl ⟨rfl, hlast⟩
  · rintro (⟨rfl, rfl⟩ | ⟨hne, hold, hlater⟩)
    · refine ⟨.inr ⟨rfl, rfl⟩, fun later hl => ⟨?_, fun h => absurd h.1 (Nat.ne_of_gt hl)⟩⟩
      rw [List.getElem?_eq_none (Nat.le_of_lt hl)]
      rintro ⟨⟩
    · exact ⟨.inl hold, fun later hl => ⟨hlater later hl, fun h => hne h.2⟩⟩

theorem firstAt_append (xs : List α) (x y : α) (i : Nat) :
    FirstAt (xs ++ [x]) y i ↔ FirstAt xs y i ∨ (x = y ∧ i = xs.length ∧ y ∉ xs) := by
  simp only [FirstAt, ne_eq, getElem?_append_singleton_eq, not_or]
  constructor
  · rintro ⟨hi, hearlier⟩
    rcases hi with hold | ⟨hlast, rfl⟩
    · exact .inl ⟨hold, fun earlier he => (hearlier earlier he).1⟩
    · refine .inr ⟨rfl, hlast, fun hmem => ?_⟩
      obtain ⟨j, hj, heq⟩ := List.getElem_of_mem hmem
      exact (hearlier j (hlast ▸ hj)).1 (List.getElem?_eq_some_iff.mpr ⟨hj, heq⟩)
  · rintro (⟨hold, hearlier⟩ | ⟨rfl, rfl, hnot⟩)
    · have hlt := (List.getElem?_eq_some_iff.mp hold).1
      exact ⟨.inl hold, fun earlier he =>
        ⟨hearlier earlier he, fun h => absurd h.1 (Nat.ne_of_lt (Nat.lt_trans he hlt))⟩⟩
    · refine ⟨.inr ⟨rfl, rfl⟩, fun earlier he => ⟨fun h => hnot (List.mem_of_getElem? h), fun h => ?_⟩⟩
      exact absurd h.1 (Nat.ne_of_lt he)

theorem FirstAt.mem {xs : List α} {x : α} {i : Nat} (h : FirstAt xs x i) : x ∈ xs := List.mem_of_getElem? h.1

theorem exists_firstAt {xs : List α} {x : α} (h : x ∈ xs) : ∃ i, FirstAt xs x i := by
  induction xs using List.reverseRecOn with
  | nil => exact absurd h List.not_mem_nil
  | append_singleton xs y ih =>
    simp only [firstAt_append]
    by_cases hmem : x ∈ xs
    · obtain ⟨i, hi⟩ := ih hmem
      exact ⟨i, .inl hi⟩
    · rw [List.mem_append, List.mem_singleton] at h
      exact ⟨xs.length, .inr ⟨(h.resolve_left hmem).symm, rfl, hmem⟩⟩

theorem exists_lastAt {xs : List α} {x : α} (h : x ∈ xs) : ∃ i, LastAt xs x i := by
  induction xs using List.reverseRecOn with
  | nil => exact absurd h List.not_mem_nil
  | append_singleton xs y ih =>
    simp only [lastAt_append]
    by_cases heq : y = x
    · exact ⟨xs.length, .inl ⟨heq, rfl⟩⟩
    · rw [List.mem_append, List.mem_singleton] at h
      obtain ⟨i, hi⟩ := ih (h.resolve_right (Ne.symm heq))
      exact ⟨i, .inr ⟨heq, hi⟩⟩

/-- What stands behind a list that does not have it. -/
theorem firstAt_length {xs : List α} {x : α} (h : x ∉ xs) (ys : List α) : FirstAt (xs ++ x :: ys) x xs.length := by
  refine ⟨by rw [List.getElem?_append_right (Nat.le_refl _), Nat.sub_self, List.getElem?_cons_zero], ?_⟩
  intro earlier he hx
  rw [List.getElem?_append_left he] at hx
  exact h (List.mem_of_getElem? hx)

theorem FirstAt.split {xs : List α} {x : α} {i : Nat} (h : FirstAt xs x i) :
    xs = xs.take i ++ x :: xs.drop (i + 1) ∧ x ∉ xs.take i := by
  obtain ⟨hlt, hx⟩ := List.getElem?_eq_some_iff.mp h.1
  constructor
  · rw [← hx, ← List.drop_eq_getElem_cons hlt, List.take_append_drop]
  · intro hmem
    obtain ⟨earlier, he, hget⟩ := List.mem_take_iff_getElem.mp hmem
    exact h.2 earlier (by omega) (List.getElem?_eq_some_iff.mpr ⟨by omega, hget⟩)

/-- The first place in a filtered list: the places before it that were kept. -/
theorem firstAt_filter {p : α → Bool} {x : α} (hp : p x = true) (xs : List α) (i : Nat) :
    FirstAt (xs.filter p) x i ↔ ∃ q, FirstAt xs x q ∧ i = ((xs.take q).filter p).length := by
  have hkept {q : Nat} (hq : FirstAt xs x q) : FirstAt (xs.filter p) x ((xs.take q).filter p).length := by
    obtain ⟨hsplit, hnot⟩ := hq.split
    have hfilter : xs.filter p = (xs.take q).filter p ++ x :: (xs.drop (q + 1)).filter p := by
      rw [← List.filter_cons_of_pos hp, ← List.filter_append, ← hsplit]
    rw [hfilter]
    exact firstAt_length (fun hmem => hnot (List.mem_filter.mp hmem).1) _
  constructor
  · intro hi
    obtain ⟨q, hq⟩ := exists_firstAt (List.mem_filter.mp hi.mem).1
    exact ⟨q, hq, hi.unique (hkept hq)⟩
  · rintro ⟨q, hq, rfl⟩
    exact hkept hq

end DynvarSync.Lib
