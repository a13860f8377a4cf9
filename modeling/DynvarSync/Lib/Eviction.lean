import DynvarSync.Lib.Dict
import Mathlib.Data.List.Sort
import Mathlib.Algebra.Order.Group.Int

/-! Dictionaries of bounded size that give up their entries of lowest rank, equal ranks by insertion order. -/
namespace DynvarSync.Lib.Eviction
variable {α κ ν : Type}

/-- The first of the members of lowest rank. -/
def Lowest (rank : α → Int) (l : List α) (e : α) : Prop :=
  ∃ before after, l = before ++ e :: after ∧ (∀ x ∈ before, rank e < rank x) ∧ ∀ x ∈ after, rank e ≤ rank x

theorem Lowest.mem {rank : α → Int} {l : List α} {e : α} (h : Lowest rank l e) : e ∈ l := by
  obtain ⟨before, after, rfl, _⟩ := h
  exact List.mem_append_right _ (List.mem_cons_self ..)

theorem Lowest.le {rank : α → Int} {l : List α} {e x : α} (h : Lowest rank l e) (hx : x ∈ l) : rank e ≤ rank x := by
  obtain ⟨before, after, rfl, hbefore, hafter⟩ := h
  rcases List.mem_append.mp hx with hx | hx
  · exact (hbefore x hx).le
  · rcases List.mem_cons.mp hx with rfl | hx
    · exact le_rfl
    · exact hafter x hx

/-- A stable sort puts it first. -/
theorem lowest_of_insertionSort (rank : α → Int) {l : List α} {e : α} {sorted : List α}
    (h : l.insertionSort (fun a b => rank a ≤ rank b) = e :: sorted) : Lowest rank l e := by
  induction l generalizing e sorted with
  | nil => cases h
  | cons a rest ih =>
    rw [List.insertionSort_cons] at h
    cases hrest : rest.insertionSort (fun a b => rank a ≤ rank b) with
    | nil =>
      rw [hrest] at h
      obtain ⟨rfl, _⟩ := List.cons.inj h
      have hempty : rest = [] := List.length_eq_zero_iff.mp (by
        rw [← List.length_insertionSort (fun a b => rank a ≤ rank b), hrest]
        rfl)
      exact ⟨[], rest, rfl, fun x hx => absurd hx List.not_mem_nil, by simp [hempty]⟩
    | cons b tail =>
      have hlow := ih hrest
      rw [hrest, List.orderedInsert_cons] at h
      split at h
      · rename_i hle
        obtain ⟨rfl, _⟩ := List.cons.inj h
        exact ⟨[], rest, rfl, fun x hx => absurd hx List.not_mem_nil, fun x hx => hle.trans (hlow.le hx)⟩
      · rename_i hlt
        obtain ⟨rfl, _⟩ := List.cons.inj h
        obtain ⟨before, after, rfl, hbefore, hafter⟩ := hlow
        exact ⟨a :: before, after, rfl, List.forall_mem_cons.mpr ⟨not_le.mp hlt, hbefore⟩, hafter⟩

variable [DecidableEq κ] (rank : ν → Int)

/-- Give up as many entries as there are too many. -/
def evict (capacity : Nat) (d : Dict κ ν) : Dict κ ν :=
  if d.size ≤ capacity then d
  else (((d.entries.insertionSort (fun a b => rank a.2 ≤ rank b.2)).take (d.size - capacity)).map Prod.fst).foldl
    Dict.pop d

theorem evict_of_fits {capacity : Nat} {d : Dict κ ν} (h : d.size ≤ capacity) : evict rank capacity d = d := if_pos h

/-- One entry too many: the lowest goes. -/
theorem evict_of_overflow {capacity : Nat} {d : Dict κ ν} (h : d.size = capacity + 1) :
    ∃ e, Lowest (fun e : κ × ν => rank e.2) d.entries e ∧ evict rank capacity d = d.pop e.1 := by
  cases hsort : d.entries.insertionSort (fun a b => rank a.2 ≤ rank b.2) with
  | nil =>
    have hlength := List.length_insertionSort (fun a b : κ × ν => rank a.2 ≤ rank b.2) d.entries
    rw [hsort] at hlength
    change 0 = d.size at hlength
    omega
  | cons e sorted =>
    refine ⟨e, lowest_of_insertionSort (fun e : κ × ν => rank e.2) hsort, ?_⟩
    rw [evict, if_neg (by omega), hsort, h, Nat.add_sub_cancel_left]
    rfl

theorem size_evict_of_overflow {capacity : Nat} {d : Dict κ ν} (h : d.size = capacity + 1) :
    (evict rank capacity d).size = capacity := by
  obtain ⟨e, ⟨before, after, hsplit, _⟩, hevict⟩ := evict_of_overflow rank h
  have hbefore : d.size = (before ++ e :: after).length := congrArg List.length hsplit
  have hafter : (d.pop e.1).size = (before ++ after).length := congrArg List.length (Dict.entries_pop_of_split hsplit)
  rw [List.length_append, List.length_cons] at hbefore
  rw [List.length_append] at hafter
  rw [hevict, hafter]
  omega

section recording
variable (capacity : Nat) (d : Dict κ ν) (k : κ) (v : ν) (current : κ → Prop)

def record : Dict κ ν := evict rank capacity (d.set k v)

/-- The recorded entry is kept, and no entry of the current group went while one of another group stayed. -/
structure KeepsCurrent : Prop where
  bounded : (record rank capacity d k v).size ≤ capacity
  recorded : (record rank capacity d k v).get? k = some v
  others : ∀ gone x, current gone → (d.set k v).get? gone = some x → (record rank capacity d k v).get? gone = none →
    ∀ left y, (record rank capacity d k v).get? left = some y → current left

/-- There is room, or an entry of another group that ranks below the current ones, or ranks alike and came first. -/
def HasRoom (currentRank : Int) : Prop :=
  d.size < capacity ∨ (∃ x, d.get? k = some x) ∨ (∀ other x, d.get? other = some x → current other) ∨
    ∃ before e after, d.entries = before ++ e :: after ∧ ¬ current e.1 ∧
      (rank e.2 < currentRank ∨ rank e.2 = currentRank ∧ ∀ x ∈ before, ¬ current x.1)

variable {capacity d k v current}

theorem size_set_le (hsize : d.size ≤ capacity) (h : d.size < capacity ∨ ∃ x, d.get? k = some x) :
    (d.set k v).size ≤ capacity := by
  cases hk : d.get? k with
  | some x => rwa [Dict.size_set_of_old hk]
  | none =>
    have hset : (d.set k v).size = (d.entries ++ [(k, v)]).length := congrArg List.length (Dict.entries_set_of_new hk v)
    rw [List.length_append] at hset
    have hroom : d.entries.length < capacity := h.resolve_right fun hsome => by
      obtain ⟨x, hx⟩ := hsome
      rw [hk] at hx
      cases hx
    rw [hset]
    exact hroom

theorem size_set_of_full (h : ¬ (d.size < capacity ∨ ∃ x, d.get? k = some x)) (hsize : d.size ≤ capacity) :
    (d.set k v).size = capacity + 1 := by
  obtain ⟨hfull, hnew⟩ := not_or.mp h
  have hnone : d.get? k = none := Option.eq_none_iff_forall_ne_some.mpr fun x hx => hnew ⟨x, hx⟩
  have hlength := congrArg List.length (Dict.entries_set_of_new hnone v)
  rw [List.length_append] at hlength
  change (d.set k v).size = d.size + 1 at hlength
  omega

theorem size_record_le (hsize : d.size ≤ capacity) : (record rank capacity d k v).size ≤ capacity := by
  by_cases hroom : d.size < capacity ∨ ∃ x, d.get? k = some x
  · rw [record, evict_of_fits rank (size_set_le hsize hroom)]
    exact size_set_le hsize hroom
  · exact (size_evict_of_overflow rank (size_set_of_full hroom hsize)).le

/-- What is there afterwards was recorded just now, or was there under another key. -/
theorem get?_record {other : κ} {x : ν} (h : (record rank capacity d k v).get? other = some x) :
    (other = k ∧ x = v) ∨ (other ≠ k ∧ d.get? other = some x) := by
  have hset : (d.set k v).get? other = some x := by
    unfold record evict at h
    split at h
    · exact h
    · exact Dict.get?_foldl_pop _ h
  rw [Dict.get?_set] at hset
  split at hset
  · rename_i hk
    exact .inl ⟨hk, (Option.some.inj hset).symm⟩
  · rename_i hk
    exact .inr ⟨hk, hset⟩

theorem hasRoom_congr {current' : κ → Prop} {currentRank : Int}
    (h : ∀ other, other ≠ k → (current other ↔ current' other)) :
    HasRoom rank capacity d k current currentRank ↔ HasRoom rank capacity d k current' currentRank := by
  by_cases hold : ∃ x, d.get? k = some x
  · exact iff_of_true (.inr (.inl hold)) (.inr (.inl hold))
  have hne : ∀ e ∈ d.entries, e.1 ≠ k := by
    intro e he hk
    exact hold ⟨e.2, hk ▸ (d.mem_entries_iff e.1 e.2).mp he⟩
  refine or_congr_right (or_congr_right (or_congr ?_ ?_))
  · refine forall_congr' fun other => forall_congr' fun x => imp_congr_right fun hx => h other ?_
    exact fun hk => hold ⟨x, hk ▸ hx⟩
  · refine exists_congr fun before => exists_congr fun e => exists_congr fun after => and_congr_right fun hsplit => ?_
    have he := h e.1 (hne e (hsplit ▸ List.mem_append_right _ (List.mem_cons_self ..)))
    refine and_congr (not_congr he) (or_congr_right (and_congr_right fun _ => ?_))
    refine forall_congr' fun x => imp_congr_right fun hx => not_congr (h x.1 (hne x ?_))
    exact hsplit ▸ List.mem_append_left _ hx

theorem keepsCurrent_of_fits (h : (d.set k v).size ≤ capacity) : KeepsCurrent rank capacity d k v current := by
  have hrecord : record rank capacity d k v = d.set k v := evict_of_fits rank h
  refine ⟨hrecord ▸ h, ?_, fun gone x _ hx hgone => ?_⟩
  · rw [hrecord, Dict.get?_set_self]
  · rw [hrecord, hx] at hgone
    cases hgone

theorem keepsCurrent_iff_of_lowest {e : κ × ν} (hfull : (d.set k v).size = capacity + 1)
    (he : (d.set k v).get? e.1 = some e.2) (hrecord : record rank capacity d k v = (d.set k v).pop e.1) :
    KeepsCurrent rank capacity d k v current ↔ e.1 ≠ k ∧
      (current e.1 → ∀ left y, left ≠ e.1 → (d.set k v).get? left = some y → current left) := by
  constructor
  · intro hkeeps
    refine ⟨fun hek => ?_, fun hcurrent left y hne hleft => ?_⟩
    · have hrecorded := hkeeps.recorded
      rw [hrecord, hek, Dict.get?_pop_self] at hrecorded
      cases hrecorded
    · refine hkeeps.others e.1 e.2 hcurrent he ?_ left y ?_
      · rw [hrecord, Dict.get?_pop_self]
      · rw [hrecord, Dict.get?_pop_ne _ hne, hleft]
  · intro h
    obtain ⟨hne, hothers⟩ := h
    refine ⟨(size_evict_of_overflow rank hfull).le, ?_, fun gone x hcurrent hx hgone left y hleft => ?_⟩
    · rw [hrecord, Dict.get?_pop_ne _ (Ne.symm hne), Dict.get?_set_self]
    · rw [hrecord, Dict.get?_pop] at hgone hleft
      split at hgone
      · rename_i hsame
        split at hleft
        · cases hleft
        · rename_i hother
          exact hothers (hsame ▸ hcurrent) left y hother hleft
      · rw [hx] at hgone
        cases hgone

/-- In a dictionary with a new last entry, a place is the last one or lies before it. -/
theorem split_of_append {l before after : List α} {e new : α} (h : l ++ [new] = before ++ e :: after) :
    (e = new ∧ before = l) ∨ ∃ rest, after = rest ++ [new] ∧ l = before ++ e :: rest := by
  rcases List.eq_nil_or_concat after with rfl | ⟨rest, last, rfl⟩
  · obtain ⟨hbefore, hlast⟩ := List.append_inj' h rfl
    exact .inl ⟨(List.cons.inj hlast).1.symm, hbefore.symm⟩
  · rw [List.concat_eq_append, ← List.cons_append, ← List.append_assoc] at h
    obtain ⟨hl, hlast⟩ := List.append_inj' h rfl
    obtain ⟨rfl, _⟩ := List.cons.inj hlast
    exact .inr ⟨rest, List.concat_eq_append, hl⟩

/-- Of two places the first lies before the second, or they are one. -/
theorem place_cases {l l' r r' : List α} {a b : α} (h : l ++ a :: r = l' ++ b :: r') : a = b ∨ a ∈ l' ∨ b ∈ l := by
  rcases List.append_eq_append_iff.mp h with ⟨c, hc, hrest⟩ | ⟨c, hc, hrest⟩
  · cases c with
    | nil => exact .inl (List.cons.inj hrest).1
    | cons x c =>
      obtain ⟨rfl, _⟩ := List.cons.inj hrest
      exact .inr (.inl (hc ▸ List.mem_append_right _ (List.mem_cons_self ..)))
  · cases c with
    | nil => exact .inl (List.cons.inj hrest).1.symm
    | cons x c =>
      obtain ⟨rfl, _⟩ := List.cons.inj hrest
      exact .inr (.inr (hc ▸ List.mem_append_right _ (List.mem_cons_self ..)))

/-- Where all current entries rank alike, recording keeps the group exactly when there is room for it. -/
theorem keepsCurrent_iff (hcapacity : 0 < capacity) (hsize : d.size ≤ capacity) (hk : current k)
    (hrank : ∀ other x, other ≠ k → d.get? other = some x → current other → rank x = rank v) :
    KeepsCurrent rank capacity d k v current ↔ HasRoom rank capacity d k current (rank v) := by
  by_cases hroom : d.size < capacity ∨ ∃ x, d.get? k = some x
  · refine iff_of_true (keepsCurrent_of_fits rank (size_set_le hsize hroom)) ?_
    exact hroom.elim .inl fun h => .inr (.inl h)
  obtain ⟨hfull, hnew⟩ := not_or.mp hroom
  have hnone : d.get? k = none := Option.eq_none_iff_forall_ne_some.mpr fun x hx => hnew ⟨x, hx⟩
  have hentries := Dict.entries_set_of_new hnone v
  have hset : (d.set k v).size = capacity + 1 := size_set_of_full hroom hsize
  have hranks : ∀ x ∈ d.entries, current x.1 → rank x.2 = rank v := by
    intro x hx hcurrent
    have hget := (d.mem_entries_iff x.1 x.2).mp hx
    refine hrank x.1 x.2 (fun hxk => ?_) hget hcurrent
    rw [hxk, hnone] at hget
    cases hget
  obtain ⟨e, hlowest, hrecord⟩ := evict_of_overflow rank hset
  have he : (d.set k v).get? e.1 = some e.2 := ((d.set k v).mem_entries_iff e.1 e.2).mp hlowest.mem
  rw [keepsCurrent_iff_of_lowest rank hset he hrecord]
  obtain ⟨before, after, hsplit, hbefore, hafter⟩ := hlowest
  rw [hentries] at hsplit
  have hplace := split_of_append hsplit
  constructor
  · intro h
    obtain ⟨hne, hothers⟩ := h
    refine .inr (.inr ?_)
    by_cases hcurrent : current e.1
    · refine .inl fun other x hx => ?_
      by_cases hother : other = e.1
      · exact hother ▸ hcurrent
      · refine hothers hcurrent other x hother ?_
        rw [Dict.get?_set_ne d v fun hok : other = k => hnew ⟨x, hok ▸ hx⟩, hx]
    · rcases hplace with ⟨rfl, _⟩ | ⟨rest, rfl, hd⟩
      · exact absurd rfl hne
      refine .inr ⟨before, e, rest, hd, hcurrent, ?_⟩
      have hle : rank e.2 ≤ rank v := hafter (k, v) (List.mem_append_right _ (List.mem_singleton_self _))
      rcases hle.lt_or_eq with hlt | heq
      · exact .inl hlt
      · refine .inr ⟨heq, fun x hx hxcurrent => ?_⟩
        have hxrank := hranks x (hd ▸ List.mem_append_left _ hx) hxcurrent
        have hxlt : rank e.2 < rank x.2 := hbefore x hx
        omega
  · intro h
    rcases h with h | h | hall | ⟨first, low, later, hd, hother, hlow⟩
    · exact absurd h hfull
    · exact absurd h hnew
    · refine ⟨fun hek => ?_, fun _ left y _ hleft => ?_⟩
      · rcases hplace with ⟨rfl, rfl⟩ | ⟨rest, _, hd⟩
        · cases hempty : d.entries with
          | nil =>
            have hzero : d.size = 0 := congrArg List.length hempty
            omega
          | cons x xs =>
            have hx : x ∈ d.entries := hempty ▸ List.mem_cons_self ..
            have hlt := hbefore x hx
            have heq := hranks x hx (hall x.1 x.2 ((d.mem_entries_iff x.1 x.2).mp hx))
            change rank v < rank x.2 at hlt
            omega
        · have hmem : e ∈ d.entries := hd ▸ List.mem_append_right _ (List.mem_cons_self ..)
          exact hnew ⟨e.2, hek ▸ (d.mem_entries_iff e.1 e.2).mp hmem⟩
      · rw [Dict.get?_set] at hleft
        split at hleft
        · rename_i hsame
          exact hsame ▸ hk
        · exact hall left y hleft
    · have hle : rank low.2 ≤ rank v := hlow.elim le_of_lt fun heq => heq.1.le
      have hmem : low ∈ d.entries := hd ▸ List.mem_append_right _ (List.mem_cons_self ..)
      rcases hplace with ⟨rfl, rfl⟩ | ⟨rest, rfl, hd'⟩
      · have hlt := hbefore low hmem
        change rank v < rank low.2 at hlt
        omega
      have hgone : e ∈ d.entries := hd' ▸ List.mem_append_right _ (List.mem_cons_self ..)
      have hother' : ¬ current e.1 := by
        intro hcurrent
        have heq := hranks e hgone hcurrent
        have hge : rank e.2 ≤ rank low.2 := by
          rcases List.mem_append.mp (hd' ▸ hmem) with hx | hx
          · exact (hbefore low hx).le
          · rcases List.mem_cons.mp hx with rfl | hx
            · exact le_rfl
            · exact hafter low (List.mem_append_left _ hx)
        rcases hlow with hlt | ⟨_, hfirst⟩
        · omega
        rcases place_cases (hd'.symm.trans hd) with rfl | hin | hin
        · exact hother hcurrent
        · exact hfirst e hin hcurrent
        · have hlt : rank e.2 < rank low.2 := hbefore low hin
          omega
      refine ⟨fun hek => hnew ⟨e.2, hek ▸ (d.mem_entries_iff e.1 e.2).mp hgone⟩, fun hcurrent => ?_⟩
      exact absurd hcurrent hother'

end recording
end DynvarSync.Lib.Eviction
