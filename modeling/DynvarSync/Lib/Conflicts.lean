import DynvarSync.Lib.Dict

/-! Entries of a dictionary that conflict in pairs. A conflict is not transitive, so it is decided on
every pair of the entries as they came, and both members of a conflicting pair are recorded. -/
namespace DynvarSync.Lib.Conflicts
variable {α κ ν ρ : Type}

/-- Every member with each later one, in order. -/
def laterPairs : List α → List (α × α)
  | [] => []
  | a :: rest => rest.map (Prod.mk a) ++ laterPairs rest

theorem mem_laterPairs_iff {l : List α} (hl : l.Nodup) (a b : α) :
    (a, b) ∈ laterPairs l ∨ (b, a) ∈ laterPairs l ↔ a ∈ l ∧ b ∈ l ∧ a ≠ b := by
  induction l with
  | nil => simp [laterPairs]
  | cons c rest ih =>
    obtain ⟨hc, hrest⟩ := List.nodup_cons.mp hl
    have hmem (x y : α) : (x, y) ∈ laterPairs (c :: rest) ↔ (x = c ∧ y ∈ rest) ∨ (x, y) ∈ laterPairs rest := by
      rw [laterPairs, List.mem_append, List.mem_map]
      refine or_congr_left ⟨fun h => ?_, fun h => ⟨y, h.2, by rw [h.1]⟩⟩
      obtain ⟨z, hz, heq⟩ := h
      obtain ⟨rfl, rfl⟩ := Prod.mk.inj heq
      exact ⟨rfl, hz⟩
    rw [hmem, hmem, or_or_or_comm, ih hrest, List.mem_cons, List.mem_cons]
    constructor
    · intro h
      obtain (⟨rfl, hb⟩ | ⟨rfl, ha⟩) | ⟨ha, hb, hne⟩ := h
      · exact ⟨.inl rfl, .inr hb, fun h => hc (h ▸ hb)⟩
      · exact ⟨.inr ha, .inl rfl, fun h => hc (h ▸ ha)⟩
      · exact ⟨.inr ha, .inr hb, hne⟩
    · intro h
      obtain ⟨rfl | ha, rfl | hb, hne⟩ := h
      · exact absurd rfl hne
      · exact .inl (.inl ⟨rfl, hb⟩)
      · exact .inl (.inr ⟨rfl, ha⟩)
      · exact .inr ⟨ha, hb, hne⟩

variable [DecidableEq κ] (conflict : ν → ν → Option ρ)

def recordPair (rejected : Dict κ ρ) (pair : (κ × ν) × (κ × ν)) : Dict κ ρ :=
  match conflict pair.1.2 pair.2.2 with
  | some reason => (rejected.set pair.1.1 reason).set pair.2.1 reason
  | none => rejected

/-- The keys of all conflicting pairs. -/
def rejections (d : Dict κ ν) : Dict κ ρ := (laterPairs d.entries).foldl (recordPair conflict) Dict.empty

/-- Another entry conflicts with the one under this key. -/
def Conflicting (d : Dict κ ν) (k : κ) (x : ν) (reason : ρ) : Prop :=
  ∃ k' y, k' ≠ k ∧ d.get? k' = some y ∧ conflict x y = some reason

theorem get?_recordPair (rejected : Dict κ ρ) (pair : (κ × ν) × (κ × ν)) (k : κ) (reason : ρ) :
    (recordPair conflict rejected pair).get? k = some reason ↔
      (conflict pair.1.2 pair.2.2 = some reason ∧ (k = pair.1.1 ∨ k = pair.2.1)) ∨
        (((conflict pair.1.2 pair.2.2).isSome → k ≠ pair.1.1 ∧ k ≠ pair.2.1) ∧ rejected.get? k = some reason) := by
  unfold recordPair
  cases hc : conflict pair.1.2 pair.2.2 with
  | none => simp
  | some found =>
    simp only [Dict.get?_set]
    by_cases h2 : k = pair.2.1
    · simp [h2]
    · by_cases h1 : k = pair.1.1
      · simp [h1, h1 ▸ h2]
      · simp [h1, h2]

theorem get?_foldl_recordPair (pairs : List ((κ × ν) × (κ × ν))) (rejected : Dict κ ρ) (k : κ) (reason : ρ)
    (h : (pairs.foldl (recordPair conflict) rejected).get? k = some reason) :
    rejected.get? k = some reason ∨
      ∃ pair ∈ pairs, conflict pair.1.2 pair.2.2 = some reason ∧ (k = pair.1.1 ∨ k = pair.2.1) := by
  induction pairs generalizing rejected with
  | nil => exact .inl h
  | cons pair pairs ih =>
    rcases ih _ h with hnow | ⟨p, hp, hfound⟩
    · rcases (get?_recordPair conflict rejected pair k reason).mp hnow with hpair | ⟨_, hold⟩
      · exact .inr ⟨pair, List.mem_cons_self .., hpair⟩
      · exact .inl hold
    · exact .inr ⟨p, List.mem_cons_of_mem _ hp, hfound⟩

theorem isSome_foldl_recordPair (pairs : List ((κ × ν) × (κ × ν))) (rejected : Dict κ ρ) (k : κ)
    (h : (rejected.get? k).isSome ∨
      ∃ pair ∈ pairs, (conflict pair.1.2 pair.2.2).isSome ∧ (k = pair.1.1 ∨ k = pair.2.1)) :
    ((pairs.foldl (recordPair conflict) rejected).get? k).isSome := by
  induction pairs generalizing rejected with
  | nil =>
    rcases h with h | ⟨pair, hp, _⟩
    · exact h
    · cases hp
  | cons pair pairs ih =>
    refine ih _ ?_
    by_cases hpair : (conflict pair.1.2 pair.2.2).isSome ∧ (k = pair.1.1 ∨ k = pair.2.1)
    · obtain ⟨reason, hreason⟩ := Option.isSome_iff_exists.mp hpair.1
      exact .inl (Option.isSome_iff_exists.mpr
        ⟨reason, (get?_recordPair conflict rejected pair k reason).mpr (.inl ⟨hreason, hpair.2⟩)⟩)
    rcases h with h | ⟨p, hp, hfound⟩
    · obtain ⟨reason, hreason⟩ := Option.isSome_iff_exists.mp h
      refine .inl (Option.isSome_iff_exists.mpr
        ⟨reason, (get?_recordPair conflict rejected pair k reason).mpr (.inr ⟨fun hsome => ?_, hreason⟩)⟩)
      exact not_or.mp fun hk => hpair ⟨hsome, hk⟩
    · rcases List.mem_cons.mp hp with rfl | hp
      · exact absurd hfound hpair
      · exact .inr ⟨p, hp, hfound⟩

/-- An entry is recorded exactly when another one conflicts with it, whatever their order; `hone` says that
the reason is the entry's own. -/
theorem get?_rejections_iff (hsymm : ∀ x y, conflict x y = conflict y x)
    (hone : ∀ x y z r r', conflict x y = some r → conflict x z = some r' → r = r')
    (d : Dict κ ν) (k : κ) (reason : ρ) :
    (rejections conflict d).get? k = some reason ↔
      ∃ x, d.get? k = some x ∧ Conflicting conflict d k x reason := by
  have hnodup : d.entries.Nodup := List.Nodup.of_map _ d.nodup
  have hsound {r : ρ} (h : (rejections conflict d).get? k = some r) :
      ∃ x, d.get? k = some x ∧ Conflicting conflict d k x r := by
    obtain hempty | ⟨⟨⟨a, x⟩, b, y⟩, hp, hfound, hk⟩ := get?_foldl_recordPair conflict _ _ _ _ h
    · cases hempty
    obtain ⟨hx, hy, hne⟩ := (mem_laterPairs_iff hnodup _ _).mp (.inl hp)
    have hkeys : a ≠ b := by
      rintro rfl
      exact hne (Prod.ext rfl (Option.some.inj (((d.mem_entries_iff _ _).mp hx).symm.trans
        ((d.mem_entries_iff _ _).mp hy))))
    rw [d.mem_entries_iff] at hx hy
    rcases hk with rfl | rfl
    · exact ⟨x, hx, b, y, hkeys.symm, hy, hfound⟩
    · exact ⟨y, hy, a, x, hkeys, hx, hsymm y x ▸ hfound⟩
  refine ⟨hsound, fun h => ?_⟩
  obtain ⟨x, hx, k', y, hne, hy, hfound⟩ := h
  have hpairs := (mem_laterPairs_iff hnodup (k, x) (k', y)).mpr
    ⟨(d.mem_entries_iff _ _).mpr hx, (d.mem_entries_iff _ _).mpr hy, fun h => hne (Prod.mk.inj h).1.symm⟩
  have hsome : ((rejections conflict d).get? k).isSome := by
    refine isSome_foldl_recordPair conflict _ _ _ (.inr ?_)
    rcases hpairs with hp | hp
    · exact ⟨_, hp, by simp [hfound], .inl rfl⟩
    · exact ⟨_, hp, by simp [hsymm y x, hfound], .inr rfl⟩
  obtain ⟨r, hr⟩ := Option.isSome_iff_exists.mp hsome
  obtain ⟨x', hx', _, _, _, _, hfound'⟩ := hsound hr
  rw [hx] at hx'
  obtain rfl := Option.some.inj hx'
  rw [hr, hone _ _ _ _ _ hfound' hfound]

end DynvarSync.Lib.Conflicts
