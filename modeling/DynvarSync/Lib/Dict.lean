import Mathlib.Data.List.Nodup
import Mathlib.Data.List.Perm.Basic

/-! Insertion-ordered dictionaries with unique keys. Assigning an existing key
keeps its position, assigning a new key appends it. -/
namespace DynvarSync.Lib

/-- The key list carries its own uniqueness, so a lookup never depends on
which of two equal keys comes first. -/
structure Dict (κ ν : Type) where
  entries : List (κ × ν)
  nodup : (entries.map Prod.fst).Nodup
  deriving DecidableEq

namespace Dict
variable {κ ν : Type}

def empty : Dict κ ν := ⟨[], List.nodup_nil⟩

def keys (d : Dict κ ν) : List κ := d.entries.map Prod.fst

def values (d : Dict κ ν) : List ν := d.entries.map Prod.snd

def size (d : Dict κ ν) : Nat := d.entries.length

variable [DecidableEq κ]

def get? (d : Dict κ ν) (k : κ) : Option ν := d.entries.lookup k

private def assign (k : κ) (v : ν) : List (κ × ν) → List (κ × ν)
  | [] => [(k, v)]
  | (k', v') :: rest => if k' = k then (k, v) :: rest else (k', v') :: assign k v rest

private theorem keys_assign (k : κ) (v : ν) (l : List (κ × ν)) :
    (assign k v l).map Prod.fst =
      if k ∈ l.map Prod.fst then l.map Prod.fst else l.map Prod.fst ++ [k] := by
  induction l with
  | nil => rfl
  | cons e rest ih =>
    obtain ⟨k', v'⟩ := e
    by_cases h : k' = k
    · simp [assign, h]
    · simp only [assign, if_neg h, List.map_cons, ih, List.mem_cons, Ne.symm h, false_or]
      split <;> rfl

private theorem nodup_assign (k : κ) (v : ν) (l : List (κ × ν)) (h : (l.map Prod.fst).Nodup) :
    ((assign k v l).map Prod.fst).Nodup := by
  rw [keys_assign]
  split
  · exact h
  · rename_i hk
    exact List.Nodup.append h (List.nodup_singleton k) (by simpa using hk)

def set (d : Dict κ ν) (k : κ) (v : ν) : Dict κ ν :=
  ⟨assign k v d.entries, nodup_assign k v d.entries d.nodup⟩

def pop (d : Dict κ ν) (k : κ) : Dict κ ν :=
  ⟨d.entries.filter (fun e => e.1 ≠ k), d.nodup.sublist (List.filter_sublist.map Prod.fst)⟩

private theorem lookup_cons_ite (k a : κ) (b : ν) (l : List (κ × ν)) :
    ((a, b) :: l).lookup k = if k = a then some b else l.lookup k := by
  by_cases h : k = a
  · rw [h, List.lookup_cons_self, if_pos rfl]
  · rw [List.lookup_cons, if_neg h, beq_eq_false_iff_ne.mpr h]

private theorem lookup_assign (k k' : κ) (v : ν) (l : List (κ × ν)) :
    (assign k v l).lookup k' = if k' = k then some v else l.lookup k' := by
  induction l with
  | nil => rw [assign, lookup_cons_ite]
  | cons e rest ih =>
    obtain ⟨a, b⟩ := e
    rw [assign]
    split
    · rename_i ha
      subst ha
      simp only [lookup_cons_ite]
      split <;> rfl
    · rename_i ha
      simp only [lookup_cons_ite, ih]
      by_cases h : k' = a
      · subst h
        simp [ha]
      · simp [h]

private theorem lookup_filter (k k' : κ) (l : List (κ × ν)) :
    (l.filter (fun e => e.1 ≠ k)).lookup k' = if k' = k then none else l.lookup k' := by
  induction l with
  | nil => simp
  | cons e rest ih =>
    obtain ⟨a, b⟩ := e
    by_cases ha : a = k
    · subst ha
      rw [List.filter_cons_of_neg (by simp), ih, lookup_cons_ite]
      split <;> simp_all
    · rw [List.filter_cons_of_pos (by simpa using ha), lookup_cons_ite, ih, lookup_cons_ite]
      by_cases h : k' = a
      · subst h
        simp [ha]
      · simp [h]

private theorem lookup_eq_some (k : κ) (v : ν) (l : List (κ × ν)) (hl : (l.map Prod.fst).Nodup) :
    (k, v) ∈ l ↔ l.lookup k = some v := by
  induction l with
  | nil => simp
  | cons e rest ih =>
    obtain ⟨a, b⟩ := e
    rw [List.map_cons, List.nodup_cons] at hl
    rw [lookup_cons_ite]
    by_cases h : k = a
    · subst h
      have hr : (k, v) ∉ rest := fun hm => hl.1 (List.mem_map.mpr ⟨(k, v), hm, rfl⟩)
      simp [hr, eq_comm]
    · simp [h, ih hl.2]

@[simp] theorem get?_empty (k : κ) : (empty : Dict κ ν).get? k = none := rfl

theorem get?_set (d : Dict κ ν) (k k' : κ) (v : ν) :
    (d.set k v).get? k' = if k' = k then some v else d.get? k' := lookup_assign k k' v d.entries

@[simp] theorem get?_set_self (d : Dict κ ν) (k : κ) (v : ν) : (d.set k v).get? k = some v := by
  simp [get?_set]

theorem get?_set_ne (d : Dict κ ν) {k k' : κ} (v : ν) (h : k' ≠ k) :
    (d.set k v).get? k' = d.get? k' := by simp [get?_set, h]

theorem get?_pop (d : Dict κ ν) (k k' : κ) :
    (d.pop k).get? k' = if k' = k then none else d.get? k' := lookup_filter k k' d.entries

@[simp] theorem get?_pop_self (d : Dict κ ν) (k : κ) : (d.pop k).get? k = none := by
  simp [get?_pop]

theorem get?_pop_ne (d : Dict κ ν) {k k' : κ} (h : k' ≠ k) : (d.pop k).get? k' = d.get? k' := by
  simp [get?_pop, h]

theorem get?_foldl_pop (keys : List κ) {d : Dict κ ν} {k : κ} {v : ν}
    (h : (keys.foldl pop d).get? k = some v) : d.get? k = some v := by
  induction keys generalizing d with
  | nil => exact h
  | cons key keys ih =>
    have hpop := ih h
    rw [get?_pop] at hpop
    split at hpop
    · cases hpop
    · exact hpop

/-- A stored pair is exactly what its key looks up. -/
theorem mem_entries_iff (d : Dict κ ν) (k : κ) (v : ν) : (k, v) ∈ d.entries ↔ d.get? k = some v :=
  lookup_eq_some k v d.entries d.nodup

theorem mem_entries_foldl_set {fields : List (κ × ν)} {d : Dict κ ν} {entry : κ × ν}
    (h : entry ∈ (fields.foldl (fun d field => d.set field.1 field.2) d).entries) :
    entry ∈ d.entries ∨ entry ∈ fields := by
  induction fields generalizing d with
  | nil => exact .inl h
  | cons field fields ih =>
    rcases ih h with hset | hmore
    · rw [mem_entries_iff, get?_set] at hset
      split at hset
      · rename_i hkey
        refine .inr (List.mem_cons.mpr (.inl ?_))
        exact Prod.ext hkey (Option.some.inj hset).symm
      · exact .inl ((mem_entries_iff d _ _).mpr hset)
    · exact .inr (List.mem_cons_of_mem _ hmore)

theorem mem_values_iff (d : Dict κ ν) (v : ν) : v ∈ d.values ↔ ∃ k, d.get? k = some v := by
  simp only [values, List.mem_map, Prod.exists, exists_eq_right, mem_entries_iff]

theorem mem_keys_iff (d : Dict κ ν) (k : κ) : k ∈ d.keys ↔ ∃ v, d.get? k = some v := by
  simp only [keys, List.mem_map, Prod.exists, exists_and_right, exists_eq_right, mem_entries_iff]

theorem values_set_ne_nil (d : Dict κ ν) (k : κ) (v : ν) : (d.set k v).values ≠ [] := by
  have hmem := (mem_values_iff (d.set k v) v).mpr ⟨k, get?_set_self d k v⟩
  exact List.ne_nil_of_mem hmem

/-- A dictionary holds one value exactly when one key has it and no other key has any. -/
theorem values_eq_singleton_iff (d : Dict κ ν) (v : ν) :
    d.values = [v] ↔ ∃ k, ∀ k' v', d.get? k' = some v' ↔ k' = k ∧ v' = v := by
  constructor
  · intro h
    obtain ⟨⟨k, w⟩, hentries, hw⟩ := List.map_eq_singleton_iff.mp h
    refine ⟨k, fun k' v' => ?_⟩
    rw [← mem_entries_iff, hentries, List.mem_singleton, Prod.mk.injEq]
    exact and_congr_right fun _ => by rw [← hw]
  · rintro ⟨k, h⟩
    have hentries : d.entries.Perm [(k, v)] := by
      refine (List.perm_ext_iff_of_nodup (List.Nodup.of_map _ d.nodup) (List.nodup_singleton _)).mpr ?_
      rintro ⟨k', v'⟩
      rw [mem_entries_iff, h, List.mem_singleton, Prod.mk.injEq]
    rw [values, List.perm_singleton.mp hentries]
    rfl

private theorem assign_of_not_mem (k : κ) (v : ν) (l : List (κ × ν)) (h : k ∉ l.map Prod.fst) :
    assign k v l = l ++ [(k, v)] := by
  induction l with
  | nil => rfl
  | cons e rest ih =>
    obtain ⟨hne, hrest⟩ := not_or.mp (mt List.mem_cons.mpr h)
    rw [assign, if_neg (Ne.symm hne), ih hrest]
    rfl

/-- Assigning new keys one after another appends them. -/
theorem entries_foldl_set (fields : List (κ × ν)) (d : Dict κ ν) (h : (d.entries ++ fields).map Prod.fst |>.Nodup) :
    (fields.foldl (fun d field => d.set field.1 field.2) d).entries = d.entries ++ fields := by
  induction fields generalizing d with
  | nil => exact (List.append_nil _).symm
  | cons field fields ih =>
    have hnew : field.1 ∉ d.entries.map Prod.fst := by
      rw [List.map_append, List.map_cons] at h
      intro hmem
      exact (List.nodup_append.mp h).2.2 _ hmem _ (List.mem_cons_self ..) rfl
    have hset : (d.set field.1 field.2).entries = d.entries ++ [field] := assign_of_not_mem _ _ _ hnew
    rw [List.foldl_cons, ih, hset, List.append_assoc]
    · rfl
    · rw [hset, List.append_assoc]
      exact h

theorem not_mem_keys_of_get?_eq_none {d : Dict κ ν} {k : κ} (h : d.get? k = none) : k ∉ d.keys := by
  intro hk
  obtain ⟨v, hv⟩ := (mem_keys_iff d k).mp hk
  rw [h] at hv
  cases hv

theorem entries_set_of_new {d : Dict κ ν} {k : κ} (h : d.get? k = none) (v : ν) :
    (d.set k v).entries = d.entries ++ [(k, v)] := assign_of_not_mem k v d.entries (not_mem_keys_of_get?_eq_none h)

theorem size_set_of_old {d : Dict κ ν} {k : κ} {x : ν} (h : d.get? k = some x) (v : ν) :
    (d.set k v).size = d.size := by
  have hk : k ∈ d.entries.map Prod.fst := (mem_keys_iff d k).mpr ⟨x, h⟩
  have hkeys := keys_assign k v d.entries
  rw [if_pos hk] at hkeys
  have hlength := congrArg List.length hkeys
  rwa [List.length_map, List.length_map] at hlength

/-- Taking out one entry leaves those around it. -/
theorem entries_pop_of_split {d : Dict κ ν} {before after : List (κ × ν)} {e : κ × ν}
    (h : d.entries = before ++ e :: after) : (d.pop e.1).entries = before ++ after := by
  have hnodup := d.nodup
  rw [h, List.map_append, List.map_cons] at hnodup
  obtain ⟨_, hcons, hdisjoint⟩ := List.nodup_append.mp hnodup
  have hbefore : ∀ x ∈ before, x.1 ≠ e.1 := fun x hx =>
    hdisjoint x.1 (List.mem_map_of_mem hx) e.1 (List.mem_cons_self ..)
  have hafter : ∀ x ∈ after, x.1 ≠ e.1 := by
    intro x hx heq
    exact (List.nodup_cons.mp hcons).1 (heq ▸ List.mem_map_of_mem hx)
  change d.entries.filter (fun x => x.1 ≠ e.1) = _
  rw [h, List.filter_append, List.filter_cons_of_neg (by simp), List.filter_eq_self.mpr, List.filter_eq_self.mpr]
  · intro x hx
    exact decide_eq_true (hafter x hx)
  · intro x hx
    exact decide_eq_true (hbefore x hx)

/-- Assigning under every key of another dictionary. -/
theorem get?_foldl_assign {ρ : Type} (assigned : Dict κ ρ) (f : κ → ρ → ν) (d : Dict κ ν) (k : κ) :
    (assigned.entries.foldl (fun d e => d.set e.1 (f e.1 e.2)) d).get? k =
      ((assigned.get? k).map (f k)).or (d.get? k) := by
  obtain ⟨entries, hnodup⟩ := assigned
  change _ = ((entries.lookup k).map (f k)).or (d.get? k)
  induction entries generalizing d with
  | nil => rfl
  | cons e rest ih =>
    obtain ⟨key, assignment⟩ := e
    obtain ⟨hnew, hrest⟩ := List.nodup_cons.mp hnodup
    rw [List.foldl_cons, ih _ hrest, get?_set, lookup_cons_ite]
    by_cases hk : k = key
    · have hnone : rest.lookup key = none := by
        rw [List.lookup_eq_none_iff]
        intro p hp
        exact bne_iff_ne.mpr fun h => hnew (List.mem_map.mpr ⟨p, hp, h.symm⟩)
      simp [hk, hnone]
    · simp [hk]

/-- Values stored one after another, each under its own key. -/
def byKey (key : ν → κ) (values : List ν) : Dict κ ν :=
  (values.map fun v => (key v, v)).foldl (fun d field => d.set field.1 field.2) empty

theorem of_get?_byKey {key : ν → κ} {values : List ν} {k : κ} {v : ν} (h : (byKey key values).get? k = some v) :
    key v = k ∧ v ∈ values := by
  rcases mem_entries_foldl_set ((mem_entries_iff _ _ _).mpr h) with hmem | hmem
  · exact absurd hmem List.not_mem_nil
  · obtain ⟨v', hv', heq⟩ := List.mem_map.mp hmem
    obtain ⟨rfl, rfl⟩ := Prod.mk.inj heq
    exact ⟨rfl, hv'⟩

theorem entries_byKey {key : ν → κ} {values : List ν} (h : (values.map key).Nodup) :
    (byKey key values).entries = values.map fun v => (key v, v) := by
  rw [byKey, entries_foldl_set]
  · rfl
  · rw [List.map_append, List.map_map]
    exact h

/-- A dictionary whose keys are read off its values is made of these values. -/
theorem eq_byKey {key : ν → κ} {d : Dict κ ν} (h : ∀ k v, d.get? k = some v → key v = k) :
    d = byKey key d.values := by
  have hentries : d.entries = d.values.map fun v => (key v, v) := by
    rw [Dict.values, List.map_map]
    refine (List.map_id _).symm.trans (List.map_congr_left fun entry hentry => ?_)
    exact Prod.ext (h entry.1 entry.2 ((mem_entries_iff _ _ _).mp hentry)).symm rfl
  have hnodup : (d.values.map key).Nodup := by
    have hkeys := d.nodup
    rw [hentries, List.map_map] at hkeys
    exact hkeys
  have hbyKey := entries_byKey hnodup
  generalize byKey key d.values = other at hbyKey
  obtain ⟨entries, _⟩ := other
  obtain ⟨entries', _⟩ := d
  dsimp only at hentries hbyKey
  subst hbyKey
  exact Dict.mk.congr_simp _ _ hentries _

theorem values_byKey {key : ν → κ} {values : List ν} (h : (values.map key).Nodup) :
    (byKey key values).values = values := by
  rw [Dict.values, entries_byKey h, List.map_map]
  exact List.map_id _

/-- Equality as maps, forgetting the insertion order. -/
def Same (d e : Dict κ ν) : Prop := ∀ k, d.get? k = e.get? k

@[refl] theorem Same.refl (d : Dict κ ν) : d.Same d := fun _ => rfl

/-- Taking an entry out and putting it back changes at most the order. -/
theorem same_set_pop (d : Dict κ ν) {k : κ} {v : ν} (h : d.get? k = some v) :
    ((d.pop k).set k v).Same d := by
  intro k'
  by_cases hk : k' = k
  · rw [hk, get?_set_self, h]
  · rw [get?_set_ne _ _ hk, get?_pop_ne _ hk]

end Dict
end DynvarSync.Lib
