import DynvarSync.Lib.Explore

/-! The cycle test of the control-flow searches: nodes without incoming edges are
removed until none is left, and a cycle is what remains. -/
namespace DynvarSync.Ida
open Lib

variable {ν : Type} [DecidableEq ν]

/-- The nodes of an edge map, destinations that are no keys included. -/
def graphNodes (edges : Dict ν (List ν)) : List ν := edges.values.foldl List.union edges.keys

def indegrees (edges : Dict ν (List ν)) : Dict ν Int :=
  edges.values.flatten.foldl (fun degrees target => degrees.set target ((degrees.get? target).getD 0 + 1))
    ((graphNodes edges).foldl (fun degrees node => degrees.set node 0) Dict.empty)

/-- One destination of a removed node: it is ready once its last incoming edge is gone. -/
def releaseTarget (state : Dict ν Int × List ν) (target : ν) : Dict ν Int × List ν :=
  let degree := (state.1.get? target).getD 0 - 1
  (state.1.set target degree, if degree = 0 then target :: state.2 else state.2)

/-- The number of nodes removed; each node is ready at most once, so `budget` is the node count. -/
def removeReady (edges : Dict ν (List ν)) : Nat → Dict ν Int → List ν → Nat → Nat
  | 0, _, _, removed => removed
  | _, _, [], removed => removed
  | budget + 1, degrees, node :: ready, removed =>
    let (degrees, ready) := ((edges.get? node).getD []).foldl releaseTarget (degrees, ready)
    removeReady edges budget degrees ready (removed + 1)

def graphHasCycle (edges : Dict ν (List ν)) : Bool :=
  let nodes := graphNodes edges
  let degrees := indegrees edges
  let ready := nodes.filter fun node => degrees.get? node = some 0
  removeReady edges nodes.length degrees ready 0 ≠ nodes.length

/-- An edge of the map. -/
def Edge (edges : Dict ν (List ν)) (source target : ν) : Prop := target ∈ (edges.get? source).getD []

/-- The destinations of every node are a set. -/
def SetValued (edges : Dict ν (List ν)) : Prop := ∀ targets ∈ edges.values, targets.Nodup

/-- An edge map as the searches build it. -/
structure EdgeMap (ν : Type) [DecidableEq ν] where
  edges : Dict ν (List ν)
  sets : SetValued edges

/-- One turn of the removal loop, on the degrees and the ready nodes. -/
def removeTurn (edges : Dict ν (List ν)) (state : Dict ν Int × List ν) : Dict ν Int × List ν :=
  match state.2 with
  | [] => state
  | node :: ready => ((edges.get? node).getD []).foldl releaseTarget (state.1, ready)

/-- What the removal loop starts from. -/
def removalStart (edges : Dict ν (List ν)) : Dict ν Int × List ν :=
  (indegrees edges, (graphNodes edges).filter fun node => (indegrees edges).get? node = some 0)

/-- The loop runs as long as a node is ready: it ends, after as many turns as it has removed nodes. -/
def EndsAfter (edges : Dict ν (List ν)) (turns : Nat) : Prop :=
  ((removeTurn edges)^[turns] (removalStart edges)).2 = [] ∧
    ∀ k < turns, ((removeTurn edges)^[k] (removalStart edges)).2 ≠ []

/-- The edges into a node from nodes not removed yet. -/
def inDegree (edges : Dict ν (List ν)) (removed : List ν) (node : ν) : Nat :=
  ((edges.entries.filter fun entry => entry.1 ∉ removed).flatMap Prod.snd).count node

section nodes
variable {edges : Dict ν (List ν)}

private theorem mem_foldl_union (lists : List (List ν)) (start : List ν) (node : ν) :
    node ∈ lists.foldl List.union start ↔ node ∈ start ∨ ∃ l ∈ lists, node ∈ l := by
  induction lists generalizing start with
  | nil => simp
  | cons l lists ih =>
    rw [List.foldl_cons, ih, List.exists_mem_cons_iff, ← or_assoc]
    exact or_congr_left List.mem_union_iff

private theorem nodup_foldl_union (lists : List (List ν)) {start : List ν} (hstart : start.Nodup)
    (hlists : ∀ l ∈ lists, l.Nodup) : (lists.foldl List.union start).Nodup := by
  induction lists generalizing start with
  | nil => exact hstart
  | cons l lists ih =>
    obtain ⟨hl, hlists⟩ := List.forall_mem_cons.mp hlists
    exact ih (List.Nodup.union start hl) hlists

theorem graphNodes_nodup (hsets : SetValued edges) : (graphNodes edges).Nodup :=
  nodup_foldl_union _ edges.nodup hsets

theorem mem_graphNodes_iff (node : ν) :
    node ∈ graphNodes edges ↔ (∃ targets, edges.get? node = some targets) ∨ ∃ source, Edge edges source node := by
  rw [graphNodes, mem_foldl_union, Dict.mem_keys_iff]
  refine or_congr_right ?_
  constructor
  · rintro ⟨targets, htargets, hmem⟩
    obtain ⟨source, hget⟩ := (Dict.mem_values_iff _ _).mp htargets
    refine ⟨source, ?_⟩
    rw [Edge, hget]
    exact hmem
  · rintro ⟨source, hedge⟩
    rw [Edge] at hedge
    cases hget : edges.get? source with
    | none =>
      rw [hget] at hedge
      cases hedge
    | some targets =>
      rw [hget] at hedge
      exact ⟨targets, (Dict.mem_values_iff _ _).mpr ⟨source, hget⟩, hedge⟩

theorem Edge.source_mem {source target : ν} (h : Edge edges source target) : source ∈ graphNodes edges := by
  rw [mem_graphNodes_iff]
  refine .inl ?_
  rw [Edge] at h
  cases hget : edges.get? source with
  | none =>
    rw [hget] at h
    cases h
  | some targets => exact ⟨targets, rfl⟩

theorem Edge.target_mem {source target : ν} (h : Edge edges source target) : target ∈ graphNodes edges :=
  (mem_graphNodes_iff target).mpr (.inr ⟨source, h⟩)

/-- Removing a node takes away exactly its own edges. -/
theorem inDegree_remove {removed : List ν} {source : ν} (hsource : source ∉ removed) (node : ν) :
    inDegree edges removed node =
      inDegree edges (source :: removed) node + ((edges.get? source).getD []).count node := by
  unfold inDegree Dict.get?
  obtain ⟨entries, hnodup⟩ := edges
  dsimp only
  induction entries with
  | nil => rfl
  | cons entry entries ih =>
    obtain ⟨key, targets⟩ := entry
    rw [List.map_cons, List.nodup_cons] at hnodup
    by_cases hkey : key = source
    · subst hkey
      have hrest : entries.filter (fun entry => entry.1 ∉ removed) =
          entries.filter (fun entry => entry.1 ∉ key :: removed) := by
        refine List.filter_congr fun entry hentry => ?_
        have hne : entry.1 ≠ key := by
          rintro rfl
          exact hnodup.1 (List.mem_map.mpr ⟨entry, hentry, rfl⟩)
        simp [hne]
      rw [List.filter_cons_of_pos (by simpa using hsource), List.filter_cons_of_neg (by simp), List.lookup_cons_self,
        List.flatMap_cons, List.count_append, hrest, Option.getD_some, Nat.add_comm]
    · have hlookup : ((key, targets) :: entries).lookup source = entries.lookup source := by
        rw [List.lookup_cons, beq_eq_false_iff_ne.mpr (Ne.symm hkey)]
      rw [hlookup]
      by_cases hin : key ∈ removed
      · rw [List.filter_cons_of_neg (by simp [hin]), List.filter_cons_of_neg (by simp [hin])]
        exact ih hnodup.2
      · rw [List.filter_cons_of_pos (by simpa using hin), List.filter_cons_of_pos (by simp [hin, hkey]),
          List.flatMap_cons, List.flatMap_cons, List.count_append, List.count_append, ih hnodup.2, Nat.add_assoc]

/-- A node without incoming edges left has only removed sources. -/
theorem inDegree_eq_zero {removed : List ν} {node : ν} :
    inDegree edges removed node = 0 ↔ ∀ source, Edge edges source node → source ∈ removed := by
  rw [inDegree, List.count_eq_zero, List.mem_flatMap]
  constructor
  · intro h source hedge
    by_contra hsource
    refine h ⟨(source, (edges.get? source).getD []), List.mem_filter.mpr ⟨?_, by simpa using hsource⟩, hedge⟩
    obtain ⟨targets, hget⟩ : ∃ targets, edges.get? source = some targets := by
      cases hget : edges.get? source with
      | none =>
        rw [Edge, hget] at hedge
        cases hedge
      | some targets => exact ⟨targets, rfl⟩
    rw [hget, Option.getD_some, Dict.mem_entries_iff]
    exact hget
  · rintro h ⟨entry, hentry, hmem⟩
    obtain ⟨hentry, hkept⟩ := List.mem_filter.mp hentry
    have hget := (Dict.mem_entries_iff edges entry.1 entry.2).mp hentry
    have hremoved := h entry.1 (by rw [Edge, hget]; exact hmem)
    simp [hremoved] at hkept

end nodes

section removal
variable {edges : Dict ν (List ν)}

/-- Taking the destinations of a removed node out one by one. -/
theorem release_all (targets : List ν) (degrees : Dict ν Int) (ready : List ν) (degree : ν → Int)
    (hdegree : ∀ v, (degrees.get? v).getD 0 = degree v) (hcount : ∀ v, (targets.count v : Int) ≤ degree v)
    (hready : ∀ v ∈ ready, degree v = 0) (hnodup : ready.Nodup) :
    let released := targets.foldl releaseTarget (degrees, ready)
    (∀ v, (released.1.get? v).getD 0 = degree v - targets.count v) ∧ released.2.Nodup ∧
      ∀ v, v ∈ released.2 ↔ v ∈ ready ∨ v ∈ targets ∧ degree v = targets.count v := by
  induction targets generalizing degrees ready degree with
  | nil => simpa using ⟨hdegree, hnodup⟩
  | cons target targets ih =>
    have htarget : (targets.count target : Int) + 1 ≤ degree target := by
      have h := hcount target
      rw [List.count_cons_self] at h
      exact_mod_cast h
    have hnew : target ∉ ready := by
      intro hmem
      have h := hready target hmem
      omega
    let degree' : ν → Int := fun v => if v = target then degree target - 1 else degree v
    let ready' := if degree target - 1 = 0 then target :: ready else ready
    have hmem' : ∀ v, v ∈ ready' ↔ v ∈ ready ∨ v = target ∧ degree target - 1 = 0 := by
      intro v
      change v ∈ (if _ then _ else _) ↔ _
      split
      · rename_i h
        rw [List.mem_cons, or_comm]
        simp [h]
      · rename_i h
        simp [h]
    have hstep : releaseTarget (degrees, ready) target = (degrees.set target (degree target - 1), ready') := by
      rw [releaseTarget, hdegree]
    have hnodup' : ready'.Nodup := by
      change (if _ then _ else _ : List ν).Nodup
      split
      · exact List.nodup_cons.mpr ⟨hnew, hnodup⟩
      · exact hnodup
    obtain ⟨hafter, hreleased, hmem⟩ := ih (degrees.set target (degree target - 1)) ready' degree' (fun v => by
        rw [Dict.get?_set]
        by_cases hv : v = target
        · simp [degree', hv]
        · simp [degree', hv, hdegree]) (fun v => by
        have h := hcount v
        rw [List.count_cons] at h
        by_cases hv : v = target
        · subst hv
          simp only [degree', if_true]
          omega
        · simpa [degree', hv, Ne.symm hv] using h) (fun v hv => by
        rcases (hmem' v).mp hv with hv | ⟨rfl, hzero⟩
        · have hne : v ≠ target := fun heq => hnew (heq ▸ hv)
          simp [degree', hne, hready v hv]
        · simpa [degree'] using hzero) hnodup'
    rw [List.foldl_cons, hstep]
    refine ⟨fun v => ?_, hreleased, fun v => ?_⟩
    · rw [hafter, List.count_cons]
      by_cases hv : v = target
      · subst hv
        simp only [degree', if_true, beq_self_eq_true]
        omega
      · simp [degree', hv, Ne.symm hv]
    · rw [hmem, hmem', List.mem_cons, List.count_cons]
      by_cases hv : v = target
      · subst hv
        simp only [degree', if_true, beq_self_eq_true, hnew, false_or, true_and, true_or]
        constructor
        · rintro (hzero | ⟨_, heq⟩) <;> omega
        · intro heq
          by_cases hmore : v ∈ targets
          · exact .inr ⟨hmore, by omega⟩
          · have hzero := List.count_eq_zero.mpr hmore
            exact .inl (by omega)
      · simp [degree', hv, Ne.symm hv]

/-- The removal loop against the list of nodes removed so far. -/
structure Removing (edges : Dict ν (List ν)) (removed : List ν) (degrees : Dict ν Int) (ready : List ν) : Prop where
  nodup : removed.Nodup
  nodes : ∀ v ∈ removed, v ∈ graphNodes edges
  degree : ∀ v, (degrees.get? v).getD 0 = inDegree edges removed v
  readyNodup : ready.Nodup
  ready : ∀ v, v ∈ ready ↔ v ∈ graphNodes edges ∧ v ∉ removed ∧ inDegree edges removed v = 0
  closed : ∀ v ∈ removed, inDegree edges removed v = 0
  acc : ∀ v ∈ removed, Acc (Edge edges) v

/-- Removing a ready node. -/
theorem Removing.remove {removed : List ν} {degrees : Dict ν Int} {node : ν} {ready : List ν}
    (h : Removing edges removed degrees (node :: ready)) :
    let released := ((edges.get? node).getD []).foldl releaseTarget (degrees, ready)
    Removing edges (node :: removed) released.1 released.2 := by
  obtain ⟨hin, hnew, hzero⟩ := (h.ready node).mp (List.mem_cons_self ..)
  obtain ⟨hnotin, hnodup⟩ := List.nodup_cons.mp h.readyNodup
  have hdegree (v : ν) :
    inDegree edges removed v = inDegree edges (node :: removed) v + ((edges.get? node).getD []).count v :=
    inDegree_remove hnew v
  have hacc : Acc (Edge edges) node :=
    .intro node fun source hedge => h.acc source (inDegree_eq_zero.mp hzero source hedge)
  obtain ⟨hafter, hreleased, hmem⟩ := release_all ((edges.get? node).getD []) degrees ready
    (fun v => inDegree edges removed v) h.degree (fun v => by rw [hdegree v]; omega)
    (fun v hv => by exact_mod_cast ((h.ready v).mp (List.mem_cons_of_mem _ hv)).2.2) hnodup
  refine ⟨List.nodup_cons.mpr ⟨hnew, h.nodup⟩, List.forall_mem_cons.mpr ⟨hin, h.nodes⟩, fun v => ?_, hreleased,
    fun v => ?_, List.forall_mem_cons.mpr ⟨?_, fun v hv => ?_⟩, List.forall_mem_cons.mpr ⟨hacc, h.acc⟩⟩
  · rw [hafter, hdegree v]
    omega
  · rw [hmem]
    constructor
    · rintro (hready | ⟨htarget, hcount⟩)
      · obtain ⟨hv, hkept, hnone⟩ := (h.ready v).mp (List.mem_cons_of_mem _ hready)
        have hne : v ≠ node := fun heq => hnotin (heq ▸ hready)
        refine ⟨hv, List.not_mem_cons_of_ne_of_not_mem hne hkept, ?_⟩
        have hsum := hdegree v
        omega
      · have hkept : v ∉ removed := fun hv => hnew (inDegree_eq_zero.mp (h.closed v hv) node htarget)
        have hne : v ≠ node := by
          rintro rfl
          exact hnew (inDegree_eq_zero.mp hzero v htarget)
        refine ⟨Edge.target_mem htarget, List.not_mem_cons_of_ne_of_not_mem hne hkept, ?_⟩
        have hsum := hdegree v
        omega
    · rintro ⟨hv, hkept, hnone⟩
      obtain ⟨hne, hkept⟩ := List.ne_and_not_mem_of_not_mem_cons hkept
      have hsum := hdegree v
      by_cases htarget : v ∈ (edges.get? node).getD []
      · exact .inr ⟨htarget, by omega⟩
      · have hcount := List.count_eq_zero.mpr htarget
        exact .inl (List.mem_of_ne_of_mem hne ((h.ready v).mpr ⟨hv, hkept, by omega⟩))
  · have hsum := hdegree node
    omega
  · have hsum := hdegree v
    have hclosed := h.closed v hv
    omega

/-- The loop stops by itself, with no more turns than there are nodes left. -/
theorem Removing.ends (budget : Nat) {removed : List ν} {degrees : Dict ν Int} {ready : List ν}
    (h : Removing edges removed degrees ready) (hbudget : removed.length + budget = (graphNodes edges).length) :
    ∃ turns ≤ budget, ((removeTurn edges)^[turns] (degrees, ready)).2 = [] ∧
      (∀ k < turns, ((removeTurn edges)^[k] (degrees, ready)).2 ≠ []) ∧
      removeReady edges budget degrees ready removed.length = removed.length + turns := by
  induction budget generalizing removed degrees ready with
  | zero =>
    have hperm := (List.subperm_of_subset h.nodup h.nodes).perm_of_length_le (by omega)
    have hready : ready = [] := by
      refine List.eq_nil_iff_forall_not_mem.mpr fun v hv => ?_
      obtain ⟨hin, hkept, -⟩ := (h.ready v).mp hv
      exact hkept (hperm.mem_iff.mpr hin)
    exact ⟨0, Nat.le_refl 0, hready, fun k hk => absurd hk (Nat.not_lt_zero k), rfl⟩
  | succ budget ih =>
    cases ready with
    | nil => exact ⟨0, Nat.zero_le _, rfl, fun k hk => absurd hk (Nat.not_lt_zero k), rfl⟩
    | cons node ready =>
      obtain ⟨turns, hturns, hstop, hrun, hremoved⟩ := ih h.remove (by rw [List.length_cons]; omega)
      refine ⟨turns + 1, Nat.succ_le_succ hturns, hstop, fun k hk => ?_, ?_⟩
      · cases k with
        | zero => exact List.cons_ne_nil node ready
        | succ k => exact hrun k (Nat.lt_of_succ_lt_succ hk)
      · rw [List.length_cons] at hremoved
        rw [removeReady]
        exact hremoved.trans (by omega)

/-- The loop removes every node exactly when every node is well founded. -/
theorem removeReady_eq_iff (hsets : SetValued edges) (budget : Nat) {removed : List ν} {degrees : Dict ν Int}
    {ready : List ν} (h : Removing edges removed degrees ready)
    (hbudget : removed.length + budget = (graphNodes edges).length) :
    removeReady edges budget degrees ready removed.length = (graphNodes edges).length ↔
      ∀ v ∈ graphNodes edges, Acc (Edge edges) v := by
  induction budget generalizing removed degrees ready with
  | zero =>
    refine iff_of_true hbudget fun v hv => h.acc v ?_
    have hperm := (List.subperm_of_subset h.nodup h.nodes).perm_of_length_le (by omega)
    exact hperm.mem_iff.mpr hv
  | succ budget ih =>
    cases ready with
    | nil =>
      have hstop : removeReady edges (budget + 1) degrees [] removed.length = removed.length := rfl
      rw [hstop]
      refine iff_of_false (by omega) fun hall => ?_
      have hstuck : ∀ v, Acc (Edge edges) v → v ∈ graphNodes edges → v ∈ removed := by
        intro v hacc
        induction hacc with
        | intro v _ ihv =>
          intro hv
          by_contra hkept
          have hpositive : inDegree edges removed v ≠ 0 := fun hzero =>
            List.not_mem_nil ((h.ready v).mpr ⟨hv, hkept, hzero⟩)
          refine hpositive (inDegree_eq_zero.mpr fun source hedge => ihv source hedge hedge.source_mem)
      have hlength := Walks.length_le_of_subset (graphNodes_nodup hsets) fun v hv => hstuck v (hall v hv) hv
      omega
    | cons node ready =>
      rw [removeReady]
      exact ih h.remove (by rw [List.length_cons]; omega)

end removal

section indegrees
variable {edges : Dict ν (List ν)}

private theorem zeroDegrees_get (nodes : List ν) (degrees : Dict ν Int) (v : ν) :
    (nodes.foldl (fun degrees node => degrees.set node 0) degrees).get? v =
      if v ∈ nodes then some 0 else degrees.get? v := by
  induction nodes generalizing degrees with
  | nil => simp
  | cons node nodes ih =>
    rw [List.foldl_cons, ih, Dict.get?_set]
    by_cases hv : v ∈ nodes
    · simp [hv]
    · by_cases hn : v = node <;> simp [hv, hn]

private theorem countTargets_get (targets : List ν) (degrees : Dict ν Int) (v : ν) :
    ((targets.foldl (fun degrees target => degrees.set target ((degrees.get? target).getD 0 + 1)) degrees).get?
      v).getD 0 =
      (degrees.get? v).getD 0 + targets.count v := by
  induction targets generalizing degrees with
  | nil => simp
  | cons target targets ih =>
    rw [List.foldl_cons, ih, Dict.get?_set, List.count_cons]
    by_cases hv : v = target
    · simp [hv]
      omega
    · simp [hv, Ne.symm hv]

private theorem countTargets_isSome (targets : List ν) {degrees : Dict ν Int} {v : ν} (h : (degrees.get? v).isSome) :
    ((targets.foldl (fun degrees target => degrees.set target ((degrees.get? target).getD 0 + 1)) degrees).get?
      v).isSome := by
  induction targets generalizing degrees with
  | nil => exact h
  | cons target targets ih =>
    refine ih ?_
    rw [Dict.get?_set]
    split
    · rfl
    · exact h

theorem indegrees_get (v : ν) : ((indegrees edges).get? v).getD 0 = inDegree edges [] v := by
  rw [indegrees, countTargets_get, zeroDegrees_get]
  have hzero : (if v ∈ graphNodes edges then some 0 else (Dict.empty : Dict ν Int).get? v).getD 0 = 0 := by
    split <;> rfl
  rw [hzero, Int.zero_add]
  simp [inDegree, Dict.values, List.flatMap]

theorem indegrees_eq_zero {v : ν} (hv : v ∈ graphNodes edges) :
    (indegrees edges).get? v = some 0 ↔ inDegree edges [] v = 0 := by
  have hsome : ((indegrees edges).get? v).isSome := by
    refine countTargets_isSome _ ?_
    rw [zeroDegrees_get, if_pos hv]
    rfl
  obtain ⟨degree, hdegree⟩ := Option.isSome_iff_exists.mp hsome
  have hvalue : ((indegrees edges).get? v).getD 0 = inDegree edges [] v := indegrees_get v
  rw [hdegree, Option.getD_some] at hvalue
  rw [hdegree, Option.some_inj, hvalue]
  exact Int.natCast_eq_zero

theorem removing_start (hsets : SetValued edges) :
    Removing edges [] (removalStart edges).1 (removalStart edges).2 := by
  refine ⟨List.nodup_nil, nofun, indegrees_get, (graphNodes_nodup hsets).filter _, fun v => ?_, nofun, nofun⟩
  rw [removalStart, List.mem_filter, decide_eq_true_iff]
  exact and_congr_right fun hv => by simp [indegrees_eq_zero hv]

/-- The test's loop ends by itself, and its answer is whether a node was left. -/
theorem EdgeMap.ends (g : EdgeMap ν) :
    ∃ turns ≤ (graphNodes g.edges).length, EndsAfter g.edges turns ∧
      (graphHasCycle g.edges = true ↔ turns ≠ (graphNodes g.edges).length) := by
  obtain ⟨turns, hturns, hstop, hrun, hremoved⟩ := (removing_start g.sets).ends (graphNodes g.edges).length (by simp)
  refine ⟨turns, hturns, ⟨hstop, hrun⟩, ?_⟩
  rw [List.length_nil, Nat.zero_add] at hremoved
  rw [graphHasCycle, decide_eq_true_iff]
  exact not_congr (Eq.congr_left hremoved)

/-- The test answers no exactly when no node lies on a cycle. -/
theorem graphHasCycle_eq_false_iff (hsets : SetValued edges) :
    graphHasCycle edges = false ↔ ∀ v, ¬ Relation.TransGen (Edge edges) v v := by
  have hremoved := removeReady_eq_iff hsets (graphNodes edges).length (removing_start hsets) (by simp)
  rw [← Walks.acc_iff_no_cycle fun _ _ => Edge.source_mem]
  have hanswer : graphHasCycle edges = false ↔ ∀ v ∈ graphNodes edges, Acc (Edge edges) v := by
    rw [← hremoved, graphHasCycle]
    simp [removalStart]
  rw [hanswer]
  refine ⟨fun h v => ?_, fun h v _ => h v⟩
  by_cases hv : v ∈ graphNodes edges
  · exact h v hv
  · exact .intro v fun source hedge => absurd hedge.target_mem hv

end indegrees

/-- The cycle test of a finished search answers no exactly when every walk from its start ends. -/
theorem explored_acyclic_iff {α : Type} (succ : ν → List ν) (note : α → ν → α) (budget : Nat) (start : ν) (acc : α)
    (hdone : (Explore.explore succ note budget start acc).exhausted = false) :
    graphHasCycle (Explore.explore succ note budget start acc).edges = false ↔
      Walks.Ends (fun a b => b ∈ succ a) start := by
  rw [← Explore.explore_acyclic_iff succ note budget start acc hdone]
  refine graphHasCycle_eq_false_iff fun targets htargets => ?_
  obtain ⟨source, hget⟩ := (Dict.mem_values_iff _ _).mp htargets
  have hnodup := (Explore.explore_edges succ note budget start acc).2 source
  rw [Explore.targetsOf, hget] at hnodup
  exact hnodup

end DynvarSync.Ida
