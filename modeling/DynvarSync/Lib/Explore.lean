import DynvarSync.Lib.Dict
import DynvarSync.Lib.Walks

/-! Bounded graph exploration with a work list: each node is visited once, its
edges are recorded, and an accumulator notes what was found there. -/
namespace DynvarSync.Lib.Explore
open Relation

/-- Visited nodes, newest first, with the edges met so far. -/
structure Search (ν α : Type) where
  visited : List ν := []
  edges : Dict ν (List ν) := Dict.empty
  acc : α
  exhausted : Bool := false

variable {ν α : Type} [DecidableEq ν] (succ : ν → List ν) (note : α → ν → α)

/-- An entry for the node, empty when it has none yet. -/
def addNode (edges : Dict ν (List ν)) (node : ν) : Dict ν (List ν) :=
  if (edges.get? node).isSome then edges else edges.set node []

def addEdge (node : ν) (edges : Dict ν (List ν)) (target : ν) : Dict ν (List ν) :=
  addNode (edges.set node (((edges.get? node).getD []).insert target)) target

def visit (s : Search ν α) (node : ν) : Search ν α :=
  { s with
    visited := node :: s.visited
    edges := (succ node).foldl (addEdge node) (addNode s.edges node)
    acc := note s.acc node }

/-- Put the unvisited targets on top of the pending nodes. -/
def push (visited pending targets : List ν) : List ν :=
  targets.foldl (fun pending target => if target ∈ visited then pending else target :: pending) pending

/-- Visit at most `budget` more nodes, the newest pending node first. -/
def loop : Nat → Search ν α → List ν → Search ν α
  | 0, s, pending => if pending.all (· ∈ s.visited) then s else { s with exhausted := true }
  | budget + 1, s, pending =>
    match pending.dropWhile (· ∈ s.visited) with
    | [] => s
    | node :: rest => loop budget (visit succ note s node) (push (node :: s.visited) rest (succ node))

def explore (budget : Nat) (start : ν) (acc : α) : Search ν α :=
  loop succ note budget { acc := acc } [start]

theorem mem_push_iff (visited pending targets : List ν) (node : ν) :
    node ∈ push visited pending targets ↔ node ∈ pending ∨ node ∈ targets ∧ node ∉ visited := by
  induction targets generalizing pending with
  | nil => simp [push]
  | cons target targets ih =>
    rw [push, List.foldl_cons]
    refine (ih _).trans ?_
    by_cases h : target ∈ visited
    · rw [if_pos h, List.mem_cons]
      constructor
      · rintro (hp | ⟨ht, hv⟩)
        · exact .inl hp
        · exact .inr ⟨.inr ht, hv⟩
      · rintro (hp | ⟨rfl | ht, hv⟩)
        · exact .inl hp
        · exact absurd h hv
        · exact .inr ⟨ht, hv⟩
    · rw [if_neg h, List.mem_cons, List.mem_cons]
      constructor
      · rintro ((rfl | hp) | ⟨ht, hv⟩)
        · exact .inr ⟨.inl rfl, h⟩
        · exact .inl hp
        · exact .inr ⟨.inr ht, hv⟩
      · rintro (hp | ⟨rfl | ht, hv⟩)
        · exact .inl (.inr hp)
        · exact .inl (.inl rfl)
        · exact .inr ⟨ht, hv⟩

theorem mem_of_mem_dropWhile_eq {pending visited : List ν} {rest : List ν}
    (h : pending.dropWhile (· ∈ visited) = rest) {node : ν} (hn : node ∈ pending) : node ∈ visited ∨ node ∈ rest := by
  induction pending with
  | nil => cases hn
  | cons p pending ih =>
    rw [List.dropWhile_cons] at h
    split at h
    · rename_i hp
      rcases List.mem_cons.mp hn with rfl | hn
      · exact .inl (of_decide_eq_true hp)
      · exact ih h hn
    · exact .inr (h ▸ hn)

/-- What a finished search has established about its visited nodes. -/
structure Closed (s result : Search ν α) (pending : List ν) : Prop where
  pending : ∀ node ∈ pending, node ∈ result.visited
  visited : ∀ node ∈ s.visited, node ∈ result.visited
  succ : ∀ node ∈ result.visited, ∀ target ∈ succ node, target ∈ result.visited

theorem loop_closed (budget : Nat) (s : Search ν α) (pending : List ν)
    (hopen : ∀ node ∈ s.visited, ∀ target ∈ succ node, target ∈ s.visited ∨ target ∈ pending)
    (hdone : (loop succ note budget s pending).exhausted = false) :
    Closed succ s (loop succ note budget s pending) pending := by
  have hstop : (∀ node ∈ pending, node ∈ s.visited) → Closed succ s s pending := fun hall =>
    ⟨hall, fun _ h => h, fun node hn target ht => (hopen node hn target ht).elim id (hall target)⟩
  induction budget generalizing s pending with
  | zero =>
    rw [loop] at hdone ⊢
    split at hdone
    · rename_i hall
      rw [if_pos hall]
      exact hstop (by simpa using hall)
    · cases hdone
  | succ budget ih =>
    rw [loop] at hdone ⊢
    cases hdrop : pending.dropWhile (· ∈ s.visited) with
    | nil => exact hstop fun node hn => (mem_of_mem_dropWhile_eq hdrop hn).resolve_right List.not_mem_nil
    | cons node rest =>
      rw [hdrop] at hdone
      have hnext : ∀ v ∈ (visit succ note s node).visited, ∀ target ∈ succ v,
          target ∈ (visit succ note s node).visited ∨ target ∈ push (node :: s.visited) rest (succ node) := by
        intro v hv target ht
        rw [mem_push_iff]
        change target ∈ node :: s.visited ∨ _
        rcases List.mem_cons.mp hv with rfl | hv
        · by_cases hin : target ∈ v :: s.visited
          · exact .inl hin
          · exact .inr (.inr ⟨ht, hin⟩)
        · rcases hopen v hv target ht with hin | hin
          · exact .inl (List.mem_cons_of_mem _ hin)
          · rcases mem_of_mem_dropWhile_eq hdrop hin with hin | hin
            · exact .inl (List.mem_cons_of_mem _ hin)
            · rcases List.mem_cons.mp hin with rfl | hin
              · exact .inl (List.mem_cons_self ..)
              · exact .inr (.inl hin)
      have hclosed := ih (visit succ note s node) (push (node :: s.visited) rest (succ node)) hnext hdone
        fun hall => ⟨hall, fun _ h => h, fun v hv target ht => (hnext v hv target ht).elim id (hall target)⟩
      refine ⟨fun v hv => ?_, fun v hv => hclosed.visited v (List.mem_cons_of_mem _ hv), hclosed.succ⟩
      rcases mem_of_mem_dropWhile_eq hdrop hv with hv | hv
      · exact hclosed.visited v (List.mem_cons_of_mem _ hv)
      · rcases List.mem_cons.mp hv with rfl | hv
        · exact hclosed.visited v (List.mem_cons_self ..)
        · exact hclosed.pending v ((mem_push_iff ..).mpr (.inl hv))

/-- A search that was not cut off has visited a set closed under edges. -/
theorem explore_closed (budget : Nat) (start : ν) (acc : α)
    (hdone : (explore succ note budget start acc).exhausted = false) :
    start ∈ (explore succ note budget start acc).visited ∧
      ∀ node ∈ (explore succ note budget start acc).visited, ∀ target ∈ succ node,
        target ∈ (explore succ note budget start acc).visited := by
  have hclosed := loop_closed succ note budget { acc := acc } [start] (fun _ h => by cases h) hdone
  exact ⟨hclosed.pending start (List.mem_singleton_self start), hclosed.succ⟩

/-- What a note records, and no later note erases, is found in the result. -/
theorem loop_noted (found : α → Prop) {node : ν} (hnote : ∀ a, found (note a node))
    (hkeep : ∀ a v, found a → found (note a v)) (budget : Nat) (s : Search ν α) (pending : List ν)
    (hs : node ∈ s.visited → found s.acc) (hmem : node ∈ (loop succ note budget s pending).visited) :
    found (loop succ note budget s pending).acc := by
  induction budget generalizing s pending with
  | zero =>
    rw [loop] at hmem ⊢
    split at hmem <;> split <;> exact hs hmem
  | succ budget ih =>
    rw [loop] at hmem ⊢
    cases hdrop : pending.dropWhile (· ∈ s.visited) with
    | nil =>
      rw [hdrop] at hmem
      exact hs hmem
    | cons next rest =>
      rw [hdrop] at hmem
      refine ih (visit succ note s next) _ (fun hin => ?_) hmem
      rcases List.mem_cons.mp hin with rfl | hin
      · exact hnote s.acc
      · exact hkeep _ _ (hs hin)

theorem explore_noted (found : α → Prop) {node : ν} (hnote : ∀ a, found (note a node))
    (hkeep : ∀ a v, found a → found (note a v)) {budget : Nat} {start : ν} {acc : α}
    (hmem : node ∈ (explore succ note budget start acc).visited) : found (explore succ note budget start acc).acc :=
  loop_noted succ note found hnote hkeep budget _ _ (fun h => by cases h) hmem

/-- The accumulator has met every visited node once, the oldest first. -/
theorem loop_acc (acc : α) (budget : Nat) (s : Search ν α) (pending : List ν)
    (hs : s.acc = s.visited.foldr (fun node a => note a node) acc) :
    (loop succ note budget s pending).acc =
      (loop succ note budget s pending).visited.foldr (fun node a => note a node) acc := by
  induction budget generalizing s pending with
  | zero =>
    rw [loop]
    split <;> exact hs
  | succ budget ih =>
    rw [loop]
    split
    · exact hs
    · refine ih _ _ ?_
      rw [visit, List.foldr_cons, hs]

theorem explore_acc (budget : Nat) (start : ν) (acc : α) :
    (explore succ note budget start acc).acc =
      (explore succ note budget start acc).visited.foldr (fun node a => note a node) acc :=
  loop_acc succ note acc budget _ _ rfl

omit [DecidableEq ν] in
/-- What every note adds one condition to holds in the end exactly if all the conditions do. -/
theorem notes_forall_iff (holds : α → Prop) {condition : ν → Prop} {acc : α} (hacc : holds acc)
    (hnote : ∀ a node, holds (note a node) ↔ condition node ∧ holds a) (visited : List ν) :
    holds (visited.foldr (fun node a => note a node) acc) ↔ ∀ node ∈ visited, condition node := by
  induction visited with
  | nil => exact iff_of_true hacc (fun node h => by cases h)
  | cons node visited ih =>
    rw [List.foldr_cons, hnote, List.forall_mem_cons]
    exact and_congr_right fun _ => ih

/-- There is a target, and none that is missing. -/
theorem targets_exist_iff {β : Type} {nodes : Dict ν β} {targets : List ν} :
    ¬ (targets = [] ∨ ∃ node ∈ targets, (nodes.get? node).isNone) ↔
      targets ≠ [] ∧ ∀ node ∈ targets, (nodes.get? node).isSome := by
  simp only [not_or, not_exists, not_and, Bool.not_eq_true, Option.isNone_eq_false_iff]

/-- Only nodes that can be reached from the start are visited. -/
theorem loop_reachable {start : ν} (budget : Nat) (s : Search ν α) (pending : List ν)
    (hvisited : ∀ node ∈ s.visited, ReflTransGen (fun a b => b ∈ succ a) start node)
    (hpending : ∀ node ∈ pending, ReflTransGen (fun a b => b ∈ succ a) start node) :
    ∀ node ∈ (loop succ note budget s pending).visited, ReflTransGen (fun a b => b ∈ succ a) start node := by
  induction budget generalizing s pending with
  | zero =>
    rw [loop]
    split <;> exact hvisited
  | succ budget ih =>
    rw [loop]
    split
    · exact hvisited
    · rename_i node rest hdrop
      have hrest : ∀ v ∈ node :: rest, ReflTransGen (fun a b => b ∈ succ a) start v := fun v hv =>
        hpending v ((List.dropWhile_suffix _).subset (hdrop ▸ hv))
      obtain ⟨hnode, hrest⟩ := List.forall_mem_cons.mp hrest
      refine ih _ _ (List.forall_mem_cons.mpr ⟨hnode, hvisited⟩) fun v hv => ?_
      rcases (mem_push_iff ..).mp hv with hv | ⟨hv, _⟩
      · exact hrest v hv
      · exact hnode.tail hv

/-- A search that was not cut off visits exactly the nodes that can be reached. -/
theorem explore_visited_iff (budget : Nat) (start : ν) (acc : α)
    (hdone : (explore succ note budget start acc).exhausted = false) (node : ν) :
    node ∈ (explore succ note budget start acc).visited ↔ ReflTransGen (fun a b => b ∈ succ a) start node := by
  constructor
  · refine loop_reachable succ note budget { acc := acc } [start] (fun _ h => by cases h) (fun v hv => ?_) node
    rw [List.mem_singleton.mp hv]
  · obtain ⟨hstart, hclosed⟩ := explore_closed succ note budget start acc hdone
    intro hreach
    induction hreach with
    | refl => exact hstart
    | tail _ hstep ih => exact hclosed _ ih _ hstep

/-- A budget as large as the set of reachable nodes is never spent. -/
theorem loop_budget (nodes : List ν) (budget : Nat) (s : Search ν α) (pending : List ν)
    (hexhausted : s.exhausted = false)
    (hnodup : s.visited.Nodup) (hvisited : s.visited ⊆ nodes) (hpending : pending ⊆ nodes)
    (hclosed : ∀ node ∈ nodes, succ node ⊆ nodes) (hbudget : nodes.length ≤ s.visited.length + budget) :
    (loop succ note budget s pending).exhausted = false := by
  induction budget generalizing s pending with
  | zero =>
    rw [loop]
    have hall : ∀ node ∈ nodes, node ∈ s.visited := by
      have hperm := (List.subperm_of_subset hnodup hvisited).perm_of_length_le (by omega)
      exact fun node hn => hperm.mem_iff.mpr hn
    rw [if_pos (by simpa using fun node hn => hall node (hpending hn))]
    exact hexhausted
  | succ budget ih =>
    rw [loop]
    split
    · exact hexhausted
    · rename_i node rest hdrop
      have hrest : node :: rest ⊆ nodes := fun v hv => hpending ((List.dropWhile_suffix _).subset (hdrop ▸ hv))
      obtain ⟨hnode, hrest⟩ := List.cons_subset.mp hrest
      have hnew : node ∉ s.visited := by
        have hhead := List.head?_dropWhile_not (fun v => decide (v ∈ s.visited)) pending
        rw [hdrop] at hhead
        simpa using hhead
      refine ih _ _ hexhausted (List.nodup_cons.mpr ⟨hnew, hnodup⟩) (List.cons_subset.mpr ⟨hnode, hvisited⟩)
        (fun v hv => ?_) ?_
      · rcases (mem_push_iff ..).mp hv with hv | ⟨hv, _⟩
        · exact hrest hv
        · exact hclosed node hnode hv
      · change nodes.length ≤ (node :: s.visited).length + budget
        rw [List.length_cons]
        omega

theorem explore_budget (nodes : List ν) (budget : Nat) (start : ν) (acc : α) (hstart : start ∈ nodes)
    (hclosed : ∀ node ∈ nodes, succ node ⊆ nodes) (hbudget : nodes.length ≤ budget) :
    (explore succ note budget start acc).exhausted = false :=
  loop_budget succ note nodes budget _ _ rfl List.nodup_nil (List.nil_subset _)
    (List.cons_subset.mpr ⟨hstart, List.nil_subset _⟩)
    hclosed (by simpa using hbudget)

section edges
omit succ note

/-- The recorded targets of a node. -/
def targetsOf (edges : Dict ν (List ν)) (node : ν) : List ν := (edges.get? node).getD []

theorem targetsOf_addNode (edges : Dict ν (List ν)) (node source : ν) :
    targetsOf (addNode edges node) source = targetsOf edges source := by
  unfold targetsOf addNode
  split
  · rfl
  · rename_i hnone
    rw [Dict.get?_set]
    split
    · rename_i heq
      rw [heq, Option.not_isSome_iff_eq_none.mp hnone]
      rfl
    · rfl

theorem targetsOf_addEdge (node : ν) (edges : Dict ν (List ν)) (target source : ν) :
    targetsOf (addEdge node edges target) source =
      if source = node then (targetsOf edges node).insert target else targetsOf edges source := by
  rw [addEdge, targetsOf_addNode, targetsOf, Dict.get?_set]
  split <;> rfl

theorem mem_targetsOf_addEdges (node : ν) (targets : List ν) (edges : Dict ν (List ν)) (source v : ν) :
    v ∈ targetsOf (targets.foldl (addEdge node) edges) source ↔
      v ∈ targetsOf edges source ∨ source = node ∧ v ∈ targets := by
  induction targets generalizing edges with
  | nil => simp
  | cons target targets ih =>
    rw [List.foldl_cons, ih, targetsOf_addEdge]
    split
    · rename_i heq
      rw [List.mem_insert_iff, List.mem_cons, heq]
      tauto
    · rename_i hne
      simp [hne]

theorem nodup_targetsOf_addEdges (node : ν) (targets : List ν) {edges : Dict ν (List ν)}
    (h : ∀ source, (targetsOf edges source).Nodup) (source : ν) :
    (targetsOf (targets.foldl (addEdge node) edges) source).Nodup := by
  induction targets generalizing edges with
  | nil => exact h source
  | cons target targets ih =>
    refine ih fun source => ?_
    rw [targetsOf_addEdge]
    split
    · exact (h node).insert
    · exact h source

end edges

/-- The recorded edges are those of the visited nodes. -/
theorem loop_edges (budget : Nat) (s : Search ν α) (pending : List ν)
    (hedges : ∀ source v, v ∈ targetsOf s.edges source ↔ source ∈ s.visited ∧ v ∈ succ source)
    (hnodup : ∀ source, (targetsOf s.edges source).Nodup) :
    let result := loop succ note budget s pending
    (∀ source v, v ∈ targetsOf result.edges source ↔ source ∈ result.visited ∧ v ∈ succ source) ∧
      ∀ source, (targetsOf result.edges source).Nodup := by
  induction budget generalizing s pending with
  | zero =>
    rw [loop]
    split <;> exact ⟨hedges, hnodup⟩
  | succ budget ih =>
    rw [loop]
    split
    · exact ⟨hedges, hnodup⟩
    · rename_i node rest _
      refine ih _ _ (fun source v => ?_) (nodup_targetsOf_addEdges node _ fun source => ?_)
      · change v ∈ targetsOf ((succ node).foldl (addEdge node) (addNode s.edges node)) source ↔
          source ∈ node :: s.visited ∧ _
        rw [mem_targetsOf_addEdges, targetsOf_addNode, hedges, List.mem_cons]
        constructor
        · rintro (⟨hvisited, hv⟩ | ⟨rfl, hv⟩)
          · exact ⟨.inr hvisited, hv⟩
          · exact ⟨.inl rfl, hv⟩
        · rintro ⟨rfl | hvisited, hv⟩
          · exact .inr ⟨rfl, hv⟩
          · exact .inl ⟨hvisited, hv⟩
      · rw [targetsOf_addNode]
        exact hnodup source

theorem explore_edges (budget : Nat) (start : ν) (acc : α) :
    let result := explore succ note budget start acc
    (∀ source v, v ∈ targetsOf result.edges source ↔ source ∈ result.visited ∧ v ∈ succ source) ∧
      ∀ source, (targetsOf result.edges source).Nodup :=
  loop_edges succ note budget { acc := acc } [start] (fun _ _ => iff_of_false nofun fun h => by cases h.1) fun _ =>
    List.nodup_nil

/-- The recorded edges of a finished search have no cycle exactly when every walk from the start ends. -/
theorem explore_acyclic_iff (budget : Nat) (start : ν) (acc : α)
    (hdone : (explore succ note budget start acc).exhausted = false) :
    (∀ v, ¬ TransGen (fun a b => b ∈ targetsOf (explore succ note budget start acc).edges a) v v) ↔
      Walks.Ends (fun a b => b ∈ succ a) start := by
  have hvisited := explore_visited_iff succ note budget start acc hdone
  obtain ⟨hedges, _⟩ := explore_edges succ note budget start acc
  rw [Walks.ends_iff_no_cycle fun b hb => (hvisited b).mpr hb]
  have hsame : ∀ v, TransGen (fun a b => b ∈ targetsOf (explore succ note budget start acc).edges a) v v ↔
      ReflTransGen (fun a b => b ∈ succ a) start v ∧ TransGen (fun a b => b ∈ succ a) v v := by
    intro v
    constructor
    · intro hcycle
      obtain ⟨w, hfirst, _⟩ := TransGen.head'_iff.mp hcycle
      refine ⟨(hvisited v).mp ((hedges v w).mp hfirst).1,
        TransGen.mono (fun a b hab => ((hedges a b).mp hab).2) _ _ hcycle⟩
    · rintro ⟨hreach, hcycle⟩
      have hkept : ∀ w, TransGen (fun a b => b ∈ succ a) v w →
          TransGen (fun a b => b ∈ targetsOf (explore succ note budget start acc).edges a) v w := by
        intro w hw
        induction hw with
        | single hstep => exact .single ((hedges _ _).mpr ⟨(hvisited _).mpr hreach, hstep⟩)
        | tail hw hstep ih =>
          exact ih.tail ((hedges _ _).mpr ⟨(hvisited _).mpr (hreach.trans hw.to_reflTransGen), hstep⟩)
      exact hkept v hcycle
  constructor
  · exact fun h v hreach hcycle => h v ((hsame v).mpr ⟨hreach, hcycle⟩)
  · intro h v hcycle
    obtain ⟨hreach, hcycle⟩ := (hsame v).mp hcycle
    exact h v hreach hcycle

end DynvarSync.Lib.Explore
