import DynvarSync.Ida.EntryPaths
import DynvarSync.Ida.FutureWalks
import DynvarSync.Ida.ReachingWalks

/-! The cycle test on every edge map, and the three searches that rest on it. -/
namespace DynvarSync.Ida
open Lib Relation

/-- A finished search has a cycle exactly when a walk from its start goes on forever. -/
theorem explored_cycle_iff {ν α : Type} [DecidableEq ν] (succ : ν → List ν) (note : α → ν → α)
    (budget : Nat) (start : ν)
    (acc : α) (hdone : (Explore.explore succ note budget start acc).exhausted = false) :
    graphHasCycle (Explore.explore succ note budget start acc).edges = true ↔
      Walks.InfiniteWalk (fun a b => b ∈ succ a) start := by
  rw [← not_iff_not, Bool.not_eq_true, Walks.not_infiniteWalk_iff]
  exact explored_acyclic_iff succ note budget start acc hdone

/-- The test ends on every edge map, after no more turns than there are nodes, and answers whether a node lies on a
cycle; the three searches detect a loop exactly when a walk from their start goes on forever. -/
theorem cycle_detection_exact :
    (∀ (ν : Type) [DecidableEq ν] (g : EdgeMap ν),
      (∃ turns ≤ (graphNodes g.edges).length, EndsAfter g.edges turns ∧
        (graphHasCycle g.edges = true ↔ turns ≠ (graphNodes g.edges).length)) ∧
      (graphHasCycle g.edges = true ↔ ∃ node, TransGen (Edge g.edges) node node)) ∧
    (∀ (blocks : Dict Int CfgBlockFacts) (id position : Int),
      (findReachingDefinitions blocks id position).loopDetected = true ↔
        Walks.InfiniteWalk (fun a b => b ∈ previousStates blocks a) (id, position)) ∧
    (∀ (blocks : Dict Int CfgBlockFacts) (id position : Int),
      (findFutureUses blocks id position).loopDetected = true ↔
        Walks.InfiniteWalk (fun a b => b ∈ successorStates blocks a) (id, position)) ∧
    ∀ (cfg : NativeCfg) (definitionEa : Int) (register : RegisterSpec) (width : Nat) (start : ScanState),
      graphHasCycle (cfg.searchStorage definitionEa register width start).edges = true ↔
        Walks.InfiniteWalk (fun a b => b ∈ cfg.nextStates definitionEa register width a) start := by
  refine ⟨fun ν _ g => ⟨g.ends, ?_⟩, fun blocks id position => ?_, fun blocks id position => ?_,
    fun cfg definitionEa register width start => ?_⟩
  · rw [← not_iff_not, Bool.not_eq_true, not_exists]
    exact graphHasCycle_eq_false_iff g.sets
  · exact explored_cycle_iff _ _ _ _ _ (searchDefinitions_done blocks (id, position))
  · exact explored_cycle_iff _ _ _ _ _ (searchFutureUses_done blocks (id, position))
  · exact explored_cycle_iff _ _ _ _ _ (NativeCfg.searchStorage_done cfg definitionEa register width start)

/-- A loop of two blocks behind a node of its own, and a destination that is no key. -/
example : graphHasCycle (⟨[(0, [1]), (1, [2]), (2, [1, 3])], by decide⟩ : Dict Nat (List Nat)) = true := by decide

end DynvarSync.Ida
