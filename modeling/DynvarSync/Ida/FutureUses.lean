import DynvarSync.Ida.NativeStorage
import DynvarSync.Ida.ReachingDefinitions

/-! Uses met on the forward paths from a point of a microcode graph before any
redefinition, and when the analysis calls the value dead. -/
namespace DynvarSync.Ida
open Lib

def reasonNotLive : String := "not_live_at_current_pc"

structure FutureUseResult where
  useSites : List DefinitionSite
  redefinitionPaths : Nat := 0
  unresolvedUse : Bool := false
  loopDetected : Bool := false
  traversalExhausted : Bool := false
  visitedStates : Nat := 0
  deriving DecidableEq

def FutureUseResult.hasUse (result : FutureUseResult) : Bool := !result.useSites.isEmpty

/-- How the forward scan of a block ends before its last instruction. -/
inductive ForwardStop where
  | used (position : Nat) (ea : Int)
  | redefined

/-- Scan the instructions from a position on; the flag tells of uses without an address on the way. -/
def scanForward (position : Nat) : List CfgInstructionFact → Bool × Option ForwardStop
  | [] => (false, none)
  | fact :: rest =>
    match fact.use, fact.ea with
    | true, some ea => (false, some (.used position ea))
    | unresolved, _ =>
      if fact.defines then (unresolved, some .redefined)
      else (unresolved || (scanForward (position + 1) rest).1, (scanForward (position + 1) rest).2)

/-- How the forward scan of one state ends. -/
inductive ForwardScan where
  | invalid
  | stopped (unresolved : Bool) (stop : ForwardStop)
  | passed (unresolved : Bool) (successors : List Int)

/-- What the forward search has found so far. -/
structure UseSearch where
  useSites : Dict (Int × Nat) DefinitionSite := Dict.empty
  redefinitionPaths : Nat := 0
  unresolvedUse : Bool := false
  traversalExhausted : Bool := false

section search
variable (blocks : Dict Int CfgBlockFacts)

def scanForwardState (state : Int × Int) : ForwardScan :=
  match blocks.get? state.1 with
  | none => .invalid
  | some block =>
    if state.2 < 0 ∨ block.instructions.length < state.2 then .invalid
    else match scanForward state.2.toNat (block.instructions.drop state.2.toNat) with
      | (unresolved, some stop) => .stopped unresolved stop
      | (unresolved, none) => .passed unresolved block.successors

/-- The states the search goes on to: the starts of the existing successors. -/
def successorStates (state : Int × Int) : List (Int × Int) :=
  match scanForwardState blocks state with
  | .passed _ successors => successors.filterMap fun id => (blocks.get? id).map fun _ => (id, 0)
  | _ => []

def noteForward (initial : Int × Int) (found : UseSearch) (state : Int × Int) : UseSearch :=
  match scanForwardState blocks state with
  | .invalid => { found with traversalExhausted := true }
  | .stopped unresolved (.used position ea) =>
    { found with
      unresolvedUse := unresolved || found.unresolvedUse
      useSites := found.useSites.set (state.1, position)
        { blockId := state.1, instructionIndex := position, ea := some ea, crossedBlock := state ≠ initial } }
  | .stopped unresolved .redefined =>
    { found with
      unresolvedUse := unresolved || found.unresolvedUse
      redefinitionPaths := found.redefinitionPaths + 1 }
  | .passed unresolved successors =>
    { found with
      unresolvedUse := unresolved || found.unresolvedUse
      traversalExhausted := found.traversalExhausted || successors.any fun id => (blocks.get? id).isNone }

def searchFutureUses (start : Int × Int) (maxStates : Option Int) : Explore.Search (Int × Int) UseSearch :=
  Explore.explore (successorStates blocks) (noteForward blocks start) (stateBudget blocks maxStates) start {}

/-- Any use on the paths from a point before an overlapping redefinition. -/
def findFutureUses (currentBlockId currentInstruction : Int) (maxStates : Option Int := none) : FutureUseResult :=
  let search := searchFutureUses blocks (currentBlockId, currentInstruction) maxStates
  { useSites := search.acc.useSites.values.mergeSort siteOrder
    redefinitionPaths := search.acc.redefinitionPaths
    unresolvedUse := search.acc.unresolvedUse
    loopDetected := graphHasCycle search.edges
    traversalExhausted := search.acc.traversalExhausted || search.exhausted
    visitedStates := search.visited.length }

end search

def futureUseRejectionReason (result : FutureUseResult) : Option String :=
  if result.hasUse then none
  else if result.unresolvedUse || result.loopDetected || result.traversalExhausted then
    some reasonCrossBlockLivenessUnproven
  else some reasonNotLive

end DynvarSync.Ida
