import DynvarSync.Ida.Evidence
import DynvarSync.Ida.GraphCycle

/-! The first definitions met on the backward paths from a point of a microcode
graph, and when the analysis accepts one of them as the reaching definition. -/
namespace DynvarSync.Ida
open Lib Relation Walks

def reasonAmbiguousReachingDefinition : String := "ambiguous_reaching_definition"

structure CfgInstructionFact where
  ea : Option Int
  wholeDefinition : Bool := false
  overlappingDefinition : Bool := false
  use : Bool := false
  deriving DecidableEq

structure CfgBlockFacts where
  instructions : List CfgInstructionFact
  predecessors : List Int := []
  successors : List Int := []
  deriving DecidableEq

structure DefinitionSite where
  blockId : Int
  instructionIndex : Nat
  ea : Option Int
  crossedBlock : Bool := false
  deriving DecidableEq

structure ReachingDefinitionResult where
  definitions : List DefinitionSite
  unresolvedPath : Bool := false
  overlappingDefinition : Bool := false
  loopDetected : Bool := false
  traversalExhausted : Bool := false
  visitedStates : Nat := 0
  deriving DecidableEq

def ReachingDefinitionResult.count (result : ReachingDefinitionResult) : Nat := result.definitions.length

/-- A definition of any kind ends a path. -/
def CfgInstructionFact.defines (fact : CfgInstructionFact) : Bool := fact.wholeDefinition || fact.overlappingDefinition

/-- The order of reported sites. -/
def siteOrder (a b : DefinitionSite) : Bool :=
  a.blockId < b.blockId || (a.blockId = b.blockId && a.instructionIndex ≤ b.instructionIndex)

/-- The nearest definition before a limit, with its position. -/
def lastDefinition (instructions : List CfgInstructionFact) : Nat → Option (Nat × CfgInstructionFact)
  | 0 => none
  | position + 1 =>
    match instructions[position]? with
    | some fact => if fact.defines then some (position, fact) else lastDefinition instructions position
    | none => none

/-- How the backward scan of one state ends. -/
inductive BackwardScan where
  | invalid
  | defined (position : Nat) (fact : CfgInstructionFact)
  | passed (predecessors : List Int)

/-- What the backward search has found so far. -/
structure DefinitionSearch where
  definitions : Dict (Int × Nat) DefinitionSite := Dict.empty
  unresolvedPath : Bool := false
  overlappingDefinition : Bool := false

section search
variable (blocks : Dict Int CfgBlockFacts)

def scanBackward (state : Int × Int) : BackwardScan :=
  match blocks.get? state.1 with
  | none => .invalid
  | some block =>
    if state.2 < 0 ∨ block.instructions.length < state.2 then .invalid
    else match lastDefinition block.instructions state.2.toNat with
      | some (position, fact) => .defined position fact
      | none => .passed block.predecessors

/-- The states the search goes on to: the ends of the existing predecessors. -/
def previousStates (state : Int × Int) : List (Int × Int) :=
  match scanBackward blocks state with
  | .passed predecessors => predecessors.filterMap fun id =>
      (blocks.get? id).map fun block => (id, (block.instructions.length : Int))
  | _ => []

def noteBackward (found : DefinitionSearch) (state : Int × Int) : DefinitionSearch :=
  match scanBackward blocks state with
  | .invalid => { found with unresolvedPath := true }
  | .defined position fact =>
    if fact.wholeDefinition then
      { found with
        overlappingDefinition := found.overlappingDefinition || fact.overlappingDefinition
        definitions := found.definitions.set (state.1, position)
          { blockId := state.1, instructionIndex := position, ea := fact.ea } }
    else { found with overlappingDefinition := true }
  | .passed predecessors =>
    if predecessors = [] ∨ ∃ id ∈ predecessors, (blocks.get? id).isNone then { found with unresolvedPath := true }
    else found

def stateBudget (maxStates : Option Int) : Nat := (maxStates.getD (max 64 (blocks.size * 4 + 4))).toNat

def searchDefinitions (start : Int × Int) (maxStates : Option Int) : Explore.Search (Int × Int) DefinitionSearch :=
  Explore.explore (previousStates blocks) (noteBackward blocks) (stateBudget blocks maxStates) start {}

/-- The first definitions on every backward path to a point before an instruction. -/
def findReachingDefinitions (currentBlockId currentInstruction : Int) (maxStates : Option Int := none) :
    ReachingDefinitionResult :=
  let search := searchDefinitions blocks (currentBlockId, currentInstruction) maxStates
  { definitions := search.acc.definitions.values.mergeSort siteOrder
    unresolvedPath := search.acc.unresolvedPath
    overlappingDefinition := search.acc.overlappingDefinition
    loopDetected := graphHasCycle search.edges
    traversalExhausted := search.exhausted
    visitedStates := search.visited.length }

end search

def reachingDefinitionRejectionReason (result : ReachingDefinitionResult) : Option String :=
  if result.overlappingDefinition then some reasonAmbiguousReachingDefinition
  else if result.count = 0 then some reasonNoDefinition
  else if result.count > 1 then some reasonAmbiguousReachingDefinition
  else if result.unresolvedPath then some reasonNoDefinition
  else if result.loopDetected || result.traversalExhausted then some reasonAmbiguousReachingDefinition
  else none

end DynvarSync.Ida
