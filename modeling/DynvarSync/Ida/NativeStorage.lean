import DynvarSync.Ida.Evidence
import DynvarSync.Ida.GraphCycle
import DynvarSync.Lib.Explore

/-! The native proof that one physical register still holds what its definition
wrote: a backward search from the current PC over the control-flow graph. -/
namespace DynvarSync.Ida
open Lib

def reasonUnresolvedNativePoint : String := "unresolved_native_program_point"
def reasonStorageClobbered : String := "storage_clobbered_before_current_pc"
def reasonCrossBlockLivenessUnproven : String := "cross_block_liveness_unproven"

structure RegisterWrite where
  fullRegister : String
  bitOffset : Int
  bitSize : Int
  deriving DecidableEq

namespace RegisterWrite

def covers (write : RegisterWrite) (spec : RegisterSpec) (width : Nat) : Bool :=
  write.bitOffset ≤ spec.bitOffset && spec.bitOffset + width * 8 ≤ write.bitOffset + write.bitSize

def overlaps (write : RegisterWrite) (spec : RegisterSpec) (width : Nat) : Bool :=
  write.bitOffset < spec.bitOffset + width * 8 && spec.bitOffset < write.bitOffset + write.bitSize

end RegisterWrite

structure NativeInstructionFact where
  ea : Int
  writes : List RegisterWrite := []
  isCall : Bool := false
  registerAccessKnown : Bool := true
  deriving DecidableEq

structure NativeBlockFacts where
  blockId : Int
  instructions : List NativeInstructionFact
  predecessors : List Int := []
  successors : List Int := []
  deriving DecidableEq

/-- The native control-flow graph, each block under its own id. -/
structure NativeCfg where
  blocks : Dict Int NativeBlockFacts
  keyed : ∀ id block, blocks.get? id = some block → block.blockId = id

structure StorageValidation where
  valid : Bool
  reason : String
  clobberEa : Option Int := none
  visitedBlocks : Nat := 0
  deriving DecidableEq

/-- A block and the number of its instructions still to be scanned backward. -/
abbrev ScanState := Int × Nat

/-- How the backward scan of one state ends. -/
inductive Scan where
  | unresolved
  | clobbered (ea : Int)
  | reached
  | passed (predecessors : List Int)

/-- What the search has found so far. -/
structure StorageSearch where
  reachedDefinition : Bool := false
  unresolved : Bool := false
  clobberEa : Option Int := none

namespace NativeCfg

/-- The places of an instruction address. -/
def matchesAt (cfg : NativeCfg) (ea : Int) : List (Int × Nat) :=
  cfg.blocks.values.flatMap fun block =>
    (block.instructions.zipIdx.filter fun entry => entry.1.ea = ea).map fun entry => (block.blockId, entry.2)

section scan
variable (cfg : NativeCfg) (definitionEa : Int) (register : RegisterSpec) (width : Nat)

def touchesStorage (instruction : NativeInstructionFact) : Bool :=
  instruction.writes.any fun write => write.fullRegister = register.fullRegister && write.overlaps register width

def coversStorage (instruction : NativeInstructionFact) : Bool :=
  instruction.writes.any fun write => write.fullRegister = register.fullRegister && write.covers register width

/-- The verdict of one instruction; `none` lets the scan go on. -/
def scanInstruction (instruction : NativeInstructionFact) : Option Scan :=
  if instruction.ea = definitionEa then
    if !instruction.registerAccessKnown || !coversStorage register width instruction then
      some (.clobbered instruction.ea)
    else some .reached
  else if !instruction.registerAccessKnown then some .unresolved
  else if instruction.isCall || touchesStorage register width instruction then some (.clobbered instruction.ea)
  else none

def scanState (state : ScanState) : Scan :=
  match cfg.blocks.get? state.1 with
  | none => .unresolved
  | some block =>
    if block.instructions.length < state.2 ∨ block.instructions = [] then .unresolved
    else match (block.instructions.take state.2).reverse.findSome? (scanInstruction definitionEa register width) with
      | some scan => scan
      | none => .passed block.predecessors

/-- The states the search goes on to: the ends of the predecessors. -/
def nextStates (state : ScanState) : List ScanState :=
  match cfg.scanState definitionEa register width state with
  | .passed predecessors => predecessors.filterMap fun id =>
      (cfg.blocks.get? id).map fun block => (id, block.instructions.length)
  | _ => []

def noteState (found : StorageSearch) (state : ScanState) : StorageSearch :=
  match cfg.scanState definitionEa register width state with
  | .unresolved => { found with unresolved := true }
  | .clobbered ea => { found with clobberEa := some ea }
  | .reached => { found with reachedDefinition := true }
  | .passed predecessors =>
    if predecessors = [] ∨ ∃ id ∈ predecessors, (cfg.blocks.get? id).isNone then { found with unresolved := true }
    else found

def searchBudget : Nat := max 64 (cfg.blocks.size * 4 + 4)

def searchStorage (start : ScanState) : Explore.Search ScanState StorageSearch :=
  Explore.explore (cfg.nextStates definitionEa register width) (cfg.noteState definitionEa register width)
    cfg.searchBudget start {}

end scan

/-- Prove one physical register unchanged on every path from its definition to the current PC. -/
def validateRegisterStorageCfg (cfg : NativeCfg) (definitionEa currentEa : Int) (register : RegisterSpec)
    (width : Nat) : StorageValidation :=
  match cfg.matchesAt definitionEa, cfg.matchesAt currentEa with
  | [definition], [current] =>
    if definition.1 = current.1 ∧ current.2 ≤ definition.2 then
      { valid := false, reason := reasonUnresolvedNativePoint }
    else
      let search := cfg.searchStorage definitionEa register width current
      let visitedBlocks := (search.visited.map Prod.fst).dedup.length
      match search.acc.clobberEa with
      | some ea =>
        { valid := false, reason := reasonStorageClobbered, clobberEa := some ea, visitedBlocks := visitedBlocks }
      | none =>
        if !search.acc.reachedDefinition || search.acc.unresolved || search.exhausted || graphHasCycle search.edges then
          { valid := false
            reason := if search.exhausted || graphHasCycle search.edges then reasonCrossBlockLivenessUnproven
              else reasonUnresolvedNativePoint
            visitedBlocks := visitedBlocks }
        else
          { valid := true, reason := "exact register storage survives to current PC"
            visitedBlocks := visitedBlocks }
  | _, _ => { valid := false, reason := reasonUnresolvedNativePoint }

end NativeCfg
end DynvarSync.Ida
