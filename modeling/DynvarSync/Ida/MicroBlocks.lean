import DynvarSync.Ida.NativeFlow
import DynvarSync.Ida.ReachingDefinitions

/-! The microcode of a decompiled function as the analysis collects it: the blocks with
their instruction lists and edges, and what each instruction reads and writes. -/
namespace DynvarSync.Ida
open Lib

inductive MopType where
  | lvar | number | other
  deriving DecidableEq

structure LvarRef where
  idx : Int
  off : Int := 0
  deriving DecidableEq

/-- An operand; a number's value may be refused by either of the two ways to ask for it. -/
structure MicroOperand where
  t : MopType
  l : Option LvarRef := none
  size : Int := 0
  unsignedValue : Option Int := none
  nnnValue : Option Int := none
  deriving DecidableEq

inductive Opcode where
  | mov | other
  deriving DecidableEq

/-- A top-level instruction; `operands` are those the visitor is shown, with whether each is a target. -/
structure MicroInstruction where
  ea : Option Int
  opcode : Opcode := .other
  modifiesD : Option Bool := some false
  d : Option MicroOperand := none
  l : Option MicroOperand := none
  operands : List (MicroOperand × Bool) := []
  visitorResult : Int := 0
  deriving DecidableEq

/-- A block of Hex-Rays objects; instructions are known by handles. -/
structure MicroBlock (ι : Type) where
  serial : Int
  head : Option ι
  tail : Option ι
  npred : Int := 0
  pred : Nat → Int := fun _ => 0
  nsucc : Int := 0
  succ : Nat → Int := fun _ => 0

/-- What Hex-Rays answers about one local variable; `none` is a missing or failing question. -/
structure MicroLvar where
  name : String
  width : Int
  isScattered : Option Bool := some false
  wasScatteredArg : Option Bool := some false
  isShared : Option Bool := some false
  isOverlappedVar : Option Bool := some false
  isUsedByref : Option Bool := some false
  isRegVar : Option Bool := some false
  isStkVar : Option Bool := some false
  isReg1 : Option Bool := some false
  isReg2 : Option Bool := some false
  isAliasable : Option Bool := some false
  reg1 : Option Int := none
  stkoff : Option Int := none
  locationStkoff : Option Int := none
  deriving DecidableEq

/-- The microcode of one function; `same` is the test of two handles for one instruction. -/
structure Mba (ι : Type) where
  qty : Int
  getMblock : Nat → Option (MicroBlock ι)
  next : ι → Option ι
  identity : ι → Int
  same : ι → ι → Bool
  instruction : ι → MicroInstruction
  mapFictEa : Int → Option Int := fun ea => some ea
  vars : List MicroLvar
  hasCommon : MicroLvar → MicroLvar → Option Bool := fun _ _ => some false
  stkoffVd2ida : Int → Option Int := fun _ => none
  maturity : Int

structure InsnAccess where
  uses : List Int
  targets : List (Int × Int × Int)
  deriving DecidableEq

/-- A collected instruction with its accesses and its mapped address. -/
structure CollectedInstruction where
  instruction : MicroInstruction
  access : InsnAccess
  ea : Option Int
  deriving DecidableEq

structure MicroBlockData where
  blockId : Int
  instructions : List CollectedInstruction
  predecessors : List Int
  successors : List Int
  deriving DecidableEq

def collectLvarAccesses (insn : MicroInstruction) : Except String InsnAccess :=
  let references := insn.operands.filterMap fun (op, isTarget) =>
    if op.t = .lvar then op.l.map fun reference => (reference, op.size, isTarget) else none
  if insn.visitorResult ≠ 0 then
    .error ("microcode operand visitor stopped with result=" ++ toString insn.visitorResult)
  else .ok
    { uses := (references.filter fun entry => !entry.2.2).map fun entry => entry.1.idx
      targets := (references.filter fun entry => entry.2.2).map fun entry => (entry.1.idx, entry.1.off, entry.2.1) }

def microEdgeIds (qty count : Int) (edge : Nat → Int) : Except String (List Int) :=
  if count < 0 ∨ qty < count then .error ("invalid microcode edge count " ++ toString count)
  else
    let edgeIds := (List.range count.toNat).map edge
    match edgeIds.find? fun edgeId => decide (edgeId < 0 ∨ qty ≤ edgeId) with
    | some edgeId => .error ("invalid microcode edge serial " ++ toString edgeId)
    | none => .ok (sortedIds edgeIds)

namespace Mba
variable {ι : Type} (mba : Mba ι)

/-- Follow the list to its tail, with the number of instructions that may still be taken. -/
def topInstructionsFrom (tail : ι) : Nat → List Int → Option ι → Except String (List ι)
  | _, _, none => .error "microcode instruction list ended before tail"
  | 0, _, some _ => .error "microcode instruction list cap exceeded"
  | budget + 1, seen, some current =>
    if mba.identity current ∈ seen then .error "cycle in microcode instruction list"
    else if mba.same current tail then .ok [current]
    else (topInstructionsFrom tail budget (mba.identity current :: seen) (mba.next current)).map (current :: ·)

def topInstructions (block : MicroBlock ι) : Except String (List ι) :=
  match block.head, block.tail with
  | none, none => .ok []
  | some head, some tail => mba.topInstructionsFrom tail 100000 [] (some head)
  | _, _ => .error "incomplete microcode instruction list endpoints"

def realMicroEa (value : Option Int) : Option Int :=
  match value with
  | none => none
  | some ea =>
    if ea = badaddr then none
    else match mba.mapFictEa ea with
      | none => some ea
      | some mapped => if mapped = badaddr then some ea else some mapped

def collectInstruction (insn : MicroInstruction) : Except String CollectedInstruction :=
  (collectLvarAccesses insn).map fun access =>
    { instruction := insn, access := access, ea := mba.realMicroEa insn.ea }

def collectMicroBlock (serial : Nat) : Except String MicroBlockData :=
  match mba.getMblock serial with
  | none => .error ("microcode block serial mismatch at " ++ toString serial)
  | some block =>
    if block.serial ≠ serial then .error ("microcode block serial mismatch at " ++ toString serial)
    else do
      let handles ← mba.topInstructions block
      let predecessors ← microEdgeIds mba.qty block.npred block.pred
      let successors ← microEdgeIds mba.qty block.nsucc block.succ
      let instructions ← handles.mapM fun handle => mba.collectInstruction (mba.instruction handle)
      return { blockId := serial, instructions := instructions, predecessors := predecessors, successors := successors }

def collectMicroBlocks : Except String (Dict Int MicroBlockData) :=
  if mba.qty ≤ 0 then .error "microcode CFG has no blocks"
  else do
    let collected ← (List.range mba.qty.toNat).mapM mba.collectMicroBlock
    let blocks := Dict.byKey MicroBlockData.blockId collected
    validateCfgReciprocity MicroBlockData.predecessors MicroBlockData.successors blocks "microcode"
    return blocks

end Mba

def MicroBlockData.positionsOf (block : MicroBlockData) (ea : Int) : List Nat :=
  (List.range block.instructions.length).filter fun position =>
    decide ((block.instructions[position]?.bind CollectedInstruction.ea) = some ea)

/-- The block and the first of the instructions of an address, if these are one contiguous run of one block. -/
def findExactMicrocodePoint (microBlocks : Dict Int MicroBlockData) (currentEa : Int) :
    Option (MicroBlockData × Nat) :=
  let found := (microBlocks.values.map fun block => (block, block.positionsOf currentEa)).filter (·.2 ≠ [])
  if found.all fun entry => entry.2 = List.range' (entry.2.headD 0) (entry.2.getLastD 0 + 1 - entry.2.headD 0) then
    match found with
    | [(block, positions)] => some (block, positions.headD 0)
    | _ => none
  else none

/-- The instruction writes the whole of the variable. -/
def isWholeLvarDefinition (insn : MicroInstruction) (index : Int) (width : Nat) : Bool :=
  match insn.modifiesD, insn.d with
  | some true, some destination =>
    match destination.t, destination.l with
    | .lvar, some reference => reference.idx = index && reference.off = 0 && destination.size = width
    | _, _ => false
  | _, _ => false

/-- The number a whole definition moves into the variable. -/
def directConstantDefinition (insn : MicroInstruction) (index : Int) (width : Nat) : Option Int :=
  if !isWholeLvarDefinition insn index width then none
  else if insn.opcode ≠ .mov then none
  else match insn.l with
    | none => none
    | some source =>
      if source.t ≠ .number then none
      else if source.size ≠ width ∧ source.size ≠ 0 then none
      else source.unsignedValue.or source.nnnValue

namespace Mba
variable {ι : Type} (mba : Mba ι)

def vectorAt (index : Int) : Option MicroLvar := if index < 0 then none else mba.vars[index.toNat]?

/-- A write to another variable counts unless Hex-Rays denies that the two share a byte. -/
def mayOverlap (target : MicroLvar) (other : Int) : Bool :=
  ((mba.vectorAt other).bind (mba.hasCommon target)).getD true

def candidateFact (target : MicroLvar) (index : Int) (width : Nat) (entry : CollectedInstruction) : CfgInstructionFact :=
  let wholeDefinition := isWholeLvarDefinition entry.instruction index width
  { ea := entry.ea
    wholeDefinition := wholeDefinition
    overlappingDefinition := entry.access.targets.any fun (other, offset, size) =>
      if other = index then !(wholeDefinition && offset = 0 && size = width) else mba.mayOverlap target other
    use := entry.access.uses.contains index }

def candidateBlock (target : MicroLvar) (index : Int) (width : Nat) (block : MicroBlockData) : CfgBlockFacts :=
  { instructions := block.instructions.map (mba.candidateFact target index width)
    predecessors := block.predecessors
    successors := block.successors }

/-- What the microcode does to one variable, block by block. -/
def candidateCfgFacts (target : MicroLvar) (index : Int) (width : Nat) (microBlocks : Dict Int MicroBlockData) :
    Dict Int CfgBlockFacts :=
  microBlocks.entries.foldl (fun blocks e => blocks.set e.1 (mba.candidateBlock target index width e.2)) Dict.empty

end Mba
end DynvarSync.Ida
