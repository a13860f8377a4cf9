import DynvarSync.Ida.EntryPaths
import DynvarSync.Ida.RegisterAliases
import DynvarSync.Ida.StackDefinition

/-! What the native side of the analysis asks IDA: the flow chart of a function, the
decoded instructions, and the registers and frame slots an instruction writes. -/
namespace DynvarSync.Ida
open Lib

def badaddr : Int := 2 ^ 64 - 1

inductive AccessType where
  | read | write | rw
  deriving DecidableEq

structure RegisterAccess where
  accessType : AccessType
  range : Option (Int × Int)
  regnum : Int
  deriving DecidableEq

inductive OperandType where
  | void | imm | phrase | displ | other
  deriving DecidableEq

/-- What IDA answers about one operand; `none` is a question it fails on. -/
structure NativeOperand where
  type : OperandType
  changed : Option Bool := some false
  used : Option Bool := some false
  frameOffset : Option Int := none
  dtypeSize : Option Int := none
  deriving DecidableEq

/-- A decoded instruction with IDA's answers about it; `none` is a question IDA fails on. -/
structure DecodedInstruction where
  size : Int
  operands : Option (List NativeOperand) := some []
  registerAccesses : Option (List RegisterAccess) := none
  isCall : Option Bool := some false
  deriving DecidableEq

structure Processor where
  decodeInstruction : Int → Option DecodedInstruction
  getRegName : Int → Int → Option String

structure RawBlock where
  id : Int
  startEa : Int
  endEa : Int
  preds : List Int := []
  succs : List Int := []
  deriving DecidableEq

namespace NativeOperand

def stackWrites : List NativeOperand → Option (List (Int × Int))
  | [] => some []
  | operand :: rest =>
    if operand.type = .void then some []
    else match operand.changed with
      | none => none
      | some false => stackWrites rest
      | some true =>
        if operand.type ≠ .phrase ∧ operand.type ≠ .displ then stackWrites rest
        else match operand.frameOffset with
          | none => none
          | some frameOffset =>
            if frameOffset = badaddr ∨ frameOffset < 0 then none
            else match operand.dtypeSize with
              | none => none
              | some size => if size ≤ 0 then none else (stackWrites rest).map ((frameOffset, size) :: ·)

def usesImmediate : List NativeOperand → Bool
  | [] => false
  | operand :: rest =>
    if operand.type = .void then false
    else if operand.type = .imm then
      match operand.used with
      | none => false
      | some true => true
      | some false => usesImmediate rest
    else usesImmediate rest

end NativeOperand

def nativeStackWrites (insn : DecodedInstruction) : Bool × List (Int × Int) :=
  match insn.operands.bind NativeOperand.stackWrites with
  | none => (false, [])
  | some writes => (true, writes)

def nativeDefinitionUsesImmediate (insn : DecodedInstruction) : Bool :=
  (insn.operands.map NativeOperand.usesImmediate).getD false

namespace Processor
variable (processor : Processor)

def nativeDecoder : NativeDecoder DecodedInstruction :=
  { decodeInstruction := processor.decodeInstruction
    size := DecodedInstruction.size
    nativeStackWrites := nativeStackWrites }

/-- The physical range of one written range, if the named register is one of the sixteen. -/
def physicalWrite (entry : RegisterAlias) (bitOffset bitSize : Int) : RegisterWrite :=
  let bitOffset := if bitOffset = 0 ∧ entry.bitOffset ≠ 0 then entry.bitOffset else bitOffset
  let bitSize := if bitOffset = 0 ∧ bitSize = 32 ∧ entry.fullRegister ∈ fullRegisterOrder then 64 else bitSize
  { fullRegister := entry.fullRegister, bitOffset := bitOffset, bitSize := bitSize }

/-- The writes of one access; segment, flag and vector registers have no supported name. -/
def accessWrites (access : RegisterAccess) : Option (List RegisterWrite) :=
  if access.accessType = .read then some []
  else match access.range with
    | none => none
    | some (bitOffset, bitSize) =>
      if bitSize ≤ 0 then none
      else (processor.getRegName access.regnum (max 1 ((bitSize + 7) / 8))).map fun name =>
        match normalizeRegisterAlias name with
        | none => []
        | some entry => [physicalWrite entry bitOffset bitSize]

def registerWrites (insn : DecodedInstruction) : Bool × List RegisterWrite :=
  match insn.registerAccesses.bind fun accesses => accesses.mapM processor.accessWrites with
  | none => (false, [])
  | some writes => (true, writes.flatten)

def instructionFact (ea : Int) (insn : DecodedInstruction) : NativeInstructionFact :=
  let (registerAccessKnown, writes) := processor.registerWrites insn
  { ea := ea
    writes := writes
    isCall := insn.isCall.getD false
    registerAccessKnown := registerAccessKnown && insn.isCall.isSome }

/-- The linear sweep of a block, with the number of instructions it may still decode. -/
def sweep (blockId endEa : Int) : Nat → Int → Except String (List NativeInstructionFact)
  | budget, ea =>
    if endEa ≤ ea then .ok []
    else match budget with
      | 0 => .error ("native block " ++ toString blockId ++ " instruction cap exceeded")
      | budget + 1 =>
        match processor.decodeInstruction ea with
        | none => .ok [{ ea := ea, registerAccessKnown := false }]
        | some insn =>
          if insn.size ≤ 0 ∨ endEa < ea + insn.size then .ok [{ ea := ea, registerAccessKnown := false }]
          else (sweep blockId endEa budget (ea + insn.size)).map (processor.instructionFact ea insn :: ·)

end Processor

/-- `sorted(set(ids))`. -/
def sortedIds (ids : List Int) : List Int := ids.dedup.mergeSort fun a b => decide (a ≤ b)

def nativeEdgeIds (known : List Int) (edges : List Int) : Except String (List Int) :=
  match edges.find? (· ∉ known) with
  | some edgeId => .error ("native edge references unknown block " ++ toString edgeId)
  | none => .ok (sortedIds edges)

def nativeBlock (processor : Processor) (known : List Int) (raw : RawBlock) : Except String NativeBlockFacts :=
  if raw.startEa = badaddr ∨ raw.endEa = badaddr ∨ raw.startEa < 0 ∨ raw.endEa < raw.startEa then
    .error ("invalid native block bounds id=" ++ toString raw.id)
  else do
    let predecessors ← nativeEdgeIds known raw.preds
    let successors ← nativeEdgeIds known raw.succs
    let instructions ← processor.sweep raw.id raw.endEa 100000 raw.startEa
    return { blockId := raw.id, instructions := instructions, predecessors := predecessors, successors := successors }

/-- The first edge told by one end only, in the order of the blocks. -/
def unmatchedEdge {β : Type} (predecessors successors : β → List Int) (blocks : Dict Int β) : Option (Int × Int) :=
  let told : Int → (β → List Int) → Int → Bool := fun id edges other =>
    ((blocks.get? other).map fun block => decide (id ∈ edges block)).getD false
  blocks.entries.findSome? fun (id, block) =>
    (((successors block).find? fun next => !told id predecessors next).map fun next => (id, next)).or
      (((predecessors block).find? fun previous => !told id successors previous).map fun previous => (previous, id))

def validateCfgReciprocity {β : Type} (predecessors successors : β → List Int) (blocks : Dict Int β)
    (label : String) : Except String Unit :=
  match unmatchedEdge predecessors successors blocks with
  | some (source, target) =>
    .error (label ++ " CFG edge " ++ toString source ++ "->" ++ toString target ++ " is not reciprocal")
  | none => .ok ()

/-- The first block id that occurs a second time. -/
def duplicateId : List Int → List Int → Option Int
  | _, [] => none
  | seen, id :: rest => if id ∈ seen then some id else duplicateId (id :: seen) rest

/-- Snapshot the flow chart of a function; an exception of IDA is its error text. -/
def buildNativeCfgFacts (processor : Processor) (flowchart : Except String (List RawBlock)) :
    Except String NativeCfg := do
  let rawBlocks ← flowchart
  if rawBlocks = [] then throw "native FlowChart has no blocks"
  match duplicateId [] (rawBlocks.map RawBlock.id) with
  | some id => throw ("duplicate native block id " ++ toString id)
  | none =>
    let blocks ← rawBlocks.mapM (nativeBlock processor (rawBlocks.map RawBlock.id))
    let byId := Dict.byKey NativeBlockFacts.blockId blocks
    validateCfgReciprocity NativeBlockFacts.predecessors NativeBlockFacts.successors byId "native"
    return { blocks := byId, keyed := fun _ _ h => (Dict.of_get?_byKey h).1 }

/-- The bounds of the one block an address lies in. -/
def nativeBlockBounds (flowchart : Except String (List RawBlock)) (ea : Int) : Option (Int × Int) :=
  match flowchart with
  | .error _ => none
  | .ok rawBlocks =>
    match (rawBlocks.filter fun raw => raw.startEa ≤ ea ∧ ea < raw.endEa).map fun raw => (raw.startEa, raw.endEa) with
    | [bounds] => some bounds
    | _ => none

end DynvarSync.Ida
