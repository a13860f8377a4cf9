import DynvarSync.Ida.Variable
import DynvarSync.Lib.Dict
import Mathlib.Data.List.Sort

/-! The Live Variables table and the bounded choice of locals to analyse at one
PC, rotating over the functions' locals. -/
namespace DynvarSync.Ida
open Lib PyText

/-- The table's display filters. -/
inductive RowFilter where
  | all | fresh | recoverable | arguments | namedLocals | unavailable
  deriving DecidableEq, Repr

/-- Code points that `str.isdigit` accepts beyond the decimal digits. -/
def otherDigits : List (Nat × Nat) :=
  [(0xb2, 0xb3), (0xb9, 0xb9), (0x1369, 0x1371), (0x19da, 0x19da), (0x2070, 0x2070), (0x2074, 0x2079),
   (0x2080, 0x2089), (0x2460, 0x2468), (0x2474, 0x247c), (0x2488, 0x2490), (0x24ea, 0x24ea), (0x24f5, 0x24fd),
   (0x24ff, 0x24ff), (0x2776, 0x277e), (0x2780, 0x2788), (0x278a, 0x2792), (0x10a40, 0x10a43), (0x10e60, 0x10e68),
   (0x11052, 0x1105a), (0x1f100, 0x1f10a)]

def isDigit (c : Char) : Bool :=
  (48 ≤ c.toNat && c.toNat ≤ 57) || decimalZeros.any (fun z => z ≤ c.toNat && c.toNat ≤ z + 9) ||
    otherDigits.any (fun range => range.1 ≤ c.toNat && c.toNat ≤ range.2)

/-- Generated names such as `v1` or `v160`. -/
def isVTemporaryName (name : String) : Bool :=
  match name.toList with
  | 'v' :: digits => !digits.isEmpty && digits.all isDigit
  | _ => false

def isRecoverableRow (row : VariableRecord) : Bool :=
  (row.status = .fresh && row.value ≠ "") ||
    (row.status = .stale && (row.value ≠ "" || row.lastSuccessValue ≠ "" || row.lastSuccessPcSeq.isSome))

def isNamedLocalRow (row : VariableRecord) : Bool :=
  !row.isArg && row.name ≠ "" && row.name ≠ "<unnamed>" && !isVTemporaryName row.name

def rowMatchesFilter (row : VariableRecord) : RowFilter → Bool
  | .all => true
  | .fresh => row.status = .fresh
  | .recoverable => isRecoverableRow row
  | .arguments => row.isArg
  | .namedLocals => isNamedLocalRow row
  | .unavailable => row.status = .unavailable

/-- The table: every row, and the rows the active filter lets through. -/
structure LiveVariablesView where
  allRows : List VariableRecord := []
  rows : List VariableRecord := []
  activeFilter : RowFilter := .all

namespace LiveVariablesView

def applyFilter (view : LiveVariablesView) : LiveVariablesView :=
  { view with rows := view.allRows.filter (rowMatchesFilter · view.activeFilter) }

def updateRows (view : LiveVariablesView) (rows : List VariableRecord) : LiveVariablesView :=
  { view with allRows := rows }.applyFilter

def setFilter (view : LiveVariablesView) (filter : RowFilter) : LiveVariablesView :=
  { view with activeFilter := filter }.applyFilter

@[simp] theorem updateRows_allRows (view : LiveVariablesView) (rows : List VariableRecord) :
    (view.updateRows rows).allRows = rows := rfl

@[simp] theorem setFilter_allRows (view : LiveVariablesView) (filter : RowFilter) :
    (view.setFilter filter).allRows = view.allRows := rfl

end LiveVariablesView

/-- What identifies one enumerated variable to the selection cache. -/
structure VariableFingerprint where
  lvarIndex : Int
  name : String
  typeString : String
  size : Nat
  isArg : Bool
  argIndex : Option Nat
  lvarDefea : String
  deriving DecidableEq

def variableFingerprint (lvars : List VariableRecord) : List VariableFingerprint :=
  lvars.map fun lvar =>
    { lvarIndex := lvar.lvarIndex, name := lvar.name, typeString := lvar.typeString, size := lvar.size
      isArg := lvar.isArg, argIndex := lvar.argIndex, lvarDefea := lvar.lvarDefea }

def sortedIndexes (indexes : List Int) : List Int := indexes.insertionSort (· ≤ ·)

/-- The non-argument rows by index; the last row of an index wins. -/
def rowsByIndex (rows : List VariableRecord) : Dict Int VariableRecord :=
  (rows.filter fun row => !row.isArg).foldl (fun d row => d.set row.lvarIndex row) Dict.empty

section selection
variable (budget : Nat) (localsByIndex : Dict Int VariableRecord)

def addCandidate (selected : List Int) (index : Int) : List Int :=
  if budget ≤ selected.length ∨ index ∈ selected ∨ (localsByIndex.get? index).isNone then selected
  else selected ++ [index]

/-- The turns of the rotation over `offsets`; the second part counts the turns made. -/
def rotateFrom (indexes : List Int) (start : Nat) : List Nat → List Int × Nat → List Int × Nat
  | [], state => state
  | offset :: rest, (selected, _) =>
    let selected := addCandidate budget localsByIndex selected (indexes.getD ((start + offset) % indexes.length) 0)
    if budget ≤ selected.length then (selected, offset + 1)
    else rotateFrom indexes start rest (selected, offset + 1)

/-- Add candidates in turn from the cursor on, until the budget is spent. -/
def addRotating (selected : List Int) (indexes : List Int) (cursor : Int) : List Int × Int :=
  if indexes = [] ∨ budget ≤ selected.length then (selected, cursor)
  else
    let start := (cursor % indexes.length).toNat
    let (selected, added) := rotateFrom budget localsByIndex indexes start (List.range indexes.length) (selected, 0)
    (selected, ((start + added) % indexes.length : Nat))

end selection

/-- Watched locals first, then locals with an observation, then the visible ones
in rotation, then the rest in rotation. -/
def selectRecoveryCandidateIndexes (lvars previousRows : List VariableRecord) (activeFilter : RowFilter)
    (watchedLvarIndexes : List Int) (maxCandidates : Int) (fallbackCursor : Int) : List Int × Int :=
  let budget := maxCandidates.toNat
  let localsByIndex := rowsByIndex lvars
  let previousByIndex := rowsByIndex previousRows
  let ordered := sortedIndexes localsByIndex.keys
  let selected := (sortedIndexes watchedLvarIndexes).foldl (addCandidate budget localsByIndex) []
  let observed := ordered.filter fun index =>
    match previousByIndex.get? index with
    | some previous => previous.status = .fresh || previous.status = .stale
    | none => false
  let selected := observed.foldl (addCandidate budget localsByIndex) selected
  let visible := ordered.filter fun index =>
    match previousByIndex.get? index, localsByIndex.get? index with
    | some previous, _ => rowMatchesFilter previous activeFilter
    | none, some lvar => rowMatchesFilter lvar activeFilter
    | none, none => false
  let (selected, cursor) := addRotating budget localsByIndex selected visible fallbackCursor
  let remaining := ordered.filter fun index => index ∉ selected
  addRotating budget localsByIndex selected remaining cursor

/-- The state a selection was made for. -/
structure SelectionKey where
  pcSeq : Int
  functionEa : Int
  currentEa : Int
  activeFilter : RowFilter
  watched : List Int
  fingerprint : List VariableFingerprint
  deriving DecidableEq

/-- The selection of one function, PC and view state, with a cursor for each function. -/
structure AnalysisSelectionCache where
  key : Option SelectionKey := none
  indexes : List Int := []
  cursorByFunction : Dict Int Int := Dict.empty

namespace AnalysisSelectionCache

def invalidate (cache : AnalysisSelectionCache) (clearCursors : Bool := false) : AnalysisSelectionCache :=
  { cache with
    key := none
    indexes := []
    cursorByFunction := if clearCursors then Dict.empty else cache.cursorByFunction }

def select (cache : AnalysisSelectionCache) (pcSeq functionEa currentEa : Int)
    (lvars previousRows : List VariableRecord) (activeFilter : RowFilter) (watchedLvarIndexes : List Int)
    (maxCandidates : Int) : List Int × AnalysisSelectionCache :=
  let key : SelectionKey :=
    { pcSeq := pcSeq, functionEa := functionEa, currentEa := currentEa, activeFilter := activeFilter
      watched := sortedIndexes watchedLvarIndexes, fingerprint := variableFingerprint lvars }
  if cache.key = some key then (cache.indexes, cache)
  else
    let cursor := (cache.cursorByFunction.get? functionEa).getD 0
    let (selected, nextCursor) := selectRecoveryCandidateIndexes lvars previousRows activeFilter
      watchedLvarIndexes maxCandidates cursor
    (selected,
      { key := some key, indexes := sortedIndexes selected
        cursorByFunction := cache.cursorByFunction.set functionEa nextCursor })

end AnalysisSelectionCache
end DynvarSync.Ida
