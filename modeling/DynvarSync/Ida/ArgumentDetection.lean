import DynvarSync.Ida.Core
import DynvarSync.Ida.Prototype
import DynvarSync.Ida.Selection

/-! Which Hex-Rays variables are arguments, and which. Four signals fill one map in turn;
only the last of them looks at the indexes the others gave. -/
namespace DynvarSync.Ida
open Lib PyText

/-- What argument detection reads of a Hex-Rays variable: its name (empty where it has none), its `is_arg_var()`, and
the location Hex-Rays prints for it. -/
structure Lvar where
  name : String := ""
  isArgVar : Bool := false
  location : String := "unknown"
  deriving DecidableEq

structure ArgumentDetection where
  isArg : Bool
  argIndex : Option Nat
  reason : String
  deriving DecidableEq

abbrev Detections := Dict Nat ArgumentDetection

/-- One past the greatest index in use. -/
def nextArgIndex (detections : Detections) : Nat :=
  ((detections.values.filterMap ArgumentDetection.argIndex).max?.map (· + 1)).getD 0

section passes
variable (lvars : List Lvar)

def inRange (i : Int) : Bool := 0 ≤ i ∧ i < lvars.length

/-- The positions in `argidx`; the last position of a variable wins. -/
def argidxPass (argidx : List Int) : Detections :=
  argidx.zipIdx.foldl
    (fun detections entry =>
      if inRange lvars entry.1 then
        detections.set entry.1.toNat { isArg := true, argIndex := some entry.2, reason := "cfunc.argidx" }
      else detections)
    Dict.empty

def flagStep (state : Detections × Nat) (entry : Lvar × Nat) : Detections × Nat :=
  if (state.1.get? entry.2).isNone ∧ entry.1.isArgVar then
    (state.1.set entry.2 { isArg := true, argIndex := some state.2, reason := "lvar.is_arg_var()" }, state.2 + 1)
  else state

/-- The flagged variables, numbered on from the greatest index in use. -/
def flagPass (detections : Detections) : Detections :=
  (lvars.zipIdx.foldl flagStep (detections, nextArgIndex detections)).1

def nameToLvarIndex : Dict String Nat :=
  lvars.zipIdx.foldl (fun d entry => d.set entry.1.name entry.2) Dict.empty

def prototypeStep (detections : Detections) (entry : String × Nat) : Detections :=
  match (nameToLvarIndex lvars).get? entry.1 with
  | some lvarIndex =>
    if (detections.get? lvarIndex).isNone then
      detections.set lvarIndex { isArg := true, argIndex := some entry.2, reason := "function prototype" }
    else detections
  | none => detections

/-- The positions in the prototype, whether or not another variable has that index. -/
def prototypePass (names : List String) (detections : Detections) : Detections :=
  names.zipIdx.foldl (prototypeStep lvars) detections

section location
variable (wideAlnum : Char → Bool)

/-- The expression `\w`: `wideAlnum` says which characters beyond ASCII are letters or digits. -/
def isWordChar (c : Char) : Bool := isIdentChar c || (128 ≤ c.toNat && wideAlnum c)

/-- The expression `\bword\b`, after a character that is or is not a word character. -/
def hasWord (word : List Char) : Bool → List Char → Bool
  | _, [] => false
  | insideWord, c :: rest =>
    (!insideWord && word.isPrefixOf (c :: rest) && !((c :: rest).drop word.length).head?.any (isWordChar wideAlnum)) ||
      hasWord word (isWordChar wideAlnum c) rest

def registerArgIndexes : List (String × Nat) :=
  [("rcx", 0), ("ecx", 0), ("cx", 0), ("cl", 0), ("rdx", 1), ("edx", 1), ("dx", 1), ("dl", 1), ("r8", 2), ("r8d", 2),
    ("r8w", 2), ("r8b", 2), ("r9", 3), ("r9d", 3), ("r9w", 3), ("r9b", 3)]

def lowerHexDigit (c : Char) : Bool := (48 ≤ c.toNat && c.toNat ≤ 57) || (97 ≤ c.toNat && c.toNat ≤ 102)

/-- The number after the first caret that a hexadecimal digit follows. -/
def caretOffset : List Char → Option Nat
  | [] => none
  | c :: rest =>
    if c = '^' ∧ rest.takeWhile lowerHexDigit ≠ [] then readDigits 16 (rest.takeWhile lowerHexDigit)
    else caretOffset rest

def normalizeLocation (location : String) : List Char :=
  ((strip location.toList).map Char.toLower).filter (· ≠ Char.ofNat 0x60)

/-- The argument index of a known entry location. -/
def abiArgIndexFromLocation (location : String) : Option Nat :=
  let normalized := normalizeLocation location
  match registerArgIndexes.find? fun entry => hasWord wideAlnum entry.1.toList false normalized with
  | some entry => some entry.2
  | none =>
    match caretOffset normalized with
    | some offset => if 0xb0 ≤ offset ∧ (offset - 0xb0) % 8 = 0 then some (4 + (offset - 0xb0) / 8) else none
    | none => none

/-- A variable at a known entry location. -/
structure AbiCandidate where
  argIndex : Nat
  lvarIndex : Nat
  location : String

def abiCandidates : List AbiCandidate :=
  lvars.zipIdx.filterMap fun entry =>
    if isVTemporaryName entry.1.name then none
    else (abiArgIndexFromLocation wideAlnum entry.1.location).map fun argIndex =>
      { argIndex := argIndex, lvarIndex := entry.2, location := entry.1.location }

def abiBefore (a b : AbiCandidate) : Bool :=
  a.argIndex < b.argIndex || (a.argIndex = b.argIndex && a.lvarIndex ≤ b.lvarIndex)

def byArgIndex : Dict Nat AbiCandidate :=
  ((abiCandidates lvars wideAlnum).insertionSort (abiBefore · ·)).foldl
    (fun d candidate => if (d.get? candidate.argIndex).isNone then d.set candidate.argIndex candidate else d) Dict.empty

/-- The indexes from zero on up to the first without a candidate. -/
def leadingArgIndexes : List Nat :=
  (List.range ((byArgIndex lvars wideAlnum).size + 1)).takeWhile fun expected =>
    ((byArgIndex lvars wideAlnum).get? expected).isSome

def detectAbiLocationArguments : Detections :=
  (leadingArgIndexes lvars wideAlnum).foldl
    (fun detections expected =>
      match (byArgIndex lvars wideAlnum).get? expected with
      | some candidate => detections.set candidate.lvarIndex
          { isArg := true, argIndex := some expected, reason := "ABI location " ++ candidate.location }
      | none => detections)
    Dict.empty

end location

/-- The fallback's detections, for variables and indexes no signal has used. -/
def fallbackPass (fallback : Detections) (detections : Detections) : Detections :=
  let usedArgIndexes := detections.values.filterMap ArgumentDetection.argIndex
  fallback.entries.foldl
    (fun result entry =>
      if (result.get? entry.1).isSome ∨ entry.2.argIndex.any (· ∈ usedArgIndexes) then result
      else result.set entry.1 entry.2)
    detections

end passes

def detectArguments (wideAlnum : Char → Bool) (cfunc : Cfunc) (lvars : List Lvar) : Detections :=
  let detections := flagPass lvars (argidxPass lvars cfunc.argidx)
  let detections := prototypePass lvars (prototypeArgNames cfunc) detections
  fallbackPass (detectAbiLocationArguments lvars wideAlnum) detections

end DynvarSync.Ida
