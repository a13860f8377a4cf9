import DynvarSync.Ida.Variable
import DynvarSync.Lib.Dict

/-! Static evidence for one local variable, and the conversions from raw
runtime reads to displayed values. -/
namespace DynvarSync.Ida
open Lib PyText

def supportedWidths : List Nat := [1, 2, 4, 8]

/-- The projection of one supported register spelling from its full register. -/
structure RegisterSpec where
  fullRegister : String
  width : Nat
  bitOffset : Int := 0
  deriving DecidableEq

def reasonMicrocode : String := "microcode_unavailable"
def reasonUnsupportedWidth : String := "unsupported_value_width"
def reasonAmbiguousRegister : String := "ambiguous_register_location"
def reasonUnresolvedStack : String := "unresolved_stack_location"
def reasonNoDefinition : String := "no_reaching_definition"
def reasonAnalysisDeferred : String := "analysis_deferred"

/-- Booleans are refused although Python counts them as integers. -/
def parseRuntimeInt : Json → Except String Int
  | .bool _ => .error "boolean is not a runtime integer"
  | .int n => .ok n
  | .str s => match intAuto s with
    | some n => .ok n
    | none => .error ("invalid literal for int() with base 0: " ++ Json.reprStr s)
  | value => .error ("expected an integer-compatible runtime value, got " ++ value.repr)

/-- `n & ((1 << (width * 8)) - 1)`, which is nonnegative for every integer. -/
def maskWidth (n : Int) (width : Nat) : Nat := (n % 2 ^ (width * 8)).toNat

/-- Project one variable's value out of a full register read. -/
def extractRegisterValue (value : Json) (spec : RegisterSpec) (width : Nat) : Except String String :=
  if width ∉ supportedWidths then .error reasonUnsupportedWidth
  else if width > spec.width then .error "variable width exceeds the proven register location"
  else match parseRuntimeInt value with
    | .error e => .error e
    | .ok number =>
      if spec.bitOffset < 0 then .error "negative shift count"
      else .ok (formatHex (maskWidth (number >>> spec.bitOffset.toNat) width))

def decodeLittleEndian (bytesHex : String) (width : Nat) : Except String String :=
  if width ∉ supportedWidths then .error reasonUnsupportedWidth
  else match fromHex bytesHex with
    | none => .error "invalid memory response bytes"
    | some data =>
      if data.length ≠ width then
        .error ("memory response size mismatch expected=" ++ toString width ++
          " actual=" ++ toString data.length)
      else .ok (formatHex (fromLittleEndian data))

/-- A current-RSP-relative location as a runtime address. -/
def concreteStackAddress (stackPointer : Json) (stackPointerOffset : Int) : Except String String :=
  match parseRuntimeInt stackPointer with
  | .error e => .error e
  | .ok number =>
    let address := number + stackPointerOffset
    if address < 0 ∨ address > 2 ^ 64 - 1 then
      .error "resolved stack address is outside the x64 address space"
    else .ok (formatHex address)

def formatConstant (value : Int) (width : Nat) : Except String String :=
  if width ∉ supportedWidths then .error reasonUnsupportedWidth
  else .ok (formatHex (maskWidth value width))

/-- Static proof for one lvar at one mapped EA. -/
structure RecoveryEvidence where
  lvarIndex : Int
  storageKind : StorageKind := .unknown
  storage : String := ""
  sourceEa : Option Int := none
  confidence : Confidence := .unknown
  reason : String := reasonNoDefinition
  register : Option RegisterSpec := none
  stackPointerOffset : Option Int := none
  constantValue : Option Int := none
  width : Int := 0

/-- Analysis result for one mapped PC. -/
structure RecoveryAnalysis where
  ok : Bool
  evidenceByIndex : Dict Int RecoveryEvidence
  error : String := ""

theorem extractRegisterValue_ok {value : Json} {spec : RegisterSpec} {width : Nat} {text : String}
    (h : extractRegisterValue value spec width = .ok text) : ∃ n : Nat, text = formatHex n := by
  unfold extractRegisterValue at h
  split at h
  · cases h
  split at h
  · cases h
  split at h
  · cases h
  split at h
  · cases h
  · exact ⟨_, (Except.ok.inj h).symm⟩

theorem decodeLittleEndian_ok {bytesHex : String} {width : Nat} {text : String}
    (h : decodeLittleEndian bytesHex width = .ok text) : ∃ n : Nat, text = formatHex n := by
  unfold decodeLittleEndian at h
  split at h
  · cases h
  split at h
  · cases h
  split at h
  · cases h
  · exact ⟨_, (Except.ok.inj h).symm⟩

theorem maskWidth_natCast (n width : Nat) : maskWidth (n : Int) width = n % 2 ^ (width * 8) := by
  unfold maskWidth
  norm_cast

theorem maskWidth_shiftRight (n k width : Nat) :
    maskWidth ((n : Int) >>> k) width = (n >>> k) % 2 ^ (width * 8) :=
  maskWidth_natCast (n >>> k) width

/-- Inside the full register, the displayed value is the requested bit field. -/
theorem extractRegisterValue_of_int (value : Json) (spec : RegisterSpec) (width : Nat) (n : Int)
    (hv : parseRuntimeInt value = .ok n) (hw : width ∈ supportedWidths) (hs : width ≤ spec.width)
    (ho : 0 ≤ spec.bitOffset) :
    extractRegisterValue value spec width =
      .ok (formatHex (maskWidth (n >>> spec.bitOffset.toNat) width)) := by
  simp [extractRegisterValue, hw, Nat.not_lt.mpr hs, Int.not_lt.mpr ho, hv]

theorem decodeLittleEndian_toHex (data : List UInt8) (h : data.length ∈ supportedWidths) :
    decodeLittleEndian (toHex data) data.length = .ok (formatHex (fromLittleEndian data)) := by
  simp [decodeLittleEndian, h, fromHex_toHex]

end DynvarSync.Ida
