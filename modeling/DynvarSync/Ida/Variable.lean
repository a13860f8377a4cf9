import DynvarSync.Lib.Json

/-! The variable rows shared by the argument planner, the local recovery and
the Live Variables table. -/
namespace DynvarSync.Ida
open Lib

inductive Status where
  | fresh | stale | unavailable | error
  deriving DecidableEq, Repr

inductive Confidence where
  | exactEntry | staleEntryValue | unsupportedVariable | readFailed | unknown
  | exactRegisterLocation | exactStackLocation | exactConstant | staleRuntimeValue
  deriving DecidableEq, Repr

inductive StorageKind where
  | unknown | constant | register | stack | scattered
  deriving DecidableEq, Repr

/-- IDA-side description and display state of one Hex-Rays variable. -/
structure VariableRecord where
  lvarIndex : Int
  name : String
  typeString : String := ""
  size : Nat
  isArg : Bool
  argIndex : Option Nat
  location : String := ""
  functionEa : String := ""
  functionStartEa : Int := 0
  value : String := ""
  status : Status := .unavailable
  confidence : Confidence := .unknown
  reason : String := "not evaluated"
  lastPc : String := ""
  currentPc : String := ""
  printedLocation : String := ""
  currentEa : String := ""
  sourceEa : String := ""
  storageKind : Option StorageKind := none
  storage : String := ""
  currentPcSeq : Option Int := none
  lastSuccessValue : String := ""
  lastSuccessPcSeq : Option Int := none
  lvarDefea : String := ""
  deriving DecidableEq

/-- `a or b` on texts. -/
def orText (a b : String) : String := if a = "" then b else a

/-- The runtime request or response a protocol message carries. -/
inductive MessageType where
  | hello | helloAck | pcUpdate | idaPcMapped | regRequest | regResponse | memRequest | memResponse
  | error
  deriving DecidableEq, Repr

/-- `payload["error"]`'s message, when the peer sent one. -/
def runtimeErrorReason (payload : Payload) : String :=
  let error := payload.get "error"
  let message : Option String := match error with
    | .obj fields => match Payload.get fields "message" with
      | .str s => if s = "" then none else some s
      | _ => none
    | .str s => if s = "" then none else some s
    | _ => none
  message.getD "runtime read failed"

end DynvarSync.Ida
