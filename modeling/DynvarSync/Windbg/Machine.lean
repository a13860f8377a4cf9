import DynvarSync.Lib.Json

/-! The debugged machine at one stop, and the payloads the extension writes for
the reads it makes of it. -/
namespace DynvarSync.Windbg
open Lib PyText

structure Machine where
  registers : String → BitVec 64
  memory : Nat → UInt8

namespace Machine

def readMemory (m : Machine) (address size : Nat) : List UInt8 :=
  (List.range size).map fun k => m.memory (address + k)

/-- The little-endian value of `size` bytes, as it is displayed. -/
def memoryText (m : Machine) (address size : Nat) : String :=
  formatHex (fromLittleEndian (m.readMemory address size))

/-- The named registers as the extension prints them. -/
def registerTexts (m : Machine) (names : List String) : Payload :=
  names.map fun name => (name, .str (formatHexPadded 16 (m.registers name).toNat))

/-- The register names of a request. -/
def requestedRegisters (request : Payload) : List String :=
  match request.get "registers" with
  | .arr items => items.filterMap Json.asStr
  | _ => []

/-- The answer to a register request, its correlation fields echoed. -/
def regResponse (m : Machine) (request : Payload) : Payload :=
  [("pc_seq", request.get "pc_seq"), ("request_id", request.get "request_id"),
   ("runtime_pc", request.get "runtime_pc"), ("ok", .bool true),
   ("registers", .obj (m.registerTexts (requestedRegisters request)))]

def requestedAddress (request : Payload) : Nat :=
  (((request.get "address").asStr.bind intAuto).getD 0).toNat

def requestedSize (request : Payload) : Nat :=
  match request.get "size" with
  | .int size => size.toNat
  | _ => 0

/-- The answer to a memory request, its correlation fields echoed. -/
def memResponse (m : Machine) (request : Payload) : Payload :=
  [("pc_seq", request.get "pc_seq"), ("request_id", request.get "request_id"),
   ("runtime_pc", request.get "runtime_pc"), ("ok", .bool true),
   ("address", request.get "address"), ("size", request.get "size"),
   ("bytes_hex", .str (toHex (m.readMemory (requestedAddress request) (requestedSize request))))]

@[simp] theorem readMemory_length (m : Machine) (address size : Nat) :
    (m.readMemory address size).length = size := by
  simp [readMemory]

theorem registerTexts_get (m : Machine) {names : List String} {name : String} (h : name ∈ names) :
    Payload.get (m.registerTexts names) name = .str (formatHexPadded 16 (m.registers name).toNat) := by
  induction names with
  | nil => cases h
  | cons n names ih =>
    rw [registerTexts, List.map_cons, Payload.get_cons]
    split
    · rename_i hn
      rw [hn]
    · exact ih ((List.mem_cons.mp h).resolve_left ‹_›)

theorem registerTexts_get_absent (m : Machine) {names : List String} {name : String} (h : name ∉ names) :
    Payload.get (m.registerTexts names) name = .null := by
  induction names with
  | nil => rfl
  | cons n names ih =>
    obtain ⟨hn, hrest⟩ := not_or.mp (mt List.mem_cons.mpr h)
    rw [registerTexts, List.map_cons, Payload.get_cons, if_neg hn]
    exact ih hrest

theorem filterMap_asStr_map (names : List String) : (names.map Json.str).filterMap Json.asStr = names := by
  rw [List.filterMap_map]
  exact List.filterMap_some

end Machine
end DynvarSync.Windbg
