import DynvarSync.Ida.NativeStorage
import DynvarSync.Ida.VRecovery

/-! The x64 register spellings the recovery understands, and the bits of the full
register each of them names. -/
namespace DynvarSync.Ida
open Lib PyText

/-- One supported spelling with the projection it names. -/
structure RegisterAlias extends RegisterSpec where
  spelling : String
  deriving DecidableEq

def spelled (fullRegister spelling : String) (width : Nat) (bitOffset : Int := 0) : RegisterAlias :=
  { spelling := spelling, fullRegister := fullRegister, width := width, bitOffset := bitOffset }

def registerAliases : List RegisterAlias :=
  let legacy : String → String → String → String → String → List RegisterAlias := fun full dword word low high =>
    [spelled full full 8, spelled full dword 4, spelled full word 2, spelled full low 1, spelled full high 1 8]
  let plain : String → String → String → String → List RegisterAlias := fun full dword word byte =>
    [spelled full full 8, spelled full dword 4, spelled full word 2, spelled full byte 1]
  let numbered : Nat → List RegisterAlias := fun number =>
    let full := "r" ++ toString number
    plain full (full ++ "d") (full ++ "w") (full ++ "b")
  legacy "rax" "eax" "ax" "al" "ah" ++ legacy "rbx" "ebx" "bx" "bl" "bh" ++ legacy "rcx" "ecx" "cx" "cl" "ch" ++
    legacy "rdx" "edx" "dx" "dl" "dh" ++ plain "rsi" "esi" "si" "sil" ++ plain "rdi" "edi" "di" "dil" ++
    plain "rbp" "ebp" "bp" "bpl" ++ plain "rsp" "esp" "sp" "spl" ++ (List.range' 8 8).flatMap numbered

def registerSpecs : Dict String RegisterAlias := Dict.byKey RegisterAlias.spelling registerAliases

/-- The spelling looked up for a name: stripped, lowered and without grave accents. -/
def normalizedName (name : String) : String :=
  String.ofList (((stripWith textSpace name.toList).map Char.toLower).filter (·.toNat ≠ 96))

def normalizeRegisterAlias (name : String) : Option RegisterAlias := registerSpecs.get? (normalizedName name)

/-- The named bits are whole bytes of one of the sixteen full registers. -/
structure RegisterSpec.Placed (spec : RegisterSpec) : Prop where
  known : spec.fullRegister ∈ fullRegisterOrder
  supported : spec.width ∈ supportedWidths
  offset : spec.bitOffset = 0 ∨ (spec.bitOffset = 8 ∧ spec.width = 1)

instance (spec : RegisterSpec) : Decidable spec.Placed :=
  decidable_of_iff (spec.fullRegister ∈ fullRegisterOrder ∧ spec.width ∈ supportedWidths ∧
    (spec.bitOffset = 0 ∨ (spec.bitOffset = 8 ∧ spec.width = 1)))
    ⟨fun h => ⟨h.1, h.2.1, h.2.2⟩, fun h => ⟨h.known, h.supported, h.offset⟩⟩

theorem RegisterSpec.Placed.nonneg {spec : RegisterSpec} (h : spec.Placed) : 0 ≤ spec.bitOffset := by
  rcases h.offset with hzero | ⟨height, _⟩ <;> omega

theorem mem_supportedWidths_le {width : Nat} (h : width ∈ supportedWidths) : 1 ≤ width ∧ width ≤ 8 := by
  simp only [supportedWidths, List.mem_cons, List.not_mem_nil, or_false] at h
  omega

theorem RegisterSpec.Placed.inside {spec : RegisterSpec} (h : spec.Placed) :
    spec.bitOffset + spec.width * 8 ≤ 64 := by
  have hwidth := mem_supportedWidths_le h.supported
  rcases h.offset with hzero | ⟨height, hone⟩ <;> omega

theorem registerAliases_placed : registerAliases.all (fun entry => decide entry.toRegisterSpec.Placed) = true := by
  decide +kernel

/-- Every spelling that is understood names bits of a full register. -/
theorem normalizeRegisterAlias_placed {name : String} {entry : RegisterAlias}
    (h : normalizeRegisterAlias name = some entry) : entry.toRegisterSpec.Placed := by
  exact of_decide_eq_true (List.all_eq_true.mp registerAliases_placed _ (Dict.of_get?_byKey h).2)

end DynvarSync.Ida
