import DynvarSync.Ida.NativeStorage
import DynvarSync.Windbg.Machine

/-! What an accepted storage proof means for the machine: on every execution that
ends just before the current instruction, the storage is untouched since the
last execution of the definition. -/
namespace DynvarSync.Ida
open Lib Windbg

/-- Bit `k` of the register lies in the range of the write. -/
def RegisterWrite.includes (write : RegisterWrite) (k : Nat) : Prop :=
  write.bitOffset ≤ k ∧ (k : Int) < write.bitOffset + write.bitSize

namespace NativeCfg

/-- A known instruction that is no call changes only bits its writes include; any other may change anything. -/
def Executes (instruction : NativeInstructionFact) (before after : Machine) : Prop :=
  instruction.registerAccessKnown = true → instruction.isCall = false → ∀ register (k : Nat),
    (∀ write ∈ instruction.writes, write.fullRegister = register → ¬ write.includes k) →
    (after.registers register).getLsbD k = (before.registers register).getLsbD k

/-- One executed instruction with the machine it left behind. -/
structure Execution where
  instruction : NativeInstructionFact
  after : Machine

/-- Executions from any point of the graph, newest instruction first, up to a
point between two instructions of a block. -/
inductive Trace (cfg : NativeCfg) : List Execution → Int × Nat → Machine → Prop
  | start (point : Int × Nat) (m : Machine) : Trace cfg [] point m
  | execute {executions : List Execution} {id : Int} {position : Nat} {m m' : Machine} {block : NativeBlockFacts}
      {instruction : NativeInstructionFact} : Trace cfg executions (id, position) m → cfg.blocks.get? id = some block →
      block.instructions[position]? = some instruction → Executes instruction m m' →
      Trace cfg (⟨instruction, m'⟩ :: executions) (id, position + 1) m'
  | enter {executions : List Execution} {id next : Int} {m : Machine} {block successor : NativeBlockFacts} :
      Trace cfg executions (id, block.instructions.length) m → cfg.blocks.get? id = some block →
      cfg.blocks.get? next = some successor → next ∈ block.successors → id ∈ successor.predecessors →
      Trace cfg executions (next, 0) m

/-- No call, no unknown access and no write into the storage. -/
structure Harmless (register : RegisterSpec) (width : Nat) (instruction : NativeInstructionFact) : Prop where
  known : instruction.registerAccessKnown = true
  noCall : instruction.isCall = false
  noWrite : ∀ write ∈ instruction.writes, write.fullRegister = register.fullRegister →
    write.overlaps register width = false

/-- The storage's bits agree in two machines. -/
def SameStorage (register : RegisterSpec) (width : Nat) (m m' : Machine) : Prop :=
  ∀ k : Nat, register.bitOffset ≤ k → (k : Int) < register.bitOffset + width * 8 →
    (m'.registers register.fullRegister).getLsbD k = (m.registers register.fullRegister).getLsbD k

/-- The displayed projection of the full register. -/
def storageValue (m : Machine) (register : RegisterSpec) (width : Nat) : Except String String :=
  extractRegisterValue (.int (m.registers register.fullRegister).toNat) register width

section storage
variable {register : RegisterSpec} {width : Nat}

theorem Harmless.sameStorage {instruction : NativeInstructionFact} {m m' : Machine}
    (h : Harmless register width instruction) (he : Executes instruction m m') : SameStorage register width m m' := by
  intro k hlow hhigh
  refine he h.known h.noCall register.fullRegister k fun write hwrite hreg hin => ?_
  have hno := h.noWrite write hwrite hreg
  simp only [RegisterWrite.overlaps, Bool.and_eq_false_iff, decide_eq_false_iff_not, Int.not_lt] at hno
  obtain ⟨hstart, hend⟩ := hin
  omega

theorem SameStorage.trans {m m' m'' : Machine} (h : SameStorage register width m m')
    (h' : SameStorage register width m' m'') : SameStorage register width m m'' :=
  fun k hlow hhigh => (h' k hlow hhigh).trans (h k hlow hhigh)

/-- Machines that agree on the storage display the same value. -/
theorem SameStorage.value {m m' : Machine} (h : SameStorage register width m m') :
    storageValue m' register width = storageValue m register width := by
  unfold storageValue extractRegisterValue
  by_cases hoffset : register.bitOffset < 0
  · simp [hoffset, parseRuntimeInt]
  · obtain ⟨offset, hoff⟩ := Int.eq_ofNat_of_zero_le (Int.not_lt.mp hoffset)
    have hbits : ((m'.registers register.fullRegister).toNat >>> offset) % 2 ^ (width * 8) =
        ((m.registers register.fullRegister).toNat >>> offset) % 2 ^ (width * 8) := by
      refine Nat.eq_of_testBit_eq fun k => ?_
      rw [Nat.testBit_mod_two_pow, Nat.testBit_mod_two_pow, Nat.testBit_shiftRight, Nat.testBit_shiftRight]
      by_cases hk : k < width * 8
      · have hbit := h (offset + k) (by omega) (by omega)
        rw [BitVec.getLsbD, BitVec.getLsbD] at hbit
        rw [hbit]
      · simp [hk]
    simp only [parseRuntimeInt, hoff, Int.toNat_natCast, maskWidth_shiftRight, hbits]

end storage

section search
variable {cfg : NativeCfg} {definitionEa : Int} {register : RegisterSpec} {width : Nat}

/-- What the visited states of a successful search promise: each scan ends at a
covering definition, or passes the whole block and goes on to every predecessor. -/
structure Proven (cfg : NativeCfg) (definitionEa : Int) (register : RegisterSpec) (width : Nat)
    (visited : List ScanState) : Prop where
  reached_or_passed : ∀ state ∈ visited, cfg.scanState definitionEa register width state = .reached ∨
    ∃ predecessors, cfg.scanState definitionEa register width state = .passed predecessors
  closed : ∀ state ∈ visited, ∀ next ∈ cfg.nextStates definitionEa register width state, next ∈ visited

theorem scanInstruction_none {instruction : NativeInstructionFact}
    (h : scanInstruction definitionEa register width instruction = none) :
    instruction.ea ≠ definitionEa ∧ Harmless register width instruction := by
  unfold scanInstruction at h
  split at h
  · split at h <;> cases h
  · rename_i hea
    split at h
    · cases h
    · rename_i hknown
      split at h
      · cases h
      · rename_i hclean
        simp only [Bool.or_eq_true, not_or, Bool.not_eq_true] at hclean
        refine ⟨hea, by simpa using hknown, hclean.1, fun write hwrite hreg => ?_⟩
        have hno := List.any_eq_false.mp hclean.2 write hwrite
        simpa [hreg] using hno

theorem scanInstruction_reached {instruction : NativeInstructionFact}
    (h : scanInstruction definitionEa register width instruction = some .reached) : instruction.ea = definitionEa := by
  unfold scanInstruction at h
  split at h
  · assumption
  · split at h
    · cases h
    · split at h <;> cases h

theorem scanInstruction_ne_passed {instruction : NativeInstructionFact} {predecessors : List Int} :
    scanInstruction definitionEa register width instruction ≠ some (.passed predecessors) := by
  unfold scanInstruction
  repeat' split
  all_goals nofun

/-- The backward scan of the first `limit` instructions of a block. -/
def scanned (definitionEa : Int) (register : RegisterSpec) (width : Nat) (block : NativeBlockFacts) (limit : Nat) :
    Option Scan :=
  (block.instructions.take limit).reverse.findSome? (scanInstruction definitionEa register width)

/-- The instruction before the limit decides, or the scan goes on below it. -/
theorem scanned_succ {block : NativeBlockFacts} {position : Nat} {instruction : NativeInstructionFact}
    (h : block.instructions[position]? = some instruction) :
    scanned definitionEa register width block (position + 1) =
      match scanInstruction definitionEa register width instruction with
      | some scan => some scan
      | none => scanned definitionEa register width block position := by
  rw [scanned, List.take_add_one, h, Option.toList_some, List.reverse_append, List.reverse_singleton,
    List.singleton_append, List.findSome?_cons]
  cases scanInstruction definitionEa register width instruction <;> rfl

theorem scanState_eq {id : Int} {limit : Nat} {block : NativeBlockFacts} (hb : cfg.blocks.get? id = some block)
    (hs : cfg.scanState definitionEa register width (id, limit) ≠ .unresolved) :
    cfg.scanState definitionEa register width (id, limit) =
      match scanned definitionEa register width block limit with
      | some scan => scan
      | none => .passed block.predecessors := by
  unfold scanState at hs ⊢
  rw [hb] at hs ⊢
  dsimp only at hs ⊢
  split
  · rename_i hbad
    exact absurd (if_pos hbad) hs
  · rfl

variable {visited : List ScanState} (hproven : Proven cfg definitionEa register width visited)
include hproven

theorem Proven.resolved {state : ScanState} (h : state ∈ visited) :
    cfg.scanState definitionEa register width state ≠ .unresolved := by
  rcases hproven.reached_or_passed state h with hs | ⟨_, hs⟩ <;> rw [hs] <;> nofun

/-- Since the last execution of the definition everything executed was harmless,
and the storage is as that execution left it. -/
theorem Proven.sound {executions : List Execution} {id : Int} {position : Nat} {m : Machine}
    (htrace : Trace cfg executions (id, position) m) {limit : Nat} {block : NativeBlockFacts}
    (hb : cfg.blocks.get? id = some block) (hv : (id, limit) ∈ visited)
    (hscan : scanned definitionEa register width block limit = scanned definitionEa register width block position)
    {later earlier : List Execution} {last : Execution} (hsplit : executions = later ++ last :: earlier)
    (hlast : last.instruction.ea = definitionEa) (hlater : ∀ e ∈ later, e.instruction.ea ≠ definitionEa) :
    (∀ e ∈ later, Harmless register width e.instruction) ∧ SameStorage register width last.after m := by
  generalize hpoint : (id, position) = point at htrace
  induction htrace generalizing id position limit block later with
  | start =>
    have hlen := congrArg List.length hsplit
    simp at hlen
  | @execute executions id' position' m m' block' instruction _ hb' hat hexec ih =>
    cases hpoint
    rw [hb] at hb'
    cases hb'
    rw [scanned_succ hat] at hscan
    cases hinstr : scanInstruction definitionEa register width instruction with
    | some scan =>
      rw [hinstr] at hscan
      have hstate := scanState_eq hb (hproven.resolved hv)
      rw [hscan] at hstate
      dsimp only at hstate
      have hea : instruction.ea = definitionEa := by
        rcases hproven.reached_or_passed _ hv with hr | ⟨predecessors, hp⟩
        · rw [hstate] at hr
          rw [hr] at hinstr
          exact scanInstruction_reached hinstr
        · rw [hstate] at hp
          rw [hp] at hinstr
          exact absurd hinstr scanInstruction_ne_passed
      cases later with
      | nil =>
        cases hsplit
        exact ⟨fun _ h => (by cases h), fun _ _ _ => rfl⟩
      | cons e later =>
        cases hsplit
        exact absurd hea (hlater _ (List.mem_cons_self ..))
    | none =>
      rw [hinstr] at hscan
      obtain ⟨hne, hharmless⟩ := scanInstruction_none hinstr
      cases later with
      | nil =>
        cases hsplit
        exact absurd hlast hne
      | cons e later =>
        cases hsplit
        obtain ⟨hclean, hsame⟩ := ih hb hv hscan rfl (fun e he => hlater e (List.mem_cons_of_mem _ he)) rfl
        exact ⟨List.forall_mem_cons.mpr ⟨hharmless, hclean⟩, hsame.trans (hharmless.sameStorage hexec)⟩
  | @enter executions id' next m block' successor _ hb' hnext _ hpred ih =>
    cases hpoint
    rw [hb] at hnext
    cases hnext
    have hstate := scanState_eq hb (hproven.resolved hv)
    rw [hscan] at hstate
    have hmem : (id', block'.instructions.length) ∈ cfg.nextStates definitionEa register width (next, limit) := by
      rw [nextStates, hstate]
      exact List.mem_filterMap.mpr ⟨id', hpred, by rw [hb']; rfl⟩
    exact ih hb' (hproven.closed _ hv _ hmem) rfl hsplit hlater rfl

end search

section validation
variable {cfg : NativeCfg} {definitionEa currentEa : Int} {register : RegisterSpec} {width : Nat}

/-- A search that found neither a clobber nor an unresolved path proves its visited states. -/
theorem searchStorage_proven {start : ScanState}
    (hclobber : (cfg.searchStorage definitionEa register width start).acc.clobberEa = none)
    (hresolved : (cfg.searchStorage definitionEa register width start).acc.unresolved = false)
    (hdone : (cfg.searchStorage definitionEa register width start).exhausted = false) :
    start ∈ (cfg.searchStorage definitionEa register width start).visited ∧
      Proven cfg definitionEa register width (cfg.searchStorage definitionEa register width start).visited := by
  obtain ⟨hstart, hclosed⟩ := Explore.explore_closed _ _ _ _ _ hdone
  refine ⟨hstart, fun state hstate => ?_, hclosed⟩
  cases hscan : cfg.scanState definitionEa register width state with
  | reached => exact .inl rfl
  | passed predecessors => exact .inr ⟨predecessors, rfl⟩
  | unresolved =>
    have hfound := Explore.explore_noted (cfg.nextStates definitionEa register width)
      (cfg.noteState definitionEa register width) (fun found => found.unresolved = true)
      (fun found => by rw [noteState, hscan]) ?_ hstate
    · rw [searchStorage] at hresolved
      rw [hfound] at hresolved
      cases hresolved
    · intro found other h
      unfold noteState
      split
      · rfl
      · exact h
      · exact h
      · split
        · rfl
        · exact h
  | clobbered ea =>
    have hfound := Explore.explore_noted (cfg.nextStates definitionEa register width)
      (cfg.noteState definitionEa register width) (fun found => found.clobberEa ≠ none)
      (fun found => by rw [noteState, hscan]; rintro ⟨⟩) ?_ hstate
    · exact absurd hclobber hfound
    · intro found other h
      unfold noteState
      split
      · exact h
      · rintro ⟨⟩
      · exact h
      · split <;> exact h

/-- What an accepted validation went through. -/
theorem validateRegisterStorageCfg_valid
    (h : (cfg.validateRegisterStorageCfg definitionEa currentEa register width).valid = true) :
    ∃ current, cfg.matchesAt currentEa = [current] ∧
      let search := cfg.searchStorage definitionEa register width current
      search.acc.clobberEa = none ∧ search.acc.unresolved = false ∧ search.exhausted = false := by
  unfold validateRegisterStorageCfg at h
  split at h
  · rename_i definition current _ hcurrent
    split at h
    · cases h
    · dsimp only at h
      split at h
      · cases h
      · rename_i hclobber
        split at h
        · cases h
        · rename_i hchecks
          simp only [Bool.or_eq_true, not_or, Bool.not_eq_true] at hchecks
          exact ⟨current, hcurrent, hclobber, hchecks.1.1.2, hchecks.1.2⟩
  · cases h

/-- An instruction is found at its place. -/
theorem mem_matchesAt {id : Int} {position : Nat} {block : NativeBlockFacts} {instruction : NativeInstructionFact}
    (hb : cfg.blocks.get? id = some block) (hat : block.instructions[position]? = some instruction) :
    (id, position) ∈ cfg.matchesAt instruction.ea := by
  refine List.mem_flatMap.mpr ⟨block, (cfg.blocks.mem_values_iff block).mpr ⟨id, hb⟩, ?_⟩
  refine List.mem_map.mpr ⟨(instruction, position), List.mem_filter.mpr ⟨?_, by simp⟩, ?_⟩
  · exact List.mem_zipIdx_iff_getElem?.mpr hat
  · rw [cfg.keyed id block hb]

/-- If the storage proof accepts, then on every execution that ends just before the current instruction and
executed the definition, nothing executed since the last execution of the definition calls, writes into the
storage or is unknown, and the storage shows what that execution left in it. -/
theorem validated_storage_unchanged {definitionEa currentEa : Int}
    (hvalid : (cfg.validateRegisterStorageCfg definitionEa currentEa register width).valid = true)
    {executions later earlier : List Execution} {last : Execution} {id : Int} {position : Nat} {m : Machine}
    (htrace : Trace cfg executions (id, position) m) {block : NativeBlockFacts}
    {instruction : NativeInstructionFact} (hb : cfg.blocks.get? id = some block)
    (hat : block.instructions[position]? = some instruction) (hcurrent : instruction.ea = currentEa)
    (hsplit : executions = later ++ last :: earlier) (hlast : last.instruction.ea = definitionEa)
    (hlater : ∀ e ∈ later, e.instruction.ea ≠ definitionEa) :
    (∀ e ∈ later, e.instruction.isCall = false ∧ ∀ write ∈ e.instruction.writes,
      write.fullRegister = register.fullRegister → write.overlaps register width = false) ∧
      storageValue m register width = storageValue last.after register width := by
  obtain ⟨current, hmatches, hclobber, hresolved, hdone⟩ := validateRegisterStorageCfg_valid hvalid
  have hplace := mem_matchesAt hb hat
  rw [hcurrent, hmatches, List.mem_singleton] at hplace
  obtain ⟨hstart, hproven⟩ := searchStorage_proven hclobber hresolved hdone
  obtain ⟨hharmless, hsame⟩ := hproven.sound htrace hb (hplace ▸ hstart) rfl hsplit hlast hlater
  exact ⟨fun e he => ⟨(hharmless e he).noCall, (hharmless e he).noWrite⟩, hsame.value⟩

end validation

def writeRegister (m : Machine) (name : String) (value : BitVec 64) : Machine :=
  { m with registers := fun register => if register = name then value else m.registers register }

/-- An instruction that writes a whole register may leave any value in it. -/
theorem executes_writeRegister {instruction : NativeInstructionFact} {name : String}
    (hwrite : { fullRegister := name, bitOffset := 0, bitSize := 64 } ∈ instruction.writes) (m : Machine)
    (value : BitVec 64) : Executes instruction m (writeRegister m name value) := by
  intro _ _ register k hout
  by_cases hname : register = name
  · have hk := hout _ hwrite hname.symm
    simp only [RegisterWrite.includes, not_and, Int.not_lt] at hk
    rw [BitVec.getLsbD_of_ge _ _ (by omega), BitVec.getLsbD_of_ge _ _ (by omega)]
  · simp [writeRegister, hname]

/-- `rbx` is defined in one block and read in the next, with a write to `rax` in between. -/
def rbxCfg : NativeCfg :=
  { blocks := (Dict.empty.set 0
      { blockId := 0
        instructions :=
          [{ ea := 0x1000, writes := [{ fullRegister := "rbx", bitOffset := 0, bitSize := 64 }] },
           { ea := 0x1004, writes := [{ fullRegister := "rax", bitOffset := 0, bitSize := 64 }] }]
        successors := [1] }).set 1
      { blockId := 1, instructions := [{ ea := 0x1008 }], predecessors := [0] }
    keyed := by
      intro id block h
      simp only [Dict.get?_set, Dict.get?_empty] at h
      split at h
      · cases h
        exact Eq.symm ‹_›
      · split at h
        · cases h
          exact Eq.symm ‹_›
        · cases h }

theorem validated_storage_unchanged_rbx :
    let m : Machine := { registers := fun _ => 0, memory := fun _ => 0 }
    let defined := writeRegister m "rbx" 0x1234
    storageValue (writeRegister defined "rax" 7) { fullRegister := "rbx", width := 8 } 2 =
      storageValue defined { fullRegister := "rbx", width := 8 } 2 := by
  intro m defined
  have hdefined : Trace rbxCfg _ (0, 1) defined := .execute (.start (0, 0) m) rfl rfl
    (executes_writeRegister (List.mem_singleton_self _) m 0x1234)
  have hwritten : Trace rbxCfg _ (0, 2) (writeRegister defined "rax" 7) := .execute hdefined rfl rfl
    (executes_writeRegister (List.mem_singleton_self _) defined 7)
  have hentered : Trace rbxCfg _ (1, 0) (writeRegister defined "rax" 7) :=
    .enter hwritten rfl rfl (List.mem_singleton_self _) (List.mem_singleton_self _)
  exact (@validated_storage_unchanged rbxCfg { fullRegister := "rbx", width := 8 } 2 0x1000 0x1008 (by decide)
    _ [_] [] _ _ _ _ hentered _ _ rfl rfl rfl rfl rfl (by decide)).2

end NativeCfg
end DynvarSync.Ida
