import DynvarSync.Ida.NativeSemantics

/-! Whether an accepted storage proof covers the paths from the function entry: the
backward walks the proof accepts, and the entry block they may run through. -/
namespace DynvarSync.Ida
open Lib Relation Walks

namespace NativeCfg

/-- Successors and predecessors tell the same edges between existing blocks. -/
def Reciprocal (cfg : NativeCfg) : Prop :=
  ∀ id next, (∃ block, cfg.blocks.get? id = some block ∧ next ∈ block.successors) ↔
    ∃ block, cfg.blocks.get? next = some block ∧ id ∈ block.predecessors

/-- Control-flow paths from the first instruction of the entry block: the executed
instructions, newest first, and the point reached. -/
inductive EntryPath (cfg : NativeCfg) (entry : Int) : List NativeInstructionFact → Int × Nat → Prop
  | start {block : NativeBlockFacts} : cfg.blocks.get? entry = some block → EntryPath cfg entry [] (entry, 0)
  | execute {executed : List NativeInstructionFact} {id : Int} {position : Nat} {block : NativeBlockFacts}
      {instruction : NativeInstructionFact} : EntryPath cfg entry executed (id, position) →
      cfg.blocks.get? id = some block → block.instructions[position]? = some instruction →
      EntryPath cfg entry (instruction :: executed) (id, position + 1)
  | enter {executed : List NativeInstructionFact} {id next : Int} {block : NativeBlockFacts} :
      EntryPath cfg entry executed (id, block.instructions.length) → cfg.blocks.get? id = some block →
      next ∈ block.successors → EntryPath cfg entry executed (next, 0)

/-- Every path from the entry to just before the current instruction has executed the definition. -/
def EntryPathsDefine (cfg : NativeCfg) (entry definitionEa currentEa : Int) : Prop :=
  ∀ executed id position block instruction, cfg.EntryPath entry executed (id, position) →
    cfg.blocks.get? id = some block → block.instructions[position]? = some instruction →
    instruction.ea = currentEa → ∃ defining ∈ executed, defining.ea = definitionEa

section walks
variable (cfg : NativeCfg) (definitionEa : Int) (register : RegisterSpec) (width : Nat)

/-- The number of instructions of a block; a missing block has none. -/
def blockLength (id : Int) : Nat := ((cfg.blocks.get? id).map fun block => block.instructions.length).getD 0

/-- A backward walk passes a harmless instruction other than the definition. -/
inductive PassesHarmless : Int × Nat → Int × Nat → Prop
  | pass {id : Int} {position : Nat} {block : NativeBlockFacts} {instruction : NativeInstructionFact} :
      cfg.blocks.get? id = some block → block.instructions[position]? = some instruction →
      instruction.ea ≠ definitionEa → Harmless register width instruction →
      PassesHarmless (id, position + 1) (id, position)

/-- A backward walk continues at the end of any predecessor. -/
inductive EntersPredecessor : Int × Nat → Int × Nat → Prop
  | enter {id predecessor : Int} {block : NativeBlockFacts} : cfg.blocks.get? id = some block →
      predecessor ∈ block.predecessors → EntersPredecessor (id, 0) (predecessor, cfg.blockLength predecessor)

/-- One step of a backward walk over instructions that keep the storage. -/
def StorageBack (a b : Int × Nat) : Prop :=
  PassesHarmless cfg definitionEa register width a b ∨ EntersPredecessor cfg a b

/-- A point of an existing block that is not empty. -/
def InNonempty (point : Int × Nat) : Prop :=
  ∃ block, cfg.blocks.get? point.1 = some block ∧ block.instructions ≠ [] ∧ point.2 ≤ block.instructions.length

/-- The point just after the definition, which is known to cover the storage. -/
def DefinedAt (point : Int × Nat) : Prop :=
  ∃ block position instruction, cfg.blocks.get? point.1 = some block ∧ point.2 = position + 1 ∧
    block.instructions[position]? = some instruction ∧ instruction.ea = definitionEa ∧
    instruction.registerAccessKnown = true ∧ coversStorage register width instruction = true

/-- The two addresses have one place each, in order, and every backward walk from the current
one is finite, stays inside nonempty blocks and ends just after the definition. -/
structure ProvenStorage (currentEa : Int) (current : Int × Nat) : Prop where
  place : cfg.matchesAt currentEa = [current]
  definition : ∃ place, cfg.matchesAt definitionEa = [place] ∧ ¬ (place.1 = current.1 ∧ current.2 ≤ place.2)
  finite : ¬ InfiniteWalk (StorageBack cfg definitionEa register width) current
  inside : ∀ point, ReflTransGen (StorageBack cfg definitionEa register width) current point → InNonempty cfg point
  defined : ∀ point, StopsAt (StorageBack cfg definitionEa register width) current point →
    DefinedAt cfg definitionEa register width point

end walks

section scan
variable {cfg : NativeCfg} {definitionEa : Int} {register : RegisterSpec} {width : Nat}

theorem scanInstruction_none_iff {instruction : NativeInstructionFact} :
    scanInstruction definitionEa register width instruction = none ↔
      instruction.ea ≠ definitionEa ∧ Harmless register width instruction := by
  refine ⟨scanInstruction_none, ?_⟩
  rintro ⟨hea, hknown, hcall, hwrite⟩
  have hspared : touchesStorage register width instruction = false := by
    refine List.any_eq_false.mpr fun write hmem => ?_
    by_cases hreg : write.fullRegister = register.fullRegister
    · simp [hreg, hwrite write hmem hreg]
    · simp [hreg]
  rw [scanInstruction, if_neg hea]
  simp [hknown, hcall, hspared]

theorem scanInstruction_reached_iff {instruction : NativeInstructionFact} :
    scanInstruction definitionEa register width instruction = some .reached ↔
      instruction.ea = definitionEa ∧ instruction.registerAccessKnown = true ∧
        coversStorage register width instruction = true := by
  constructor
  · intro h
    refine ⟨scanInstruction_reached h, ?_⟩
    rw [scanInstruction, if_pos (scanInstruction_reached h)] at h
    split at h
    · cases h
    · rename_i hgood
      simpa using hgood
  · rintro ⟨hea, hknown, hcovers⟩
    rw [scanInstruction, if_pos hea]
    simp [hknown, hcovers]

theorem PassesHarmless.unique : Relator.RightUnique (PassesHarmless cfg definitionEa register width) := by
  rintro _ _ _ ⟨_, _, _, _⟩ h
  generalize hsource : ((_, _) : Int × Nat) = source at h
  cases h with
  | pass _ _ _ _ =>
    obtain ⟨rfl, hposition⟩ := Prod.mk.inj hsource
    exact Prod.ext rfl (by dsimp only; omega)

theorem PassesHarmless.lower {a b : Int × Nat} (h : PassesHarmless cfg definitionEa register width a b) :
    b.1 = a.1 ∧ b.2 + 1 = a.2 := by
  cases h with
  | pass _ _ _ _ => exact ⟨rfl, rfl⟩

theorem PassesHarmless.ends (a : Int × Nat) : Ends (PassesHarmless cfg definitionEa register width) a := by
  have hwf : WellFounded (fun x y : Int × Nat => PassesHarmless cfg definitionEa register width y x) :=
    Subrelation.wf (fun {x y} h => by
      obtain ⟨_, hlower⟩ := PassesHarmless.lower h
      change x.2 < y.2
      omega) (measure fun point : Int × Nat => point.2).wf
  exact hwf.apply a

theorem PassesHarmless.block {a b : Int × Nat} (h : ReflTransGen (PassesHarmless cfg definitionEa register width) a b) :
    b.1 = a.1 := by
  induction h with
  | refl => rfl
  | tail _ hstep ih => exact hstep.lower.1.trans ih

theorem not_passesHarmless_start (id : Int) (b : Int × Nat) :
    ¬ PassesHarmless cfg definitionEa register width (id, 0) b := by
  intro h
  have hlower := h.lower.2
  omega

/-- A walk does not pass an instruction on which the scan has a verdict. -/
theorem not_passesHarmless_verdict {id : Int} {position : Nat} {block : NativeBlockFacts}
    {instruction : NativeInstructionFact} {scan : Scan} (hb : cfg.blocks.get? id = some block)
    (hat : block.instructions[position]? = some instruction)
    (hscan : scanInstruction definitionEa register width instruction = some scan) (b : Int × Nat) :
    ¬ PassesHarmless cfg definitionEa register width (id, position + 1) b := by
  intro h
  generalize hsource : ((id, position + 1) : Int × Nat) = source at h
  cases h with
  | @pass _ position' _ _ hb' hat' hea hharmless =>
    obtain ⟨rfl, hposition⟩ := Prod.mk.inj hsource
    obtain rfl : position = position' := by omega
    rw [hb] at hb'
    cases hb'
    rw [hat] at hat'
    cases hat'
    rw [scanInstruction_none_iff.mpr ⟨hea, hharmless⟩] at hscan
    cases hscan

/-- The scan below a limit passes every instruction, or stops after the nearest one it has a verdict on. -/
theorem scanned_walk (definitionEa : Int) (register : RegisterSpec) (width : Nat) {id : Int}
    {block : NativeBlockFacts} (hb : cfg.blocks.get? id = some block) (limit : Nat)
    (hlimit : limit ≤ block.instructions.length) :
    (scanned definitionEa register width block limit = none ∧
      StopsAt (PassesHarmless cfg definitionEa register width) (id, limit) (id, 0)) ∨
    ∃ position instruction scan, scanned definitionEa register width block limit = some scan ∧
      block.instructions[position]? = some instruction ∧
      scanInstruction definitionEa register width instruction = some scan ∧
      StopsAt (PassesHarmless cfg definitionEa register width) (id, limit) (id, position + 1) := by
  induction limit with
  | zero => exact .inl ⟨rfl, .refl, not_passesHarmless_start id⟩
  | succ position ih =>
    obtain ⟨instruction, hat⟩ : ∃ instruction, block.instructions[position]? = some instruction :=
      ⟨_, List.getElem?_eq_getElem hlimit⟩
    rw [scanned_succ hat]
    cases hscan : scanInstruction definitionEa register width instruction with
    | some scan => exact .inr ⟨position, instruction, scan, rfl, hat, hscan, .refl,
      not_passesHarmless_verdict hb hat hscan⟩
    | none =>
      obtain ⟨hea, hharmless⟩ := scanInstruction_none_iff.mp hscan
      have hstep : PassesHarmless cfg definitionEa register width (id, position + 1) (id, position) :=
        .pass hb hat hea hharmless
      rcases ih (Nat.le_of_succ_le hlimit) with ⟨hnone, hwalk, hstuck⟩ | ⟨found, other, scan, hsome, hat', hscan',
        hwalk, hstuck⟩
      · exact .inl ⟨hnone, .head hstep hwalk, hstuck⟩
      · exact .inr ⟨found, other, scan, hsome, hat', hscan', .head hstep hwalk, hstuck⟩

/-- What one scan of a state has met. -/
inductive Scans (cfg : NativeCfg) (definitionEa : Int) (register : RegisterSpec) (width : Nat) (state : ScanState) :
    Scan → Prop
  | invalid : ¬ InNonempty cfg state → Scans cfg definitionEa register width state .unresolved
  | stopped {block : NativeBlockFacts} {position : Nat} {instruction : NativeInstructionFact} {scan : Scan} :
      cfg.blocks.get? state.1 = some block → InNonempty cfg state →
      block.instructions[position]? = some instruction →
      scanInstruction definitionEa register width instruction = some scan →
      StopsAt (PassesHarmless cfg definitionEa register width) state (state.1, position + 1) →
      Scans cfg definitionEa register width state scan
  | passed {block : NativeBlockFacts} : cfg.blocks.get? state.1 = some block → InNonempty cfg state →
      StopsAt (PassesHarmless cfg definitionEa register width) state (state.1, 0) →
      Scans cfg definitionEa register width state (.passed block.predecessors)

theorem scans (cfg : NativeCfg) (definitionEa : Int) (register : RegisterSpec) (width : Nat) (state : ScanState) :
    Scans cfg definitionEa register width state (cfg.scanState definitionEa register width state) := by
  obtain ⟨id, limit⟩ := state
  rw [scanState]
  cases hb : cfg.blocks.get? id with
  | none =>
    refine .invalid ?_
    rintro ⟨block, hblock, _⟩
    rw [hb] at hblock
    cases hblock
  | some block =>
    dsimp only
    split
    · rename_i hbad
      refine .invalid ?_
      rintro ⟨block', hblock, hnonempty, hlimit⟩
      rw [hb] at hblock
      cases hblock
      rcases hbad with hlong | hempty
      · omega
      · exact hnonempty hempty
    · rename_i hgood
      obtain ⟨hlimit, hnonempty⟩ := not_or.mp hgood
      have hin : InNonempty cfg (id, limit) := ⟨block, hb, hnonempty, by omega⟩
      rcases scanned_walk definitionEa register width hb limit (by omega) with
        ⟨hnone, hwalk⟩ | ⟨position, instruction, scan, hsome, hat, hscan, hwalk⟩
      · rw [scanned] at hnone
        rw [hnone]
        exact .passed hb hin hwalk
      · rw [scanned] at hsome
        rw [hsome]
        exact .stopped hb hin hat hscan hwalk

/-- The states gone on to are the ends of the existing predecessors of a passed block. -/
theorem mem_nextStates {state target : ScanState} (h : target ∈ cfg.nextStates definitionEa register width state) :
    StopsAt (PassesHarmless cfg definitionEa register width) state (state.1, 0) ∧
      EntersPredecessor cfg (state.1, 0) target ∧ (cfg.blocks.get? target.1).isSome := by
  rw [nextStates] at h
  have hscan := scans cfg definitionEa register width state
  generalize cfg.scanState definitionEa register width state = scan at h hscan
  cases hscan with
  | invalid _ => cases h
  | stopped _ _ _ hverdict _ =>
    split at h
    · exact absurd hverdict scanInstruction_ne_passed
    · cases h
  | passed hb _ hwalk =>
    obtain ⟨predecessor, hpred, hget⟩ := List.mem_filterMap.mp h
    obtain ⟨block', hb', rfl⟩ := Option.map_eq_some_iff.mp hget
    have hend : cfg.blockLength predecessor = block'.instructions.length := by rw [blockLength, hb']; rfl
    exact ⟨hwalk, hend ▸ .enter hb hpred, Option.isSome_of_eq_some hb'⟩

theorem nextStates_steps {state target : ScanState} (h : target ∈ cfg.nextStates definitionEa register width state) :
    TransGen (StorageBack cfg definitionEa register width) state target := by
  obtain ⟨⟨hpass, _⟩, henter, _⟩ := mem_nextStates h
  exact .tail' (ReflTransGen.mono (fun _ _ => .inl) _ _ hpass) (.inr henter)

theorem storageBack_of_states {start state : ScanState}
    (h : ReflTransGen (fun a b => b ∈ cfg.nextStates definitionEa register width a) start state) :
    ReflTransGen (StorageBack cfg definitionEa register width) start state := by
  induction h with
  | refl => exact .refl
  | tail _ hstep ih => exact ih.trans (nextStates_steps hstep).to_reflTransGen

/-- The default budget covers the start and the end of every block. -/
theorem searchStorage_done (cfg : NativeCfg) (definitionEa : Int) (register : RegisterSpec) (width : Nat)
    (start : ScanState) :
    (cfg.searchStorage definitionEa register width start).exhausted = false := by
  have hends : ∀ state, cfg.nextStates definitionEa register width state ⊆
      cfg.blocks.keys.map fun id => (id, cfg.blockLength id) := by
    intro state target htarget
    obtain ⟨_, henter, hsome⟩ := mem_nextStates htarget
    cases henter with
    | enter _ _ =>
      obtain ⟨block, hb⟩ := Option.isSome_iff_exists.mp hsome
      exact List.mem_map.mpr ⟨_, (Dict.mem_keys_iff _ _).mpr ⟨block, hb⟩, rfl⟩
  refine Explore.explore_budget _ _ (start :: cfg.blocks.keys.map fun id => (id, cfg.blockLength id)) _ _ _
    (List.mem_cons_self ..) (fun state _ target htarget => List.mem_cons_of_mem _ (hends state htarget)) ?_
  have hsize : cfg.blocks.keys.length = cfg.blocks.size := List.length_map _
  rw [List.length_cons, List.length_map, hsize, searchBudget]
  omega

/-- A passed instruction lies in a block that is not empty. -/
theorem PassesHarmless.inNonempty {a b : Int × Nat} (h : PassesHarmless cfg definitionEa register width a b) :
    InNonempty cfg a ∧ InNonempty cfg b := by
  cases h with
  | pass hb hat _ _ =>
    have hlength := (List.getElem?_eq_some_iff.mp hat).1
    have hnonempty := List.ne_nil_of_length_pos (Nat.zero_lt_of_lt hlength)
    exact ⟨⟨_, hb, hnonempty, hlength⟩, ⟨_, hb, hnonempty, Nat.le_of_lt hlength⟩⟩

/-- The scan of the state reaches the definition, or goes on to existing predecessors. -/
def GoodScan (cfg : NativeCfg) (definitionEa : Int) (register : RegisterSpec) (width : Nat) (state : ScanState) :
    Prop :=
  match cfg.scanState definitionEa register width state with
  | .reached => True
  | .passed predecessors => predecessors ≠ [] ∧ ∀ id ∈ predecessors, (cfg.blocks.get? id).isSome
  | _ => False

/-- Every state of the search is good, and the search does not go on forever. -/
structure GoodSearch (cfg : NativeCfg) (definitionEa : Int) (register : RegisterSpec) (width : Nat)
    (start : ScanState) : Prop where
  ends : Ends (fun a b => b ∈ cfg.nextStates definitionEa register width a) start
  good : ∀ state, ReflTransGen (fun a b => b ∈ cfg.nextStates definitionEa register width a) start state →
    GoodScan cfg definitionEa register width state

/-- Where every state is good, the search jumps from the head of a segment to the heads of the next ones. -/
theorem storage_segments {start : ScanState} (hgood : GoodSearch cfg definitionEa register width start) :
    Segments (PassesHarmless cfg definitionEa register width) (EntersPredecessor cfg)
      (fun a b => b ∈ cfg.nextStates definitionEa register width a) (fun point => (cfg.blocks.get? point.1).isSome)
      start := by
  refine ⟨PassesHarmless.ends, ?_, ?_⟩
  · rintro _ _ (⟨hb, _, _, _⟩ | ⟨hb, _⟩) <;> exact Option.isSome_of_eq_some hb
  · rintro head hreach _ _ hpass ⟨hb, hpred⟩ hlive
    rename_i id predecessor block
    have hhead : head.1 = id := (PassesHarmless.block hpass).symm
    have hstop : StopsAt (PassesHarmless cfg definitionEa register width) head (id, 0) :=
      ⟨hpass, not_passesHarmless_start id⟩
    have hgood := hgood.good head hreach
    rw [GoodScan] at hgood
    rw [nextStates]
    have hscan := scans cfg definitionEa register width head
    generalize cfg.scanState definitionEa register width head = scan at hgood hscan
    cases hscan with
    | invalid _ => exact hgood.elim
    | stopped _ _ _ _ hwalk =>
      have hposition := (Prod.mk.inj (hstop.unique PassesHarmless.unique hwalk)).2
      omega
    | passed hb' _ _ =>
      rw [hhead, hb] at hb'
      cases hb'
      obtain ⟨target, htarget⟩ := Option.isSome_iff_exists.mp hlive
      exact List.mem_filterMap.mpr ⟨predecessor, hpred, by rw [blockLength, htarget]; rfl⟩

end scan

section validation
variable {cfg : NativeCfg} {definitionEa : Int} {register : RegisterSpec} {width : Nat} {currentEa : Int}

/-- What the notes of some states add up to. -/
def collectedStorage (cfg : NativeCfg) (definitionEa : Int) (register : RegisterSpec) (width : Nat)
    (visited : List ScanState) : StorageSearch :=
  visited.foldr (fun state found => cfg.noteState definitionEa register width found state) {}

theorem noteState_good (found : StorageSearch) (state : ScanState) :
    (cfg.noteState definitionEa register width found state).clobberEa = none ∧
        (cfg.noteState definitionEa register width found state).unresolved = false ↔
      GoodScan cfg definitionEa register width state ∧ found.clobberEa = none ∧ found.unresolved = false := by
  rw [noteState, GoodScan]
  cases cfg.scanState definitionEa register width state with
  | unresolved => simp
  | clobbered ea => simp
  | reached => simp
  | passed predecessors =>
    dsimp only
    split
    · rename_i hbad
      exact iff_of_false (by simp) fun h => Explore.targets_exist_iff.mpr h.1 hbad
    · rename_i hgood
      have hresolved := Explore.targets_exist_iff.mp hgood
      exact ⟨fun h => ⟨hresolved, h⟩, fun h => h.2⟩

theorem collectedStorage_good (visited : List ScanState) :
    (collectedStorage cfg definitionEa register width visited).clobberEa = none ∧
        (collectedStorage cfg definitionEa register width visited).unresolved = false ↔
      ∀ state ∈ visited, GoodScan cfg definitionEa register width state :=
  Explore.notes_forall_iff (cfg.noteState definitionEa register width)
    (fun found => found.clobberEa = none ∧ found.unresolved = false) ⟨rfl, rfl⟩ noteState_good visited

theorem noteState_reached (found : StorageSearch) (state : ScanState) :
    (cfg.noteState definitionEa register width found state).reachedDefinition = true ↔
      cfg.scanState definitionEa register width state = .reached ∨ found.reachedDefinition = true := by
  rw [noteState]
  cases cfg.scanState definitionEa register width state with
  | unresolved => simp
  | clobbered ea => simp
  | reached => simp
  | passed predecessors =>
    dsimp only
    split <;> simp

theorem collectedStorage_reached (visited : List ScanState) :
    (collectedStorage cfg definitionEa register width visited).reachedDefinition = true ↔
      ∃ state ∈ visited, cfg.scanState definitionEa register width state = .reached := by
  induction visited with
  | nil => simp [collectedStorage]
  | cons state visited ih =>
    rw [collectedStorage, List.foldr_cons, noteState_reached, List.exists_mem_cons_iff]
    exact or_congr_right ih

/-- A good search that ends has reached the definition. -/
theorem GoodSearch.reached {start : ScanState} (h : GoodSearch cfg definitionEa register width start) :
    ∃ state, ReflTransGen (fun a b => b ∈ cfg.nextStates definitionEa register width a) start state ∧
      cfg.scanState definitionEa register width state = .reached := by
  obtain ⟨state, hstate, hstuck⟩ := h.ends.exists_stop
  have hgood := h.good state hstate
  rw [GoodScan] at hgood
  refine ⟨state, hstate, ?_⟩
  cases hscan : cfg.scanState definitionEa register width state with
  | reached => rfl
  | unresolved => simp [hscan] at hgood
  | clobbered ea => simp [hscan] at hgood
  | passed predecessors =>
    rw [hscan] at hgood
    obtain ⟨id, hid⟩ := List.exists_mem_of_ne_nil _ hgood.1
    obtain ⟨block, hb⟩ := Option.isSome_iff_exists.mp (hgood.2 id hid)
    refine absurd ?_ (hstuck (id, block.instructions.length))
    change (id, block.instructions.length) ∈ cfg.nextStates definitionEa register width state
    rw [nextStates, hscan]
    exact List.mem_filterMap.mpr ⟨id, hid, by rw [hb]; rfl⟩

/-- The validation accepts exactly when the two addresses have one place each, in order, and the search is good. -/
theorem validateRegisterStorageCfg_valid_iff :
    (cfg.validateRegisterStorageCfg definitionEa currentEa register width).valid = true ↔
      ∃ place current, cfg.matchesAt definitionEa = [place] ∧ cfg.matchesAt currentEa = [current] ∧
        ¬ (place.1 = current.1 ∧ current.2 ≤ place.2) ∧ GoodSearch cfg definitionEa register width current := by
  have hsearch : ∀ current, ((cfg.searchStorage definitionEa register width current).acc.clobberEa = none ∧
      (cfg.searchStorage definitionEa register width current).acc.unresolved = false) ∧
      (cfg.searchStorage definitionEa register width current).acc.reachedDefinition = true ∧
      graphHasCycle (cfg.searchStorage definitionEa register width current).edges = false ↔
      GoodSearch cfg definitionEa register width current := by
    intro current
    have hdone := searchStorage_done cfg definitionEa register width current
    have hvisited := Explore.explore_visited_iff _ _ _ current _ hdone
    have hloop := explored_acyclic_iff _ _ _ current _ hdone
    have hacc : (cfg.searchStorage definitionEa register width current).acc = collectedStorage cfg definitionEa
      register width
        (cfg.searchStorage definitionEa register width current).visited := Explore.explore_acc _ _ _ current _
    rw [hacc, collectedStorage_good, collectedStorage_reached]
    constructor
    · rintro ⟨hgood, _, hacyclic⟩
      exact ⟨hloop.mp hacyclic, fun state hstate => hgood state ((hvisited state).mpr hstate)⟩
    · intro h
      obtain ⟨state, hstate, hreached⟩ := h.reached
      exact ⟨fun state hstate => h.good state ((hvisited state).mp hstate),
        ⟨state, (hvisited state).mpr hstate, hreached⟩,
        hloop.mpr h.ends⟩
  constructor
  · intro h
    rw [validateRegisterStorageCfg] at h
    split at h
    · rename_i place current hplace hcurrent
      split at h
      · cases h
      · rename_i horder
        dsimp only at h
        split at h
        · cases h
        · rename_i hclobber
          split at h
          · cases h
          · rename_i hchecks
            simp only [Bool.or_eq_true, not_or, Bool.not_eq_true, Bool.not_eq_eq_eq_not, Bool.not_true] at hchecks
            obtain ⟨⟨⟨hreached, hresolved⟩, _⟩, hacyclic⟩ := hchecks
            refine ⟨place, current, hplace, hcurrent, horder,
              (hsearch current).mp ⟨⟨hclobber, hresolved⟩, ?_, hacyclic⟩⟩
            simpa using hreached
    · cases h
  · rintro ⟨place, current, hplace, hcurrent, horder, hgood⟩
    obtain ⟨⟨hclobber, hresolved⟩, hreached, hacyclic⟩ := (hsearch current).mpr hgood
    have hdone := searchStorage_done cfg definitionEa register width current
    rw [validateRegisterStorageCfg, hplace, hcurrent]
    dsimp only
    rw [if_neg horder, hclobber, hresolved, hreached, hdone, hacyclic]
    rfl

end validation

section entry
variable {cfg : NativeCfg} {definitionEa : Int} {register : RegisterSpec} {width : Nat} {currentEa : Int}
  {current : Int × Nat} {entry : Int}

/-- A backward walk cannot go on from just after an instruction on which the scan has a verdict. -/
theorem not_storageBack_verdict {id : Int} {position : Nat} {block : NativeBlockFacts}
    {instruction : NativeInstructionFact} {scan : Scan} (hb : cfg.blocks.get? id = some block)
    (hat : block.instructions[position]? = some instruction)
    (hscan : scanInstruction definitionEa register width instruction = some scan) (b : Int × Nat) :
    ¬ StorageBack cfg definitionEa register width (id, position + 1) b := by
  rintro (h | h)
  · exact not_passesHarmless_verdict hb hat hscan b h
  · cases h

theorem GoodSearch.defined (h : GoodSearch cfg definitionEa register width current) {head point : Int × Nat}
    (hhead : ReflTransGen (fun a b => b ∈ cfg.nextStates definitionEa register width a) current head)
    (hpass : ReflTransGen (PassesHarmless cfg definitionEa register width) head point)
    (hstuck : ∀ b, ¬ StorageBack cfg definitionEa register width point b) :
    DefinedAt cfg definitionEa register width point := by
  have hstop : StopsAt (PassesHarmless cfg definitionEa register width) head point :=
    ⟨hpass, fun b hb => hstuck b (.inl hb)⟩
  have hgood := h.good head hhead
  rw [GoodScan] at hgood
  have hscan := scans cfg definitionEa register width head
  generalize cfg.scanState definitionEa register width head = scan at hgood hscan
  cases hscan with
  | invalid _ => exact hgood.elim
  | passed hb _ hwalk =>
    obtain rfl := hstop.unique PassesHarmless.unique hwalk
    obtain ⟨predecessor, hpred⟩ := List.exists_mem_of_ne_nil _ hgood.1
    exact absurd (.inr (.enter hb hpred)) (hstuck _)
  | stopped hb _ hat hverdict hwalk =>
    obtain rfl := hstop.unique PassesHarmless.unique hwalk
    cases scan with
    | unresolved => exact hgood.elim
    | clobbered ea => exact hgood.elim
    | passed predecessors => exact absurd hverdict scanInstruction_ne_passed
    | reached => exact ⟨_, _, _, hb, rfl, hat, scanInstruction_reached_iff.mp hverdict⟩

theorem GoodSearch.inside (h : GoodSearch cfg definitionEa register width current) (point : Int × Nat)
    (hreach : ReflTransGen (StorageBack cfg definitionEa register width) current point) : InNonempty cfg point := by
  have hseg := storage_segments h
  have hhead : ∀ head, ReflTransGen (fun a b => b ∈ cfg.nextStates definitionEa register width a) current head →
      InNonempty cfg head := by
    intro head hhead
    have hgood := h.good head hhead
    rw [GoodScan] at hgood
    have hscan := scans cfg definitionEa register width head
    generalize cfg.scanState definitionEa register width head = scan at hgood hscan
    cases hscan with
    | invalid _ => exact hgood.elim
    | passed _ hin _ => exact hin
    | stopped _ hin _ _ _ => exact hin
  induction hreach with
  | refl => exact hhead current .refl
  | @tail point next hreach hstep _ =>
    rcases hstep with hstep | hstep
    · exact hstep.inNonempty.2
    · obtain ⟨head, hreached, hpass⟩ := hseg.reach hreach (hseg.source _ _ (.inr hstep))
      have hgood := h.good head hreached
      rw [GoodScan] at hgood
      have hscan := scans cfg definitionEa register width head
      generalize hstate : cfg.scanState definitionEa register width head = scan at hgood hscan
      cases hstep with
      | @enter id predecessor block hb hpred =>
        have hblock : id = head.1 := PassesHarmless.block hpass
        have hstop : StopsAt (PassesHarmless cfg definitionEa register width) head (id, 0) :=
          ⟨hpass, not_passesHarmless_start id⟩
        cases hscan with
        | invalid _ => exact hgood.elim
        | stopped _ _ _ _ hwalk =>
          have hposition := (Prod.mk.inj (hstop.unique PassesHarmless.unique hwalk)).2
          omega
        | passed hb' _ _ =>
          rw [← hblock, hb] at hb'
          cases hb'
          obtain ⟨target, htarget⟩ := Option.isSome_iff_exists.mp (hgood.2 predecessor hpred)
          refine hhead _ (hreached.tail ?_)
          rw [nextStates, hstate]
          exact List.mem_filterMap.mpr ⟨predecessor, hpred, by rw [blockLength, htarget]; rfl⟩

/-- The validation accepts exactly what holds of every backward walk. -/
theorem validateRegisterStorageCfg_proven_iff :
    (cfg.validateRegisterStorageCfg definitionEa currentEa register width).valid = true ↔
      ∃ current, ProvenStorage cfg definitionEa register width currentEa current := by
  rw [validateRegisterStorageCfg_valid_iff]
  constructor
  · rintro ⟨place, current, hplace, hcurrent, horder, hgood⟩
    have hseg := storage_segments hgood
    refine ⟨current, hcurrent, ⟨place, hplace, horder⟩, not_infiniteWalk_iff.mpr (hseg.ends_step hgood.ends),
      hgood.inside,
      fun point hpoint => ?_⟩
    obtain ⟨block, hb, _⟩ := hgood.inside point hpoint.1
    obtain ⟨head, hhead, hpass⟩ := hseg.reach hpoint.1 (Option.isSome_of_eq_some hb)
    exact hgood.defined hhead hpass hpoint.2
  · rintro ⟨current, h⟩
    obtain ⟨place, hplace, horder⟩ := h.definition
    have hends := not_infiniteWalk_iff.mp h.finite
    refine ⟨place, current, hplace, h.place, horder, hends.of_steps fun _ _ => nextStates_steps, fun state hstate => ?_⟩
    have hreach := storageBack_of_states hstate
    rw [GoodScan]
    have hscan := scans cfg definitionEa register width state
    generalize cfg.scanState definitionEa register width state = scan at hscan
    cases hscan with
    | invalid hout => exact absurd (h.inside state hreach) hout
    | @stopped block position instruction _ hb _ hat hverdict hwalk =>
      have hstop : StopsAt (StorageBack cfg definitionEa register width) current (state.1, position + 1) :=
        ⟨hreach.trans (ReflTransGen.mono (fun _ _ => .inl) _ _ hwalk.1), not_storageBack_verdict hb hat hverdict⟩
      obtain ⟨block', position', instruction', hb', hposition, hat', hdefines⟩ := h.defined _ hstop
      obtain rfl : position = position' := by dsimp only at hposition; omega
      rw [hb] at hb'
      cases hb'
      rw [hat] at hat'
      cases hat'
      rw [scanInstruction_reached_iff.mpr hdefines] at hverdict
      cases hverdict
      trivial
    | @passed block hb _ hwalk =>
      have hfirst := hreach.trans (ReflTransGen.mono (fun _ _ => .inl) _ _ hwalk.1)
      refine ⟨fun hnil => ?_, fun predecessor hpred => ?_⟩
      · have hstuck : ∀ b, ¬ StorageBack cfg definitionEa register width (state.1, 0) b := by
          rintro b (hstep | hstep)
          · exact hwalk.2 b hstep
          · cases hstep with
            | enter hb' hpred =>
              rw [hb] at hb'
              cases hb'
              rw [hnil] at hpred
              cases hpred
        obtain ⟨_, _, _, _, hposition, _⟩ := h.defined _ ⟨hfirst, hstuck⟩
        cases hposition
      · obtain ⟨target, htarget, _⟩ := h.inside _ (hfirst.tail (.inr (.enter hb hpred)))
        exact Option.isSome_of_eq_some htarget

theorem blockLength_eq {id : Int} {block : NativeBlockFacts} (hb : cfg.blocks.get? id = some block) :
    cfg.blockLength id = block.instructions.length := by
  rw [blockLength, hb]
  rfl

/-- A backward walk to the start of the entry block is a path from there that avoids the definition. -/
theorem ProvenStorage.path_of_walk (h : ProvenStorage cfg definitionEa register width currentEa current)
    (hrec : cfg.Reciprocal) (hwalk : ReflTransGen (StorageBack cfg definitionEa register width) current (entry, 0)) :
    ∃ executed, cfg.EntryPath entry executed current ∧ ∀ instruction ∈ executed, instruction.ea ≠ definitionEa := by
  have hback : ∀ point, ReflTransGen (StorageBack cfg definitionEa register width) point (entry, 0) →
      ReflTransGen (StorageBack cfg definitionEa register width) current point →
      ∃ executed, cfg.EntryPath entry executed point ∧ ∀ instruction ∈ executed, instruction.ea ≠ definitionEa := by
    intro point hpoint
    induction hpoint using ReflTransGen.head_induction_on with
    | refl =>
      intro hreach
      obtain ⟨block, hb, _⟩ := h.inside _ hreach
      exact ⟨[], .start hb, nofun⟩
    | head hstep _ ih =>
      intro hreach
      obtain ⟨executed, hpath, havoid⟩ := ih (hreach.tail hstep)
      rcases hstep with hstep | hstep
      · cases hstep with
        | pass hb hat hea _ => exact ⟨_, .execute hpath hb hat, List.forall_mem_cons.mpr ⟨hea, havoid⟩⟩
      · cases hstep with
        | @enter id predecessor block hb hpred =>
          obtain ⟨source, hsource, hsucc⟩ := (hrec predecessor id).mpr ⟨block, hb, hpred⟩
          rw [blockLength_eq hsource] at hpath
          exact ⟨executed, .enter hpath hsource hsucc, havoid⟩
  exact hback current hwalk .refl

/-- A path from the entry that avoids the definition is a backward walk to the start of the entry block. -/
theorem ProvenStorage.walk_of_path (h : ProvenStorage cfg definitionEa register width currentEa current)
    (hrec : cfg.Reciprocal) {executed : List NativeInstructionFact} {point : Int × Nat}
    (hpath : cfg.EntryPath entry executed point) (havoid : ∀ instruction ∈ executed, instruction.ea ≠ definitionEa)
    (hreach : ReflTransGen (StorageBack cfg definitionEa register width) current point) :
    ReflTransGen (StorageBack cfg definitionEa register width) current (entry, 0) := by
  induction hpath with
  | start _ => exact hreach
  | @execute executed id position block instruction _ hb hat ih =>
    obtain ⟨hea, havoid⟩ := List.forall_mem_cons.mp havoid
    refine ih havoid (hreach.tail (.inl ?_))
    cases hscan : scanInstruction definitionEa register width instruction with
    | none => exact .pass hb hat hea (scanInstruction_none_iff.mp hscan).2
    | some scan =>
      obtain ⟨block', position', instruction', hb', hposition, hat', hdefines, _⟩ :=
        h.defined _ ⟨hreach, not_storageBack_verdict hb hat hscan⟩
      obtain rfl : position = position' := by dsimp only at hposition; omega
      rw [hb] at hb'
      cases hb'
      rw [hat] at hat'
      cases hat'
      exact absurd hdefines hea
  | @enter executed id next block _ hb hsucc ih =>
    obtain ⟨target, htarget, hpred⟩ := (hrec id next).mp ⟨block, hb, hsucc⟩
    refine ih havoid (hreach.tail (.inr ?_))
    have henter : EntersPredecessor cfg (next, 0) (id, cfg.blockLength id) := .enter htarget hpred
    rwa [blockLength_eq hb] at henter

/-- The only place of an address holds an instruction with that address. -/
theorem exists_of_mem_matchesAt {ea : Int} {place : Int × Nat} (h : place ∈ cfg.matchesAt ea) :
    ∃ block instruction, cfg.blocks.get? place.1 = some block ∧ block.instructions[place.2]? = some instruction ∧
      instruction.ea = ea := by
  obtain ⟨block, hblock, hplace⟩ := List.mem_flatMap.mp h
  obtain ⟨⟨instruction, position⟩, hentry, rfl⟩ := List.mem_map.mp hplace
  obtain ⟨hat, hea⟩ := List.mem_filter.mp hentry
  obtain ⟨id, hb⟩ := (cfg.blocks.mem_values_iff block).mp hblock
  rw [← cfg.keyed id block hb] at hb
  exact ⟨block, instruction, hb, List.mem_zipIdx_iff_getElem?.mp hat, of_decide_eq_true hea⟩

/-- With an accepted proof, the definition covers the paths from the entry exactly when no
backward walk runs through to the start of the entry block. -/
theorem ProvenStorage.entryPathsDefine_iff (h : ProvenStorage cfg definitionEa register width currentEa current)
    (hrec : cfg.Reciprocal) : cfg.EntryPathsDefine entry definitionEa currentEa ↔
      ¬ ReflTransGen (StorageBack cfg definitionEa register width) current (entry, 0) := by
  constructor
  · intro hdefine hwalk
    obtain ⟨executed, hpath, havoid⟩ := h.path_of_walk hrec hwalk
    obtain ⟨block, instruction, hb, hat, hea⟩ := exists_of_mem_matchesAt (h.place ▸ List.mem_singleton_self current)
    obtain ⟨defining, hmem, hdefining⟩ := hdefine executed current.1 current.2 block instruction hpath hb hat hea
    exact havoid defining hmem hdefining
  · intro hnowalk executed id position block instruction hpath hb hat hea
    by_contra hnone
    have hplace := mem_matchesAt hb hat
    rw [hea, h.place, List.mem_singleton] at hplace
    exact hnowalk (h.walk_of_path hrec hpath (fun i hi hdef => hnone ⟨i, hi, hdef⟩) (hplace ▸ .refl))

/-- An accepted proof covers the paths from an entry block without predecessors. -/
theorem entryPathsDefine_of_no_predecessors (hrec : cfg.Reciprocal) {block : NativeBlockFacts}
    (hentry : cfg.blocks.get? entry = some block) (hpreds : block.predecessors = [])
    (hvalid : (cfg.validateRegisterStorageCfg definitionEa currentEa register width).valid = true) :
    cfg.EntryPathsDefine entry definitionEa currentEa := by
  obtain ⟨current, h⟩ := validateRegisterStorageCfg_proven_iff.mp hvalid
  refine (h.entryPathsDefine_iff hrec).mpr fun hwalk => ?_
  have hstuck : ∀ b, ¬ StorageBack cfg definitionEa register width (entry, 0) b := by
    rintro b (hstep | hstep)
    · exact not_passesHarmless_start entry b hstep
    · cases hstep with
      | enter hb hpred =>
        rw [hentry] at hb
        cases hb
        rw [hpreds] at hpred
        cases hpred
  obtain ⟨_, _, _, _, hposition, _⟩ := h.defined _ ⟨hwalk, hstuck⟩
  cases hposition

/-- On a reciprocal graph an accepted proof covers every path from the function entry, unless every backward walk from
the current instruction ends just after the definition and yet one of them runs through the start of the entry block. -/
theorem entry_paths_covered_iff (cfg : NativeCfg) (hrec : cfg.Reciprocal) (entry definitionEa currentEa : Int)
    (register : RegisterSpec) (width : Nat) :
    ((cfg.validateRegisterStorageCfg definitionEa currentEa register width).valid = true →
        cfg.EntryPathsDefine entry definitionEa currentEa) ↔
      ¬ ∃ current, ProvenStorage cfg definitionEa register width currentEa current ∧
        ReflTransGen (StorageBack cfg definitionEa register width) current (entry, 0) := by
  rw [validateRegisterStorageCfg_proven_iff]
  constructor
  · rintro hcovers ⟨current, h, hwalk⟩
    exact (h.entryPathsDefine_iff hrec).mp (hcovers ⟨current, h⟩) hwalk
  · rintro hno ⟨current, h⟩
    exact (h.entryPathsDefine_iff hrec).mpr fun hwalk => hno ⟨current, h, hwalk⟩

end entry

/-- The entry block reads `rbx` and heads a loop whose body defines it. -/
def loopCfg : NativeCfg :=
  { blocks := (Dict.empty.set 0
      { blockId := 0, instructions := [{ ea := 0x1000 }], predecessors := [1], successors := [1] }).set 1
      { blockId := 1
        instructions := [{ ea := 0x1010, writes := [{ fullRegister := "rbx", bitOffset := 0, bitSize := 64 }] }]
        predecessors := [0]
        successors := [0] }
    keyed := by
      intro id block h
      simp only [Dict.get?_set, Dict.get?_empty] at h
      split at h
      · cases h
        exact Eq.symm ‹_›
      · split at h
        · cases h
          exact Eq.symm ‹_›
        · cases h }

theorem loopCfg_reciprocal : loopCfg.Reciprocal := by
  have hblock : ∀ id block, loopCfg.blocks.get? id = some block →
      id = 0 ∧ block.successors = [1] ∧ block.predecessors = [1] ∨ id = 1 ∧ block.successors = [0] ∧
      block.predecessors = [0] := by
    intro id block h
    simp only [loopCfg, Dict.get?_set, Dict.get?_empty] at h
    split at h
    · cases h
      exact .inr ⟨‹_›, rfl, rfl⟩
    · split at h
      · cases h
        exact .inl ⟨‹_›, rfl, rfl⟩
      · cases h
  intro id next
  constructor
  · rintro ⟨block, hb, hmem⟩
    rcases hblock id block hb with ⟨rfl, hsucc, _⟩ | ⟨rfl, hsucc, _⟩ <;> rw [hsucc, List.mem_singleton] at hmem <;>
      subst hmem
    · exact ⟨_, rfl, List.mem_singleton_self _⟩
    · exact ⟨_, rfl, List.mem_singleton_self _⟩
  · rintro ⟨block, hb, hmem⟩
    rcases hblock next block hb with ⟨rfl, _, hpred⟩ | ⟨rfl, _, hpred⟩ <;>
      rw [hpred, List.mem_singleton] at hmem <;> subst hmem
    · exact ⟨_, rfl, List.mem_singleton_self _⟩
    · exact ⟨_, rfl, List.mem_singleton_self _⟩

theorem entry_paths_covered_iff_loop :
    let register : RegisterSpec := { fullRegister := "rbx", width := 8 }
    ((loopCfg.validateRegisterStorageCfg 0x1010 0x1000 register 8).valid = true →
      loopCfg.EntryPathsDefine 0 0x1010 0x1000) ↔
      ¬ ∃ current, ProvenStorage loopCfg 0x1010 register 8 0x1000 current ∧
        ReflTransGen (StorageBack loopCfg 0x1010 register 8) current (0, 0) :=
  entry_paths_covered_iff loopCfg loopCfg_reciprocal 0 0x1010 0x1000 { fullRegister := "rbx", width := 8 } 8

/-- The proof accepts the loop, although the first arrival at the read has not executed the definition. -/
theorem loop_entry_not_covered :
    ¬ ∀ (cfg : NativeCfg) (entry definitionEa currentEa : Int) (register : RegisterSpec) (width : Nat), cfg.Reciprocal →
      (cfg.validateRegisterStorageCfg definitionEa currentEa register width).valid = true →
      cfg.EntryPathsDefine entry definitionEa currentEa := by
  intro h
  have hcovers := h loopCfg 0 0x1010 0x1000 { fullRegister := "rbx", width := 8 } 8 loopCfg_reciprocal (by decide)
  obtain ⟨defining, hmem, _⟩ := hcovers [] 0 0 _ _ (.start rfl) rfl rfl rfl
  cases hmem

end NativeCfg
end DynvarSync.Ida
