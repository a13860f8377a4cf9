import DynvarSync.Ida.FutureUses
import DynvarSync.Ida.ReachingWalks

/-! Forward walks of a microcode graph, and the search for future uses against
all of them. -/
namespace DynvarSync.Ida
open Lib Relation Walks

section walks
variable (blocks : Dict Int CfgBlockFacts)

/-- A forward walk passes an instruction that is no definition. -/
inductive PassesForward : Int × Int → Int × Int → Prop
  | pass {id : Int} {position : Nat} {block : CfgBlockFacts} {fact : CfgInstructionFact} :
      blocks.get? id = some block → block.instructions[position]? = some fact → fact.defines = false →
      PassesForward (id, position) (id, (position : Int) + 1)

/-- A forward walk continues at the start of any successor. -/
inductive EntersForward : Int × Int → Int × Int → Prop
  | enter {id successor : Int} {block : CfgBlockFacts} : blocks.get? id = some block →
      successor ∈ block.successors → EntersForward (id, block.instructions.length) (successor, 0)

/-- One step of a forward walk, a walk being cut at the first definition. -/
def ForwardStep (a b : Int × Int) : Prop := PassesForward blocks a b ∨ EntersForward blocks a b

/-- The instruction after the point uses the value, at a known address or not. -/
def UseAt (known : Bool) (point : Int × Int) : Prop :=
  ∃ (block : CfgBlockFacts) (position : Nat) (fact : CfgInstructionFact), blocks.get? point.1 = some block ∧
    point.2 = position ∧ block.instructions[position]? = some fact ∧ fact.use = true ∧ fact.ea.isSome = known

/-- No use at a known address in the segment of a state, and whether there is one at an unknown address. -/
def Quiet (state : Int × Int) (unresolved : Bool) : Prop :=
  (∀ point, ReflTransGen (PassesForward blocks) state point → ¬ UseAt blocks true point) ∧
    (unresolved = true ↔ ∃ point, ReflTransGen (PassesForward blocks) state point ∧ UseAt blocks false point)

end walks

section scan
variable {blocks : Dict Int CfgBlockFacts}

theorem PassesForward.unique : Relator.RightUnique (PassesForward blocks) := by
  rintro _ _ _ ⟨_, _, _⟩ h
  generalize hsource : ((_, _) : Int × Int) = source at h
  cases h with
  | pass _ _ _ =>
    obtain ⟨rfl, hposition⟩ := Prod.mk.inj hsource
    exact Prod.ext rfl (by dsimp only; omega)

theorem PassesForward.inBlocks {a b : Int × Int} (h : PassesForward blocks a b) :
    InBlocks blocks a ∧ InBlocks blocks b := by
  cases h with
  | pass hb hat _ =>
    have hlength := (List.getElem?_eq_some_iff.mp hat).1
    exact ⟨⟨_, hb, by dsimp only; omega, by dsimp only; omega⟩, ⟨_, hb, by dsimp only; omega, by dsimp only; omega⟩⟩

theorem PassesForward.block {a b : Int × Int} (h : ReflTransGen (PassesForward blocks) a b) : b.1 = a.1 := by
  induction h with
  | refl => rfl
  | tail _ hstep ih => cases hstep with | pass _ _ _ => exact ih

theorem PassesForward.ends (a : Int × Int) : Ends (PassesForward blocks) a := by
  have hwf : WellFounded (fun x y : Int × Int => PassesForward blocks y x) :=
    Subrelation.wf (fun {x y} h => by
      cases h with
      | @pass id position block _ hb hat _ =>
        have hlength := (List.getElem?_eq_some_iff.mp hat).1
        have hend : endOf blocks id = block.instructions.length := by rw [endOf, hb]; rfl
        change (endOf blocks id - ((position : Int) + 1)).toNat < (endOf blocks id - (position : Int)).toNat
        omega) (measure fun point : Int × Int => (endOf blocks point.1 - point.2).toNat).wf
  exact hwf.apply a

/-- Nothing is passed at the end of a block. -/
theorem not_passesForward_end {id : Int} {block : CfgBlockFacts} (hb : blocks.get? id = some block) (b : Int × Int) :
    ¬ PassesForward blocks (id, block.instructions.length) b := by
  intro h
  generalize hsource : ((id, (block.instructions.length : Int)) : Int × Int) = source at h
  cases h with
  | pass hb' hat _ =>
    obtain ⟨rfl, hposition⟩ := Prod.mk.inj hsource
    rw [hb] at hb'
    cases hb'
    have hlength := (List.getElem?_eq_some_iff.mp hat).1
    omega

theorem not_passesForward_definition {id : Int} {position : Nat} {block : CfgBlockFacts} {fact : CfgInstructionFact}
    (hb : blocks.get? id = some block) (hat : block.instructions[position]? = some fact) (hdef : fact.defines = true)
    (b : Int × Int) : ¬ PassesForward blocks (id, position) b := by
  intro h
  generalize hsource : ((id, (position : Int)) : Int × Int) = source at h
  cases h with
  | @pass _ position' _ _ hb' hat' hno =>
    obtain ⟨rfl, hposition⟩ := Prod.mk.inj hsource
    obtain rfl : position = position' := by omega
    rw [hb] at hb'
    cases hb'
    rw [hat] at hat'
    cases hat'
    rw [hdef] at hno
    cases hno

/-- A use at an existing instruction is told by its facts. -/
theorem useAt_iff (known : Bool) {id : Int} {position : Nat} {block : CfgBlockFacts} {fact : CfgInstructionFact}
    (hb : blocks.get? id = some block) (hat : block.instructions[position]? = some fact) :
    UseAt blocks known (id, position) ↔ fact.use = true ∧ fact.ea.isSome = known := by
  constructor
  · rintro ⟨block', position', fact', hb', hposition, hat', huse⟩
    rw [hb] at hb'
    cases hb'
    obtain rfl : position = position' := by dsimp only at hposition; omega
    rw [hat] at hat'
    cases hat'
    exact huse
  · exact fun huse => ⟨block, position, fact, hb, rfl, hat, huse⟩

/-- A state from which nothing is passed is quiet by itself. -/
theorem quiet_of_stuck {state : Int × Int} {unresolved : Bool} (hstuck : ∀ b, ¬ PassesForward blocks state b)
    (hknown : ¬ UseAt blocks true state) (hunknown : unresolved = true ↔ UseAt blocks false state) :
    Quiet blocks state unresolved := by
  have hself : ∀ point, ReflTransGen (PassesForward blocks) state point → point = state := by
    intro point hpoint
    rcases hpoint.cases_head with heq | ⟨_, hstep, _⟩
    · exact heq.symm
    · exact absurd hstep (hstuck _)
  refine ⟨fun point hpoint => hself point hpoint ▸ hknown, hunknown.trans ⟨fun huse => ⟨state, .refl, huse⟩, ?_⟩⟩
  rintro ⟨point, hpoint, huse⟩
  exact hself point hpoint ▸ huse

/-- A passed instruction adds what it shows itself. -/
theorem Quiet.pass {state next : Int × Int} {unresolved unresolved' : Bool} (h : Quiet blocks next unresolved')
    (hstep : PassesForward blocks state next) (hknown : ¬ UseAt blocks true state)
    (hunknown : unresolved = true ↔ UseAt blocks false state) : Quiet blocks state (unresolved || unresolved') := by
  have hsplit : ∀ point, ReflTransGen (PassesForward blocks) state point →
      point = state ∨ ReflTransGen (PassesForward blocks) next point := by
    intro point hpoint
    rcases hpoint.cases_head with heq | ⟨_, hfirst, hrest⟩
    · exact .inl heq.symm
    · exact .inr (PassesForward.unique hstep hfirst ▸ hrest)
  refine ⟨fun point hpoint => ?_, ?_⟩
  · rcases hsplit point hpoint with rfl | hpoint
    · exact hknown
    · exact h.1 point hpoint
  · rw [Bool.or_eq_true, hunknown, h.2]
    constructor
    · rintro (huse | ⟨point, hpoint, huse⟩)
      · exact ⟨state, .refl, huse⟩
      · exact ⟨point, .head hstep hpoint, huse⟩
    · rintro ⟨point, hpoint, huse⟩
      rcases hsplit point hpoint with rfl | hpoint
      · exact .inl huse
      · exact .inr ⟨point, hpoint, huse⟩

/-- What the scan from a position meets. -/
def ScanMeets (blocks : Dict Int CfgBlockFacts) (id : Int) (block : CfgBlockFacts) (position : Nat) :
    Bool × Option ForwardStop → Prop
  | (_, some (.used found _)) =>
    ReflTransGen (PassesForward blocks) (id, position) (id, found) ∧ UseAt blocks true (id, found)
  | (unresolved, some .redefined) => Quiet blocks (id, position) unresolved ∧
    ∃ found : Nat, found < block.instructions.length ∧ StopsAt (PassesForward blocks) (id, position) (id, found)
  | (unresolved, none) => Quiet blocks (id, position) unresolved ∧
    StopsAt (PassesForward blocks) (id, position) (id, block.instructions.length)

theorem ScanMeets.pass {id : Int} {block : CfgBlockFacts} {position : Nat} {unresolved unresolved' : Bool}
    {stop : Option ForwardStop} (h : ScanMeets blocks id block (position + 1) (unresolved', stop))
    (hstep : PassesForward blocks (id, position) (id, (position : Int) + 1))
    (hknown : ¬ UseAt blocks true (id, position)) (hunknown : unresolved = true ↔ UseAt blocks false (id, position)) :
    ScanMeets blocks id block position (unresolved || unresolved', stop) := by
  cases stop with
  | none => exact ⟨h.1.pass hstep hknown hunknown, .head hstep h.2.1, h.2.2⟩
  | some stop =>
    cases stop with
    | used found ea => exact ⟨.head hstep h.1, h.2⟩
    | redefined =>
      obtain ⟨hquiet, found, hfound, hwalk, hstuck⟩ := h
      exact ⟨hquiet.pass hstep hknown hunknown, found, hfound, .head hstep hwalk, hstuck⟩

theorem scanForward_meets {id : Int} {block : CfgBlockFacts} (hb : blocks.get? id = some block)
    (rest : List CfgInstructionFact) (position : Nat) (hposition : position ≤ block.instructions.length)
    (hrest : block.instructions.drop position = rest) :
    ScanMeets blocks id block position (scanForward position rest) := by
  induction rest generalizing position with
  | nil =>
    have hlength := congrArg List.length hrest
    rw [List.length_drop, List.length_nil] at hlength
    obtain rfl : position = block.instructions.length := by omega
    have hno : ∀ known, ¬ UseAt blocks known (id, block.instructions.length) := by
      rintro known ⟨block', position', fact, hb', heq, hat, _⟩
      rw [hb] at hb'
      cases hb'
      have hlength := (List.getElem?_eq_some_iff.mp hat).1
      dsimp only at heq
      omega
    exact ⟨quiet_of_stuck (not_passesForward_end hb) (hno true) (iff_of_false nofun (hno false)), .refl,
      not_passesForward_end hb⟩
  | cons fact rest ih =>
    have hat : block.instructions[position]? = some fact := by
      rw [← List.head?_drop, hrest, List.head?_cons]
    have hlength := (List.getElem?_eq_some_iff.mp hat).1
    have hnext : block.instructions.drop (position + 1) = rest := by
      rw [← List.drop_drop, hrest, List.drop_succ_cons, List.drop_zero]
    have hknown := useAt_iff true hb hat
    have hunknown := useAt_iff false hb hat
    rw [scanForward]
    split
    · rename_i ea huse hea
      exact ⟨.refl, hknown.mpr ⟨huse, by rw [hea]; rfl⟩⟩
    · rename_i hother
      have hea : fact.use = true → fact.ea = none := by
        intro huse
        cases hea : fact.ea with
        | none => rfl
        | some ea => exact absurd hea (hother ea huse)
      have hquiet : ¬ UseAt blocks true (id, position) := by
        rw [hknown]
        rintro ⟨huse, hsome⟩
        rw [hea huse] at hsome
        cases hsome
      have hflag : fact.use = true ↔ UseAt blocks false (id, position) := by
        rw [hunknown]
        exact ⟨fun huse => ⟨huse, by rw [hea huse]; rfl⟩, fun h => h.1⟩
      split
      · rename_i hdef
        have hstuck := not_passesForward_definition hb hat hdef
        exact ⟨quiet_of_stuck hstuck hquiet hflag, position, hlength, .refl, hstuck⟩
      · rename_i hdef
        exact (ih (position + 1) hlength hnext).pass (.pass hb hat (Bool.eq_false_iff.mpr hdef)) hquiet hflag

/-- What one forward scan of a state has met. -/
inductive ScansForward (blocks : Dict Int CfgBlockFacts) (state : Int × Int) : ForwardScan → Prop
  | invalid : ¬ InBlocks blocks state → ScansForward blocks state .invalid
  | used {unresolved : Bool} {position : Nat} {ea : Int} :
      ReflTransGen (PassesForward blocks) state (state.1, position) → UseAt blocks true (state.1, position) →
      ScansForward blocks state (.stopped unresolved (.used position ea))
  | redefined {unresolved : Bool} {block : CfgBlockFacts} {position : Nat} : blocks.get? state.1 = some block →
      InBlocks blocks state → Quiet blocks state unresolved → position < block.instructions.length →
      StopsAt (PassesForward blocks) state (state.1, position) →
      ScansForward blocks state (.stopped unresolved .redefined)
  | passed {unresolved : Bool} {block : CfgBlockFacts} : blocks.get? state.1 = some block → InBlocks blocks state →
      Quiet blocks state unresolved → StopsAt (PassesForward blocks) state (state.1, block.instructions.length) →
      ScansForward blocks state (.passed unresolved block.successors)

theorem scansForward (blocks : Dict Int CfgBlockFacts) (state : Int × Int) :
    ScansForward blocks state (scanForwardState blocks state) := by
  obtain ⟨id, limit⟩ := state
  rw [scanForwardState]
  cases hb : blocks.get? id with
  | none => exact .invalid (not_inBlocks hb)
  | some block =>
    dsimp only
    split
    · rename_i hbad
      refine .invalid fun hin => ?_
      obtain ⟨hlow, hhigh⟩ := (inBlocks_iff hb).mp hin
      omega
    · rename_i hgood
      have hin : InBlocks blocks (id, limit) := (inBlocks_iff hb).mpr (by omega)
      obtain ⟨n, rfl⟩ := Int.eq_ofNat_of_zero_le (show 0 ≤ limit by omega)
      rw [Int.toNat_natCast]
      have hmeets := scanForward_meets hb _ n (by omega) rfl
      generalize scanForward n (block.instructions.drop n) = scan at hmeets
      obtain ⟨unresolved, stop⟩ := scan
      cases stop with
      | none => exact .passed hb hin hmeets.1 hmeets.2
      | some stop =>
        cases stop with
        | used position ea => exact .used hmeets.1 hmeets.2
        | redefined =>
          obtain ⟨hquiet, position, hposition, hwalk⟩ := hmeets
          exact .redefined hb hin hquiet hposition hwalk

/-- The scan of a state ends at a use with a known address. -/
def StopsAtUse (blocks : Dict Int CfgBlockFacts) (state : Int × Int) : Prop :=
  ∃ unresolved position ea, scanForwardState blocks state = .stopped unresolved (.used position ea)

/-- The states gone on to are the starts of the existing successors of a passed block. -/
theorem successorStates_steps {state target : Int × Int} (h : target ∈ successorStates blocks state) :
    TransGen (ForwardStep blocks) state target ∧ ∃ id ∈ blocks.keys, target = (id, 0) := by
  rw [successorStates] at h
  have hscan := scansForward blocks state
  generalize scanForwardState blocks state = scan at h hscan
  cases hscan with
  | invalid _ => cases h
  | used _ _ => cases h
  | redefined _ _ _ _ _ => cases h
  | passed hb _ _ hwalk =>
    obtain ⟨successor, hsucc, hget⟩ := List.mem_filterMap.mp h
    obtain ⟨block', hb', rfl⟩ := Option.map_eq_some_iff.mp hget
    exact ⟨.tail' (ReflTransGen.mono (fun _ _ => .inl) _ _ hwalk.1) (.inr (.enter hb hsucc)), successor,
      (Dict.mem_keys_iff _ _).mpr ⟨block', hb'⟩, rfl⟩

/-- A point from which something is passed, or which is used, lies in its block. -/
theorem UseAt.inBlocks {known : Bool} {head point : Int × Int} (huse : UseAt blocks known point)
    (h : ReflTransGen (PassesForward blocks) head point) : InBlocks blocks head := by
  rcases h.cases_head with rfl | ⟨_, hstep, _⟩
  · obtain ⟨block, position, fact, hb, hposition, hat, _⟩ := huse
    have hlength := (List.getElem?_eq_some_iff.mp hat).1
    exact ⟨block, hb, by omega, by omega⟩
  · exact hstep.inBlocks.1

/-- Where no state stops at a use, the search jumps from the head of a segment to the heads of the next ones. -/
theorem forward_segments {start : Int × Int}
    (hunused : ∀ state, ReflTransGen (fun a b => b ∈ successorStates blocks a) start state →
      ¬ StopsAtUse blocks state) :
    Segments (PassesForward blocks) (EntersForward blocks) (fun a b => b ∈ successorStates blocks a)
      (fun point => (blocks.get? point.1).isSome) start := by
  refine ⟨PassesForward.ends, ?_, ?_⟩
  · rintro _ _ (⟨hb, _, _⟩ | ⟨hb, _⟩) <;> exact Option.isSome_of_eq_some hb
  · rintro head hreach _ _ hpass ⟨hb, hsucc⟩ hlive
    rename_i id successor block
    have hhead : head.1 = id := (PassesForward.block hpass).symm
    have hin : InBlocks blocks head := by
      rcases hpass.cases_head with rfl | ⟨_, hstep, _⟩
      · exact ⟨block, hb, Int.natCast_nonneg _, Int.le_refl _⟩
      · exact hstep.inBlocks.1
    have hstop : StopsAt (PassesForward blocks) head (id, block.instructions.length) :=
      ⟨hpass, not_passesForward_end hb⟩
    have hunused := hunused head hreach
    rw [StopsAtUse] at hunused
    rw [successorStates]
    have hscan := scansForward blocks head
    generalize scanForwardState blocks head = scan at hunused hscan
    cases hscan with
    | invalid hout => exact absurd hin hout
    | used _ _ => exact absurd ⟨_, _, _, rfl⟩ hunused
    | redefined hb' _ _ hlength hwalk =>
      rw [hhead, hb] at hb'
      cases hb'
      have hposition := (Prod.mk.inj (hstop.unique PassesForward.unique hwalk)).2
      omega
    | passed hb' _ _ _ =>
      rw [hhead, hb] at hb'
      cases hb'
      obtain ⟨target, htarget⟩ := Option.isSome_iff_exists.mp hlive
      exact List.mem_filterMap.mpr ⟨successor, hsucc, by rw [htarget]; rfl⟩

/-- A state of the search lies on a walk. -/
theorem forward_reach_of_states {start state : Int × Int}
    (h : ReflTransGen (fun a b => b ∈ successorStates blocks a) start state) :
    ReflTransGen (ForwardStep blocks) start state := by
  induction h with
  | refl => exact .refl
  | tail _ hstep ih => exact ih.trans (successorStates_steps hstep).1.to_reflTransGen

/-- The default budget covers the start of the search and the start of every block. -/
theorem searchFutureUses_done (blocks : Dict Int CfgBlockFacts) (start : Int × Int) :
    (searchFutureUses blocks start none).exhausted = false := by
  have hstarts : ∀ state, successorStates blocks state ⊆ blocks.keys.map fun id => (id, 0) := by
    intro state target htarget
    obtain ⟨_, id, hid, rfl⟩ := successorStates_steps htarget
    exact List.mem_map.mpr ⟨id, hid, rfl⟩
  refine Explore.explore_budget _ _ (start :: blocks.keys.map fun id => (id, 0)) _ _ _
    (List.mem_cons_self ..) (fun state _ target htarget => List.mem_cons_of_mem _ (hstarts state htarget)) ?_
  have hsize : blocks.keys.length = blocks.size := List.length_map _
  rw [List.length_cons, List.length_map, hsize, stateBudget, Option.getD_none]
  omega

end scan

section collected
variable {blocks : Dict Int CfgBlockFacts} {initial : Int × Int}

/-- The scan of the state met no use without an address. -/
def NoUnresolvedUse (blocks : Dict Int CfgBlockFacts) (state : Int × Int) : Prop :=
  match scanForwardState blocks state with
  | .invalid => True
  | .stopped unresolved _ => unresolved = false
  | .passed unresolved _ => unresolved = false

/-- The scan of the state does not leave the blocks. -/
def StaysInside (blocks : Dict Int CfgBlockFacts) (state : Int × Int) : Prop :=
  match scanForwardState blocks state with
  | .invalid => False
  | .stopped _ _ => True
  | .passed _ successors => ∀ id ∈ successors, (blocks.get? id).isSome

/-- The notes of some states. -/
def collectedUses (blocks : Dict Int CfgBlockFacts) (initial : Int × Int) (visited : List (Int × Int)) : UseSearch :=
  visited.foldr (fun state found => noteForward blocks initial found state) {}

theorem noteForward_unresolved (found : UseSearch) (state : Int × Int) :
    (noteForward blocks initial found state).unresolvedUse = false ↔
      NoUnresolvedUse blocks state ∧ found.unresolvedUse = false := by
  rw [noteForward, NoUnresolvedUse]
  cases scanForwardState blocks state with
  | invalid => simp
  | passed unresolved successors => simp
  | stopped unresolved stop => cases stop <;> simp

theorem noteForward_exhausted (found : UseSearch) (state : Int × Int) :
    (noteForward blocks initial found state).traversalExhausted = false ↔
      StaysInside blocks state ∧ found.traversalExhausted = false := by
  rw [noteForward, StaysInside]
  cases scanForwardState blocks state with
  | invalid => simp
  | passed unresolved successors => simp [Option.isSome_iff_ne_none, and_comm]
  | stopped unresolved stop => cases stop <;> simp

theorem noteForward_useSites (found : UseSearch) (state : Int × Int) :
    (noteForward blocks initial found state).useSites.values = [] ↔
      ¬ StopsAtUse blocks state ∧ found.useSites.values = [] := by
  rw [noteForward, StopsAtUse]
  cases scanForwardState blocks state with
  | invalid => simp
  | passed unresolved successors => simp
  | stopped unresolved stop =>
    cases stop with
    | redefined => simp
    | used position ea =>
      dsimp only
      exact iff_of_false (Dict.values_set_ne_nil _ _ _) fun h => h.1 ⟨unresolved, position, ea, rfl⟩

theorem collectedUses_unresolved (visited : List (Int × Int)) :
    (collectedUses blocks initial visited).unresolvedUse = false ↔ ∀ state ∈ visited, NoUnresolvedUse blocks state :=
  Explore.notes_forall_iff (noteForward blocks initial) (fun found => found.unresolvedUse = false) rfl
    noteForward_unresolved visited

theorem collectedUses_exhausted (visited : List (Int × Int)) :
    (collectedUses blocks initial visited).traversalExhausted = false ↔
    ∀ state ∈ visited, StaysInside blocks state :=
  Explore.notes_forall_iff (noteForward blocks initial) (fun found => found.traversalExhausted = false) rfl
    noteForward_exhausted visited

theorem collectedUses_useSites (visited : List (Int × Int)) :
    (collectedUses blocks initial visited).useSites.values = [] ↔ ∀ state ∈ visited, ¬ StopsAtUse blocks state :=
  Explore.notes_forall_iff (noteForward blocks initial) (fun found => found.useSites.values = []) rfl
    noteForward_useSites visited

end collected

section exact
variable {blocks : Dict Int CfgBlockFacts} {start : Int × Int}

/-- The search stops at a use exactly when a walk reaches one at a known address. -/
theorem stopsAtUse_iff :
    (∃ state, ReflTransGen (fun a b => b ∈ successorStates blocks a) start state ∧ StopsAtUse blocks state) ↔
      ∃ point, ReflTransGen (ForwardStep blocks) start point ∧ UseAt blocks true point := by
  constructor
  · rintro ⟨state, hstate, unresolved, position, ea, hused⟩
    have hscan := scansForward blocks state
    rw [hused] at hscan
    cases hscan with
    | used hwalk huse =>
      exact ⟨_, (forward_reach_of_states hstate).trans (ReflTransGen.mono (fun _ _ => .inl) _ _ hwalk), huse⟩
  · rintro ⟨point, hpoint, huse⟩
    by_contra hnone
    have hunused : ∀ state, ReflTransGen (fun a b => b ∈ successorStates blocks a) start state →
        ¬ StopsAtUse blocks state := fun state hstate hstop => hnone ⟨state, hstate, hstop⟩
    obtain ⟨block, _, _, hb, _⟩ := id huse
    obtain ⟨head, hhead, hpass⟩ := (forward_segments hunused).reach hpoint (Option.isSome_of_eq_some hb)
    have hin := huse.inBlocks hpass
    have hnotused := hunused head hhead
    rw [StopsAtUse] at hnotused
    have hscan := scansForward blocks head
    generalize scanForwardState blocks head = scan at hnotused hscan
    cases hscan with
    | invalid hout => exact hout hin
    | used _ _ => exact hnotused ⟨_, _, _, rfl⟩
    | redefined _ _ hquiet _ _ => exact hquiet.1 point hpass huse
    | passed _ _ hquiet _ => exact hquiet.1 point hpass huse

/-- The search finds nothing that could keep the value alive. -/
structure FoundDead (blocks : Dict Int CfgBlockFacts) (start : Int × Int) : Prop where
  unused : ∀ state, ReflTransGen (fun a b => b ∈ successorStates blocks a) start state → ¬ StopsAtUse blocks state
  resolved : ∀ state, ReflTransGen (fun a b => b ∈ successorStates blocks a) start state → NoUnresolvedUse blocks state
  inside : ∀ state, ReflTransGen (fun a b => b ∈ successorStates blocks a) start state → StaysInside blocks state
  ends : Ends (fun a b => b ∈ successorStates blocks a) start

/-- No use is reached, every forward walk is finite and none leaves the blocks. -/
structure Dead (blocks : Dict Int CfgBlockFacts) (start : Int × Int) : Prop where
  unused : ∀ point, ReflTransGen (ForwardStep blocks) start point → ∀ known, ¬ UseAt blocks known point
  finite : ¬ InfiniteWalk (ForwardStep blocks) start
  inside : ∀ point, ReflTransGen (ForwardStep blocks) start point → InBlocks blocks point

theorem FoundDead.dead (h : FoundDead blocks start) : Dead blocks start := by
  have hseg := forward_segments h.unused
  have hinside : ∀ point, ReflTransGen (ForwardStep blocks) start point → InBlocks blocks point := by
    intro point hreach
    induction hreach with
    | refl =>
      have hstays := h.inside start .refl
      have hunused := h.unused start .refl
      rw [StaysInside] at hstays
      rw [StopsAtUse] at hunused
      have hscan := scansForward blocks start
      generalize scanForwardState blocks start = scan at hstays hunused hscan
      cases hscan with
      | invalid _ => exact hstays.elim
      | used _ _ => exact absurd ⟨_, _, _, rfl⟩ hunused
      | redefined _ hin _ _ _ => exact hin
      | passed _ hin _ _ => exact hin
    | @tail point next hreach hstep ih =>
      rcases hstep with hstep | hstep
      · exact hstep.inBlocks.2
      · obtain ⟨head, hhead, hpass⟩ := hseg.reach hreach (hseg.source _ _ (.inr hstep))
        have hstays := h.inside head hhead
        have hunused := h.unused head hhead
        rw [StaysInside] at hstays
        rw [StopsAtUse] at hunused
        have hscan := scansForward blocks head
        generalize scanForwardState blocks head = scan at hstays hunused hscan
        cases hstep with
        | @enter id successor block hb hsucc =>
          have hblock : id = head.1 := PassesForward.block hpass
          have hstop : StopsAt (PassesForward blocks) head (id, block.instructions.length) :=
            ⟨hpass, not_passesForward_end hb⟩
          cases hscan with
          | invalid _ => exact hstays.elim
          | used _ _ => exact absurd ⟨_, _, _, rfl⟩ hunused
          | redefined hb' _ _ hlength hwalk =>
            rw [← hblock, hb] at hb'
            cases hb'
            have hposition := (Prod.mk.inj (hstop.unique PassesForward.unique hwalk)).2
            omega
          | passed hb' _ _ _ =>
            rw [← hblock, hb] at hb'
            cases hb'
            obtain ⟨target, htarget⟩ := Option.isSome_iff_exists.mp (hstays successor hsucc)
            exact ⟨target, htarget, Int.le_refl 0, Int.natCast_nonneg _⟩
  refine ⟨fun point hpoint known huse => ?_, not_infiniteWalk_iff.mpr (hseg.ends_step h.ends), hinside⟩
  obtain ⟨block, hb, _⟩ := hinside point hpoint
  obtain ⟨head, hhead, hpass⟩ := hseg.reach hpoint (Option.isSome_of_eq_some hb)
  have hin := huse.inBlocks hpass
  have hunused := h.unused head hhead
  have hresolved := h.resolved head hhead
  rw [StopsAtUse] at hunused
  rw [NoUnresolvedUse] at hresolved
  have hscan := scansForward blocks head
  generalize scanForwardState blocks head = scan at hunused hresolved hscan
  have hquiet : ¬ Quiet blocks head false := by
    intro hquiet
    cases known with
    | true => exact hquiet.1 point hpass huse
    | false => exact absurd (hquiet.2.mpr ⟨point, hpass, huse⟩) nofun
  cases hscan with
  | invalid hout => exact hout hin
  | used _ _ => exact hunused ⟨_, _, _, rfl⟩
  | redefined _ _ hq _ _ => exact hquiet (hresolved ▸ hq)
  | passed _ _ hq _ => exact hquiet (hresolved ▸ hq)

theorem Dead.found (h : Dead blocks start) : FoundDead blocks start := by
  have hends := not_infiniteWalk_iff.mp h.finite
  have hunused : ∀ state, ReflTransGen (fun a b => b ∈ successorStates blocks a) start state →
      ¬ StopsAtUse blocks state := by
    intro state hstate hstop
    obtain ⟨point, hpoint, huse⟩ := stopsAtUse_iff.mp ⟨state, hstate, hstop⟩
    exact h.unused point hpoint true huse
  have hflag : ∀ state, ReflTransGen (ForwardStep blocks) start state → ∀ unresolved, Quiet blocks state unresolved →
      unresolved = false := by
    intro state hstate unresolved hquiet
    by_contra hset
    obtain ⟨point, hpoint, huse⟩ := hquiet.2.mp (by simpa using hset)
    exact h.unused point (hstate.trans (ReflTransGen.mono (fun _ _ => .inl) _ _ hpoint)) false huse
  refine ⟨hunused, fun state hstate => ?_, fun state hstate => ?_, hends.of_steps fun _ _ hab =>
    (successorStates_steps hab).1⟩
  · have hreach := forward_reach_of_states hstate
    have hnotused := hunused state hstate
    rw [StopsAtUse] at hnotused
    rw [NoUnresolvedUse]
    have hscan := scansForward blocks state
    generalize scanForwardState blocks state = scan at hnotused hscan
    cases hscan with
    | invalid _ => trivial
    | used _ _ => exact absurd ⟨_, _, _, rfl⟩ hnotused
    | redefined _ _ hquiet _ _ => exact hflag state hreach _ hquiet
    | passed _ _ hquiet _ => exact hflag state hreach _ hquiet
  · have hreach := forward_reach_of_states hstate
    rw [StaysInside]
    have hscan := scansForward blocks state
    generalize scanForwardState blocks state = scan at hscan
    cases hscan with
    | invalid hout => exact hout (h.inside state hreach)
    | used _ _ => trivial
    | redefined _ _ _ _ _ => trivial
    | passed hb _ _ hwalk =>
      intro successor hsucc
      have hlast := hreach.trans (ReflTransGen.mono (fun _ _ => .inl) _ _ hwalk.1)
      obtain ⟨target, htarget, _⟩ := h.inside _ (hlast.tail (.inr (.enter hb hsucc)))
      exact Option.isSome_of_eq_some htarget

theorem futureUseRejectionReason_notLive_iff (result : FutureUseResult) :
    futureUseRejectionReason result = some reasonNotLive ↔ result.hasUse = false ∧ result.unresolvedUse = false ∧
      result.loopDetected = false ∧ result.traversalExhausted = false := by
  rw [futureUseRejectionReason]
  have hother : reasonCrossBlockLivenessUnproven ≠ reasonNotLive := by decide
  cases result.hasUse with
  | true => simp
  | false =>
    cases result.unresolvedUse <;> cases result.loopDetected <;> cases result.traversalExhausted <;> simp [hother]

/-- What the whole search has noted. -/
theorem searchFutureUses_acc (blocks : Dict Int CfgBlockFacts) (start : Int × Int) :
    (searchFutureUses blocks start none).acc =
      collectedUses blocks start (searchFutureUses blocks start none).visited :=
  Explore.explore_acc _ _ _ start _

/-- The result lists no use exactly when no scan ends at one. -/
theorem hasUse_eq_false_iff (blocks : Dict Int CfgBlockFacts) (start : Int × Int) :
    (findFutureUses blocks start.1 start.2).hasUse = false ↔
      ∀ state, ReflTransGen (fun a b => b ∈ successorStates blocks a) start state → ¬ StopsAtUse blocks state := by
  have hvisited := Explore.explore_visited_iff _ _ _ start _ (searchFutureUses_done blocks start)
  have hempty : (findFutureUses blocks start.1 start.2).hasUse = false ↔
      (searchFutureUses blocks start none).acc.useSites.values = [] := by
    rw [FutureUseResult.hasUse, Bool.not_eq_false', List.isEmpty_iff]
    constructor
    · intro hnil
      have hperm := List.mergeSort_perm (searchFutureUses blocks start none).acc.useSites.values siteOrder
      exact List.nil_perm.mp (hnil ▸ hperm)
    · intro hnil
      change (searchFutureUses blocks start none).acc.useSites.values.mergeSort siteOrder = []
      rw [hnil, List.mergeSort_nil]
  rw [hempty, searchFutureUses_acc, collectedUses_useSites]
  exact forall_congr' fun state => imp_congr_left (hvisited state)

/-- The result shows nothing that keeps the value alive exactly when no scan does and the search ends. -/
theorem foundDead_iff (blocks : Dict Int CfgBlockFacts) (start : Int × Int) :
    let result := findFutureUses blocks start.1 start.2
    (result.hasUse = false ∧ result.unresolvedUse = false ∧ result.loopDetected = false ∧
      result.traversalExhausted = false) ↔ FoundDead blocks start := by
  intro result
  have hdone := searchFutureUses_done blocks start
  have hvisited := Explore.explore_visited_iff _ _ _ start _ hdone
  have hloop := explored_acyclic_iff _ _ _ start _ hdone
  have hunresolved : result.unresolvedUse = false ↔
      ∀ state, ReflTransGen (fun a b => b ∈ successorStates blocks a) start state → NoUnresolvedUse blocks state := by
    change (searchFutureUses blocks start none).acc.unresolvedUse = false ↔ _
    rw [searchFutureUses_acc, collectedUses_unresolved]
    exact forall_congr' fun state => imp_congr_left (hvisited state)
  have hexhausted : result.traversalExhausted = false ↔
      ∀ state, ReflTransGen (fun a b => b ∈ successorStates blocks a) start state → StaysInside blocks state := by
    change ((searchFutureUses blocks start none).acc.traversalExhausted ||
      (searchFutureUses blocks start none).exhausted) = false ↔ _
    rw [hdone, Bool.or_false, searchFutureUses_acc, collectedUses_exhausted]
    exact forall_congr' fun state => imp_congr_left (hvisited state)
  rw [hasUse_eq_false_iff, hunresolved, hexhausted]
  constructor
  · rintro ⟨hunused, hresolved, hacyclic, hinside⟩
    exact ⟨hunused, hresolved, hinside, hloop.mp hacyclic⟩
  · rintro ⟨hunused, hresolved, hinside, hends⟩
    exact ⟨hunused, hresolved, hloop.mpr hends, hinside⟩

/-- With its default budget the analysis finds a use exactly when a forward walk reaches one at a known address, calls
the value dead exactly when no walk reaches any use, goes on forever or leaves the blocks, and never runs out of
budget. -/
theorem future_use_exact (blocks : Dict Int CfgBlockFacts) (currentBlockId currentInstruction : Int) :
    let start := (currentBlockId, currentInstruction)
    let result := findFutureUses blocks currentBlockId currentInstruction
    (result.hasUse = true ↔ ∃ point, ReflTransGen (ForwardStep blocks) start point ∧ UseAt blocks true point) ∧
    (futureUseRejectionReason result = some reasonNotLive ↔ Dead blocks start) ∧
    (searchFutureUses blocks start none).exhausted = false := by
  intro start result
  refine ⟨?_, ?_, searchFutureUses_done blocks start⟩
  · have huses : result.hasUse = false ↔ _ := hasUse_eq_false_iff blocks start
    rw [← stopsAtUse_iff, ← Bool.not_eq_false, huses]
    push Not
    rfl
  · rw [futureUseRejectionReason_notLive_iff]
    exact (foundDead_iff blocks start).trans ⟨FoundDead.dead, Dead.found⟩

end exact
end DynvarSync.Ida
