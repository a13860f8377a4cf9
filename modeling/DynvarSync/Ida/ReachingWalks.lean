import DynvarSync.Ida.ReachingDefinitions

/-! Backward walks of a microcode graph, and the search for reaching definitions
against all of them. -/
namespace DynvarSync.Ida
open Lib Relation Walks

section walks
variable (blocks : Dict Int CfgBlockFacts)

/-- The end of a block; a missing block has no instructions. -/
def endOf (id : Int) : Int := ((blocks.get? id).map fun block => (block.instructions.length : Int)).getD 0

/-- A backward walk passes an instruction that is no definition. -/
inductive PassesBack : Int × Int → Int × Int → Prop
  | pass {id : Int} {position : Nat} {block : CfgBlockFacts} {fact : CfgInstructionFact} :
      blocks.get? id = some block → block.instructions[position]? = some fact → fact.defines = false →
      PassesBack (id, (position : Int) + 1) (id, position)

/-- A backward walk continues at the end of any predecessor. -/
inductive EntersBack : Int × Int → Int × Int → Prop
  | enter {id predecessor : Int} {block : CfgBlockFacts} : blocks.get? id = some block →
      predecessor ∈ block.predecessors → EntersBack (id, 0) (predecessor, endOf blocks predecessor)

/-- One step of a backward walk, a walk being cut at the first definition. -/
def BackStep (a b : Int × Int) : Prop := PassesBack blocks a b ∨ EntersBack blocks a b

/-- A point between two instructions of an existing block, or at one of its ends. -/
def InBlocks (point : Int × Int) : Prop :=
  ∃ block, blocks.get? point.1 = some block ∧ 0 ≤ point.2 ∧ point.2 ≤ block.instructions.length

/-- The point just after a whole and not overlapping definition at the site. -/
def CutAt (site : DefinitionSite) (point : Int × Int) : Prop :=
  ∃ block fact, blocks.get? point.1 = some block ∧ block.instructions[site.instructionIndex]? = some fact ∧
    point.2 = site.instructionIndex + 1 ∧ fact.wholeDefinition = true ∧ fact.overlappingDefinition = false ∧
    site = { blockId := point.1, instructionIndex := site.instructionIndex, ea := fact.ea }

/-- Every backward walk is finite, stays inside the blocks and is cut at the one site. -/
structure ProvenDefinition (start : Int × Int) (site : DefinitionSite) : Prop where
  finite : ¬ InfiniteWalk (BackStep blocks) start
  inside : ∀ point, ReflTransGen (BackStep blocks) start point → InBlocks blocks point
  cut : ∀ point, StopsAt (BackStep blocks) start point → CutAt blocks site point

end walks

section scan
variable {blocks : Dict Int CfgBlockFacts}

theorem PassesBack.unique : Relator.RightUnique (PassesBack blocks) := by
  rintro _ _ _ ⟨_, _, _⟩ h
  generalize hsource : ((_, _) : Int × Int) = source at h
  cases h with
  | pass _ _ _ =>
    obtain ⟨rfl, hposition⟩ := Prod.mk.inj hsource
    exact Prod.ext rfl (by omega)

theorem PassesBack.lower {a b : Int × Int} (h : PassesBack blocks a b) : b.1 = a.1 ∧ b.2 + 1 = a.2 ∧ 0 ≤ b.2 := by
  cases h with
  | pass _ _ _ => exact ⟨rfl, rfl, Int.natCast_nonneg _⟩

theorem PassesBack.ends (a : Int × Int) : Ends (PassesBack blocks) a := by
  have hwf : WellFounded (fun x y : Int × Int => PassesBack blocks y x) :=
    Subrelation.wf (fun {x y} h => by
      obtain ⟨_, hlower, hnonneg⟩ := PassesBack.lower h
      change x.2.toNat < y.2.toNat
      omega) (measure fun point : Int × Int => point.2.toNat).wf
  exact hwf.apply a

/-- A limit at the start of its block, or just after a definition, is as far as the scan goes. -/
theorem not_passesBack_start (id : Int) (b : Int × Int) : ¬ PassesBack blocks (id, 0) b := by
  intro h
  obtain ⟨_, hlower, hnonneg⟩ := h.lower
  change b.2 + 1 = 0 at hlower
  omega

theorem not_passesBack_definition {id : Int} {position : Nat} {block : CfgBlockFacts} {fact : CfgInstructionFact}
    (hb : blocks.get? id = some block) (hat : block.instructions[position]? = some fact) (hdef : fact.defines = true)
    (b : Int × Int) : ¬ PassesBack blocks (id, (position : Int) + 1) b := by
  intro h
  generalize hsource : ((id, (position : Int) + 1) : Int × Int) = source at h
  cases h with
  | @pass _ position' block' fact' hb' hat' hno =>
    obtain ⟨rfl, hposition⟩ := Prod.mk.inj hsource
    obtain rfl : position = position' := by omega
    rw [hb] at hb'
    cases hb'
    rw [hat] at hat'
    cases hat'
    rw [hdef] at hno
    cases hno

/-- The scan below a limit passes every instruction, or stops after the nearest definition. -/
theorem lastDefinition_walk {id : Int} {block : CfgBlockFacts} (hb : blocks.get? id = some block) (limit : Nat)
    (hlimit : limit ≤ block.instructions.length) :
    (lastDefinition block.instructions limit = none ∧ StopsAt (PassesBack blocks) (id, limit) (id, 0)) ∨
      ∃ position fact, lastDefinition block.instructions limit = some (position, fact) ∧
        block.instructions[position]? = some fact ∧ fact.defines = true ∧
        StopsAt (PassesBack blocks) (id, limit) (id, (position : Int) + 1) := by
  induction limit with
  | zero => exact .inl ⟨rfl, .refl, not_passesBack_start id⟩
  | succ position ih =>
    obtain ⟨fact, hat⟩ : ∃ fact, block.instructions[position]? = some fact := ⟨_, List.getElem?_eq_getElem hlimit⟩
    rw [lastDefinition, hat]
    dsimp only
    by_cases hdef : fact.defines = true
    · rw [if_pos hdef]
      exact .inr ⟨position, fact, rfl, hat, hdef, .refl, not_passesBack_definition hb hat hdef⟩
    · rw [if_neg hdef]
      have hstep : PassesBack blocks (id, ((position + 1 : Nat) : Int)) (id, position) :=
        .pass hb hat (Bool.eq_false_iff.mpr hdef)
      rcases ih (Nat.le_of_succ_le hlimit) with ⟨hnone, hwalk, hstuck⟩ | ⟨found, fact', hsome, hat', hdef',
        hwalk, hstuck⟩
      · exact .inl ⟨hnone, .head hstep hwalk, hstuck⟩
      · exact .inr ⟨found, fact', hsome, hat', hdef', .head hstep hwalk, hstuck⟩

/-- What one scan of a state has met. -/
inductive ScansBack (blocks : Dict Int CfgBlockFacts) (state : Int × Int) : BackwardScan → Prop
  | invalid : ¬ InBlocks blocks state → ScansBack blocks state .invalid
  | defined {block : CfgBlockFacts} {position : Nat} {fact : CfgInstructionFact} : blocks.get? state.1 = some block →
      InBlocks blocks state → block.instructions[position]? = some fact → fact.defines = true →
      StopsAt (PassesBack blocks) state (state.1, (position : Int) + 1) →
      ScansBack blocks state (.defined position fact)
  | passed {block : CfgBlockFacts} : blocks.get? state.1 = some block → InBlocks blocks state →
      StopsAt (PassesBack blocks) state (state.1, 0) → ScansBack blocks state (.passed block.predecessors)

theorem not_inBlocks {id limit : Int} (hb : blocks.get? id = none) : ¬ InBlocks blocks (id, limit) := by
  rintro ⟨block, hblock, _⟩
  rw [hb] at hblock
  cases hblock

theorem inBlocks_iff {id limit : Int} {block : CfgBlockFacts} (hb : blocks.get? id = some block) :
    InBlocks blocks (id, limit) ↔ 0 ≤ limit ∧ limit ≤ block.instructions.length := by
  constructor
  · rintro ⟨block', hblock, hrange⟩
    rw [hb] at hblock
    cases hblock
    exact hrange
  · exact fun hrange => ⟨block, hb, hrange⟩

theorem scansBack (blocks : Dict Int CfgBlockFacts) (state : Int × Int) :
    ScansBack blocks state (scanBackward blocks state) := by
  obtain ⟨id, limit⟩ := state
  rw [scanBackward]
  cases hb : blocks.get? id with
  | none => exact .invalid (not_inBlocks hb)
  | some block =>
    dsimp only
    split
    · rename_i hbad
      refine .invalid fun hin => ?_
      obtain ⟨hlow, hhigh⟩ := (inBlocks_iff hb).mp hin
      omega
    · rename_i hgood
      have hin : InBlocks blocks (id, limit) := (inBlocks_iff hb).mpr (by omega)
      obtain ⟨n, rfl⟩ := Int.eq_ofNat_of_zero_le (show 0 ≤ limit by omega)
      rw [Int.toNat_natCast]
      rcases lastDefinition_walk hb n (by omega) with ⟨hnone, hwalk⟩ | ⟨position, fact, hsome, hat, hdef, hwalk⟩
      · rw [hnone]
        exact .passed hb hin hwalk
      · rw [hsome]
        exact .defined hb hin hat hdef hwalk

/-- The states gone on to are the ends of the existing predecessors of a passed block. -/
theorem mem_previousStates {state target : Int × Int} (h : target ∈ previousStates blocks state) :
    StopsAt (PassesBack blocks) state (state.1, 0) ∧ EntersBack blocks (state.1, 0) target := by
  rw [previousStates] at h
  have hscan := scansBack blocks state
  generalize scanBackward blocks state = scan at h hscan
  cases hscan with
  | invalid _ => cases h
  | defined _ _ _ _ _ => cases h
  | passed hb _ hwalk =>
    obtain ⟨predecessor, hpred, hget⟩ := List.mem_filterMap.mp h
    obtain ⟨block', hb', rfl⟩ := Option.map_eq_some_iff.mp hget
    have hend : endOf blocks predecessor = block'.instructions.length := by rw [endOf, hb']; rfl
    exact ⟨hwalk, hend ▸ .enter hb hpred⟩

theorem PassesBack.inBlocks {a b : Int × Int} (h : PassesBack blocks a b) : InBlocks blocks a ∧ InBlocks blocks b := by
  cases h with
  | pass hb hat _ =>
    have hlength := (List.getElem?_eq_some_iff.mp hat).1
    exact ⟨⟨_, hb, by dsimp only; omega, by dsimp only; omega⟩, ⟨_, hb, by dsimp only; omega, by dsimp only; omega⟩⟩

theorem PassesBack.block {a b : Int × Int} (h : ReflTransGen (PassesBack blocks) a b) : b.1 = a.1 := by
  induction h with
  | refl => rfl
  | tail _ hstep ih => exact hstep.lower.1.trans ih

/-- The search jumps from the head of a segment to the heads of the next ones. -/
theorem backward_segments (blocks : Dict Int CfgBlockFacts) (start : Int × Int) :
    Segments (PassesBack blocks) (EntersBack blocks) (fun a b => b ∈ previousStates blocks a)
      (fun point => (blocks.get? point.1).isSome) start := by
  refine ⟨PassesBack.ends, ?_, ?_⟩
  · rintro _ _ (⟨hb, _, _⟩ | ⟨hb, _⟩) <;> exact Option.isSome_of_eq_some hb
  · rintro head _ _ _ hpass ⟨hb, hpred⟩ hlive
    rename_i id predecessor block
    have hhead : head.1 = id := (PassesBack.block hpass).symm
    have hin : InBlocks blocks head := by
      rcases hpass.cases_head with rfl | ⟨_, hstep, _⟩
      · exact ⟨block, hb, Int.le_refl 0, Int.natCast_nonneg _⟩
      · exact hstep.inBlocks.1
    have hstop : StopsAt (PassesBack blocks) head (id, 0) := ⟨hpass, not_passesBack_start id⟩
    rw [previousStates]
    have hscan := scansBack blocks head
    generalize scanBackward blocks head = scan at hscan
    cases hscan with
    | invalid hout => exact absurd hin hout
    | defined _ _ _ _ hwalk =>
      have hposition := (Prod.mk.inj (hstop.unique PassesBack.unique hwalk)).2
      omega
    | passed hb' _ _ =>
      rw [hhead, hb] at hb'
      cases hb'
      obtain ⟨target, htarget⟩ := Option.isSome_iff_exists.mp hlive
      exact List.mem_filterMap.mpr ⟨predecessor, hpred, by rw [endOf, htarget]; rfl⟩

theorem previousStates_steps {state target : Int × Int} (h : target ∈ previousStates blocks state) :
    TransGen (BackStep blocks) state target := by
  obtain ⟨⟨hpass, _⟩, henter⟩ := mem_previousStates h
  exact .tail' (ReflTransGen.mono (fun _ _ => .inl) _ _ hpass) (.inr henter)

/-- The default budget covers the start and the end of every block. -/
theorem searchDefinitions_done (blocks : Dict Int CfgBlockFacts) (start : Int × Int) :
    (searchDefinitions blocks start none).exhausted = false := by
  have hends : ∀ state, previousStates blocks state ⊆ blocks.keys.map fun id => (id, endOf blocks id) := by
    intro state target htarget
    cases hsome : blocks.get? target.1 with
    | none =>
      rw [previousStates] at htarget
      split at htarget
      · obtain ⟨id, _, hget⟩ := List.mem_filterMap.mp htarget
        obtain ⟨block, hb, rfl⟩ := Option.map_eq_some_iff.mp hget
        rw [hb] at hsome
        cases hsome
      · cases htarget
    | some block =>
      obtain ⟨_, henter⟩ := mem_previousStates htarget
      cases henter with
      | enter _ _ => exact List.mem_map.mpr ⟨_, (Dict.mem_keys_iff _ _).mpr ⟨block, hsome⟩, rfl⟩
  refine Explore.explore_budget _ _ (start :: blocks.keys.map fun id => (id, endOf blocks id)) _ _ _
    (List.mem_cons_self ..) (fun state _ target htarget => List.mem_cons_of_mem _ (hends state htarget)) ?_
  have hsize : blocks.keys.length = blocks.size := List.length_map _
  rw [List.length_cons, List.length_map, hsize, stateBudget, Option.getD_none]
  omega

end scan

section collected
variable {blocks : Dict Int CfgBlockFacts}

/-- What the notes of some states add up to. -/
def collected (blocks : Dict Int CfgBlockFacts) (visited : List (Int × Int)) : DefinitionSearch :=
  visited.foldr (fun state found => noteBackward blocks found state) {}

/-- The whole definition at which the scan of a state stops. -/
def siteOf (blocks : Dict Int CfgBlockFacts) (state : Int × Int) : Option DefinitionSite :=
  match scanBackward blocks state with
  | .defined position fact =>
    if fact.wholeDefinition then some { blockId := state.1, instructionIndex := position, ea := fact.ea } else none
  | _ => none

/-- The scan of the state does not leave a path unresolved. -/
def Resolved (blocks : Dict Int CfgBlockFacts) (state : Int × Int) : Prop :=
  match scanBackward blocks state with
  | .invalid => False
  | .defined _ _ => True
  | .passed predecessors => predecessors ≠ [] ∧ ∀ id ∈ predecessors, (blocks.get? id).isSome

/-- A definition that stops the scan of the state is whole and does not overlap. -/
def CleanDefinition (blocks : Dict Int CfgBlockFacts) (state : Int × Int) : Prop :=
  ∀ position fact, scanBackward blocks state = .defined position fact →
    fact.wholeDefinition = true ∧ fact.overlappingDefinition = false

theorem noteBackward_unresolved (found : DefinitionSearch) (state : Int × Int) :
    (noteBackward blocks found state).unresolvedPath = false ↔ Resolved blocks state ∧
    found.unresolvedPath = false := by
  rw [noteBackward, Resolved]
  cases scanBackward blocks state with
  | invalid => simp
  | defined position fact =>
    dsimp only
    split <;> simp
  | passed predecessors =>
    dsimp only
    split
    · rename_i hbad
      exact iff_of_false (by simp) fun h => Explore.targets_exist_iff.mpr h.1 hbad
    · rename_i hgood
      have hresolved := Explore.targets_exist_iff.mp hgood
      exact ⟨fun h => ⟨hresolved, h⟩, fun h => h.2⟩

theorem noteBackward_overlapping (found : DefinitionSearch) (state : Int × Int) :
    (noteBackward blocks found state).overlappingDefinition = false ↔
      CleanDefinition blocks state ∧ found.overlappingDefinition = false := by
  rw [noteBackward, CleanDefinition]
  cases scanBackward blocks state with
  | invalid => simp
  | passed predecessors =>
    dsimp only
    split <;> simp
  | defined position fact =>
    dsimp only
    split
    · rename_i hwhole
      simp [hwhole, and_comm]
    · rename_i hnotwhole
      simp [hnotwhole]

theorem collected_unresolved (visited : List (Int × Int)) :
    (collected blocks visited).unresolvedPath = false ↔ ∀ state ∈ visited, Resolved blocks state :=
  Explore.notes_forall_iff (noteBackward blocks) (fun found => found.unresolvedPath = false) rfl
    noteBackward_unresolved visited

theorem collected_overlapping (visited : List (Int × Int)) :
    (collected blocks visited).overlappingDefinition = false ↔ ∀ state ∈ visited, CleanDefinition blocks state :=
  Explore.notes_forall_iff (noteBackward blocks) (fun found => found.overlappingDefinition = false) rfl
    noteBackward_overlapping visited

/-- A note records at most the state's own site, under its block and position. -/
theorem noteBackward_definitions (found : DefinitionSearch) (state : Int × Int) :
    (noteBackward blocks found state).definitions =
      match siteOf blocks state with
      | some site => found.definitions.set (site.blockId, site.instructionIndex) site
      | none => found.definitions := by
  rw [noteBackward, siteOf]
  cases scanBackward blocks state with
  | invalid => rfl
  | passed predecessors =>
    dsimp only
    split <;> rfl
  | defined position fact =>
    dsimp only
    split <;> rfl

/-- The block and the position of a site tell which site it is. -/
theorem siteOf_unique {state other : Int × Int} {site site' : DefinitionSite} (h : siteOf blocks state = some site)
    (h' : siteOf blocks other = some site')
    (hkey : (site.blockId, site.instructionIndex) = (site'.blockId, site'.instructionIndex)) : site = site' := by
  have hplace : ∀ {state : Int × Int} {site : DefinitionSite}, siteOf blocks state = some site →
      ∃ block fact, blocks.get? site.blockId = some block ∧ block.instructions[site.instructionIndex]? = some fact ∧
        site = { blockId := site.blockId, instructionIndex := site.instructionIndex, ea := fact.ea } := by
    intro state site h
    rw [siteOf] at h
    have hscan := scansBack blocks state
    generalize scanBackward blocks state = scan at h hscan
    cases hscan with
    | invalid _ => cases h
    | passed _ _ _ => cases h
    | defined hb _ hat _ _ =>
      dsimp only at h
      split at h
      · cases h
        exact ⟨_, _, hb, hat, rfl⟩
      · cases h
  obtain ⟨block, fact, hb, hat, hsite⟩ := hplace h
  obtain ⟨block', fact', hb', hat', hsite'⟩ := hplace h'
  obtain ⟨hid, hindex⟩ := Prod.mk.inj hkey
  rw [hid, hb'] at hb
  cases hb
  rw [hindex, hat'] at hat
  cases hat
  rw [hsite, hsite', hid, hindex]

theorem collected_definitions (visited : List (Int × Int)) (key : Int × Nat) (site : DefinitionSite) :
    (collected blocks visited).definitions.get? key = some site ↔
      key = (site.blockId, site.instructionIndex) ∧ ∃ state ∈ visited, siteOf blocks state = some site := by
  induction visited with
  | nil =>
    refine iff_of_false nofun ?_
    rintro ⟨_, _, h, _⟩
    cases h
  | cons state visited ih =>
    rw [collected, List.foldr_cons, noteBackward_definitions, List.exists_mem_cons_iff]
    change (match siteOf blocks state with
      | some site => (collected blocks visited).definitions.set (site.blockId, site.instructionIndex) site
      | none => (collected blocks visited).definitions).get? key = some site ↔ _
    cases hsite : siteOf blocks state with
    | none => simpa using ih
    | some first =>
      dsimp only
      rw [Dict.get?_set]
      by_cases hkey : key = (first.blockId, first.instructionIndex)
      · rw [if_pos hkey, Option.some_inj]
        constructor
        · rintro rfl
          exact ⟨hkey, .inl rfl⟩
        · rintro ⟨hsame, hfirst | ⟨other, _, hother⟩⟩
          · exact hfirst
          · exact siteOf_unique hsite hother (hkey.symm.trans hsame)
      · rw [if_neg hkey, ih]
        refine and_congr_right fun hsame => (or_iff_right fun hfirst => ?_).symm
        cases hfirst
        exact hkey hsame

/-- One site is collected exactly when the scans of the states stop nowhere else. -/
theorem collected_values_iff (visited : List (Int × Int)) (site : DefinitionSite) :
    (collected blocks visited).definitions.values = [site] ↔
      (∃ state ∈ visited, siteOf blocks state = some site) ∧
        ∀ state ∈ visited, ∀ other, siteOf blocks state = some other → other = site := by
  rw [Dict.values_eq_singleton_iff]
  constructor
  · rintro ⟨key, h⟩
    obtain ⟨_, hfound⟩ := (collected_definitions visited key site).mp ((h key site).mpr ⟨rfl, rfl⟩)
    exact ⟨hfound, fun state hstate other hother =>
      ((h _ other).mp ((collected_definitions visited _ other).mpr ⟨rfl, state, hstate, hother⟩)).2⟩
  · rintro ⟨hfound, honly⟩
    refine ⟨(site.blockId, site.instructionIndex), fun key other => ?_⟩
    rw [collected_definitions]
    constructor
    · rintro ⟨hkey, state, hstate, hother⟩
      obtain rfl := honly state hstate other hother
      exact ⟨hkey, rfl⟩
    · rintro ⟨hkey, rfl⟩
      exact ⟨hkey, hfound⟩

end collected

section accepted
variable {blocks : Dict Int CfgBlockFacts} {start : Int × Int} {site : DefinitionSite}

/-- The states of a search leave no path unresolved and all stop at the one site. -/
structure Accepted (blocks : Dict Int CfgBlockFacts) (start : Int × Int) (site : DefinitionSite) : Prop where
  ends : Ends (fun a b => b ∈ previousStates blocks a) start
  resolved : ∀ state, ReflTransGen (fun a b => b ∈ previousStates blocks a) start state → Resolved blocks state
  clean : ∀ state, ReflTransGen (fun a b => b ∈ previousStates blocks a) start state → CleanDefinition blocks state
  only : ∀ state, ReflTransGen (fun a b => b ∈ previousStates blocks a) start state →
    ∀ other, siteOf blocks state = some other → other = site
  found : ∃ state, ReflTransGen (fun a b => b ∈ previousStates blocks a) start state ∧ siteOf blocks state = some site

/-- A backward walk cannot go on from the point just after a definition. -/
theorem not_backStep_definition {id : Int} {position : Nat} {block : CfgBlockFacts} {fact : CfgInstructionFact}
    (hb : blocks.get? id = some block) (hat : block.instructions[position]? = some fact) (hdef : fact.defines = true)
    (b : Int × Int) : ¬ BackStep blocks (id, (position : Int) + 1) b := by
  rintro (h | h)
  · exact not_passesBack_definition hb hat hdef b h
  · generalize hsource : ((id, (position : Int) + 1) : Int × Int) = source at h
    cases h with
    | enter _ _ =>
      have hzero := (Prod.mk.inj hsource).2
      omega

/-- A walk that stops is cut at the site of the state in whose segment it stops. -/
theorem Accepted.cut (h : Accepted blocks start site) {head point : Int × Int}
    (hhead : ReflTransGen (fun a b => b ∈ previousStates blocks a) start head)
    (hpass : ReflTransGen (PassesBack blocks) head point) (hstuck : ∀ b, ¬ BackStep blocks point b) :
    CutAt blocks site point := by
  have hstop : StopsAt (PassesBack blocks) head point := ⟨hpass, fun b hb => hstuck b (.inl hb)⟩
  have hresolved := h.resolved head hhead
  have hclean := h.clean head hhead
  have honly := h.only head hhead
  rw [Resolved] at hresolved
  rw [CleanDefinition] at hclean
  rw [siteOf] at honly
  have hscan := scansBack blocks head
  generalize scanBackward blocks head = scan at hresolved hclean honly hscan
  cases hscan with
  | invalid _ => exact hresolved.elim
  | @passed block hb _ hwalk =>
    obtain rfl := hstop.unique PassesBack.unique hwalk
    obtain ⟨predecessor, hpred⟩ := List.exists_mem_of_ne_nil _ hresolved.1
    exact absurd (.inr (.enter hb hpred)) (hstuck _)
  | @defined block position fact hb _ hat _ hwalk =>
    obtain rfl := hstop.unique PassesBack.unique hwalk
    obtain ⟨hwhole, hnooverlap⟩ := hclean position fact rfl
    have hsite := honly { blockId := head.1, instructionIndex := position, ea := fact.ea } (by simp [hwhole])
    subst hsite
    exact ⟨block, fact, hb, hat, rfl, hwhole, hnooverlap, rfl⟩

/-- What the search accepts holds of every walk. -/
theorem Accepted.proven (h : Accepted blocks start site) : ProvenDefinition blocks start site := by
  have hseg := backward_segments blocks start
  have hinside : ∀ point, ReflTransGen (BackStep blocks) start point → InBlocks blocks point := by
    intro point hreach
    induction hreach with
    | refl =>
      have hresolved := h.resolved start .refl
      rw [Resolved] at hresolved
      have hscan := scansBack blocks start
      generalize scanBackward blocks start = scan at hresolved hscan
      cases hscan with
      | invalid _ => exact hresolved.elim
      | defined _ hin _ _ _ => exact hin
      | passed _ hin _ => exact hin
    | @tail point next hreach hstep ih =>
      rcases hstep with hstep | hstep
      · exact hstep.inBlocks.2
      · obtain ⟨head, hhead, hpass⟩ := hseg.reach hreach (hseg.source _ _ (.inr hstep))
        have hresolved := h.resolved head hhead
        rw [Resolved] at hresolved
        have hscan := scansBack blocks head
        generalize scanBackward blocks head = scan at hresolved hscan
        cases hstep with
        | @enter id predecessor block hb hpred =>
          have hblock : id = head.1 := PassesBack.block hpass
          have hstop : StopsAt (PassesBack blocks) head (id, 0) := ⟨hpass, not_passesBack_start id⟩
          cases hscan with
          | invalid _ => exact hresolved.elim
          | defined _ _ _ _ hwalk =>
            have hposition := (Prod.mk.inj (hstop.unique PassesBack.unique hwalk)).2
            omega
          | passed hb' _ _ =>
            rw [← hblock, hb] at hb'
            cases hb'
            obtain ⟨target, htarget⟩ := Option.isSome_iff_exists.mp (hresolved.2 predecessor hpred)
            refine ⟨target, htarget, ?_, ?_⟩ <;> (rw [endOf, htarget]; simp)
  refine ⟨not_infiniteWalk_iff.mpr (hseg.ends_step h.ends), hinside, fun point hpoint => ?_⟩
  obtain ⟨block, hb, _⟩ := hinside point hpoint.1
  obtain ⟨head, hhead, hpass⟩ := hseg.reach hpoint.1 (Option.isSome_of_eq_some hb)
  exact h.cut hhead hpass hpoint.2

/-- A state of the search lies on a walk. -/
theorem reach_of_states {state : Int × Int} (h : ReflTransGen (fun a b => b ∈ previousStates blocks a) start state) :
    ReflTransGen (BackStep blocks) start state := by
  induction h with
  | refl => exact .refl
  | tail _ hstep ih => exact ih.trans (previousStates_steps hstep).to_reflTransGen

/-- Where a scan of a proven start stops at a definition, it is the proven one. -/
theorem ProvenDefinition.siteOf_eq (h : ProvenDefinition blocks start site) {state : Int × Int}
    (hstate : ReflTransGen (BackStep blocks) start state) {block : CfgBlockFacts} {position : Nat}
    {fact : CfgInstructionFact} (hb : blocks.get? state.1 = some block)
    (hat : block.instructions[position]? = some fact)
    (hdef : fact.defines = true) (hwalk : StopsAt (PassesBack blocks) state (state.1, (position : Int) + 1)) :
    fact.wholeDefinition = true ∧ fact.overlappingDefinition = false ∧
      site = { blockId := state.1, instructionIndex := position, ea := fact.ea } := by
  have hstop : StopsAt (BackStep blocks) start (state.1, (position : Int) + 1) :=
    ⟨hstate.trans (ReflTransGen.mono (fun _ _ => .inl) _ _ hwalk.1), not_backStep_definition hb hat hdef⟩
  obtain ⟨block', fact', hb', hat', hposition, hwhole, hnooverlap, hsite⟩ := h.cut _ hstop
  obtain hindex : position = site.instructionIndex := by dsimp only at hposition; omega
  rw [hb] at hb'
  cases hb'
  rw [← hindex, hat] at hat'
  cases hat'
  exact ⟨hwhole, hnooverlap, by rw [hsite, hindex]⟩

/-- What holds of every walk is accepted by the search. -/
theorem ProvenDefinition.accepted (h : ProvenDefinition blocks start site) : Accepted blocks start site := by
  have hseg := backward_segments blocks start
  have hends := not_infiniteWalk_iff.mp h.finite
  refine ⟨hends.of_steps fun _ _ => previousStates_steps, fun state hstate => ?_,
    fun state hstate position fact hfact => ?_,
    fun state hstate other hother => ?_, ?_⟩
  · have hreach := reach_of_states hstate
    rw [Resolved]
    have hscan := scansBack blocks state
    generalize scanBackward blocks state = scan at hscan
    cases hscan with
    | invalid hout => exact hout (h.inside state hreach)
    | defined _ _ _ _ _ => trivial
    | @passed block hb _ hwalk =>
      have hfirst : ReflTransGen (BackStep blocks) start (state.1, 0) :=
        hreach.trans (ReflTransGen.mono (fun _ _ => .inl) _ _ hwalk.1)
      refine ⟨fun hnil => ?_, fun predecessor hpred => ?_⟩
      · have hstop : StopsAt (BackStep blocks) start (state.1, 0) := by
          refine ⟨hfirst, ?_⟩
          rintro b (hstep | hstep)
          · exact hwalk.2 b hstep
          · cases hstep with
            | enter hb' hpred =>
              rw [hb] at hb'
              cases hb'
              rw [hnil] at hpred
              cases hpred
        obtain ⟨_, _, _, _, hposition, _⟩ := h.cut _ hstop
        dsimp only at hposition
        omega
      · obtain ⟨target, htarget, _⟩ := h.inside _ (hfirst.tail (.inr (.enter hb hpred)))
        exact Option.isSome_of_eq_some htarget
  · have hscan := scansBack blocks state
    rw [hfact] at hscan
    cases hscan with
    | defined hb _ hat hdef hwalk =>
      obtain ⟨hwhole, hnooverlap, _⟩ := h.siteOf_eq (reach_of_states hstate) hb hat hdef hwalk
      exact ⟨hwhole, hnooverlap⟩
  · rw [siteOf] at hother
    have hscan := scansBack blocks state
    generalize scanBackward blocks state = scan at hother hscan
    cases hscan with
    | invalid _ => cases hother
    | passed _ _ _ => cases hother
    | defined hb _ hat hdef hwalk =>
      obtain ⟨hwhole, _, hsite⟩ := h.siteOf_eq (reach_of_states hstate) hb hat hdef hwalk
      dsimp only at hother
      rw [if_pos hwhole] at hother
      cases hother
      exact hsite.symm
  · obtain ⟨point, hreach, hstuck⟩ := hends.exists_stop
    obtain ⟨block, hb, _⟩ := h.inside point hreach
    obtain ⟨_, _, _, _, hposition, _⟩ := h.cut point ⟨hreach, hstuck⟩
    obtain ⟨head, hhead, hpass⟩ := hseg.reach hreach (Option.isSome_of_eq_some hb)
    have hstop : StopsAt (PassesBack blocks) head point := ⟨hpass, fun b hb => hstuck b (.inl hb)⟩
    refine ⟨head, hhead, ?_⟩
    rw [siteOf]
    have hscan := scansBack blocks head
    generalize scanBackward blocks head = scan at hscan
    cases hscan with
    | invalid hout => exact absurd (h.inside head (reach_of_states hhead)) hout
    | passed _ _ hwalk =>
      obtain rfl := hstop.unique PassesBack.unique hwalk
      dsimp only at hposition
      omega
    | defined hb _ hat hdef hwalk =>
      obtain ⟨hwhole, _, hsite⟩ := h.siteOf_eq (reach_of_states hhead) hb hat hdef hwalk
      dsimp only
      rw [if_pos hwhole, hsite]

/-- A result is accepted when it has one definition and nothing speaks against it. -/
theorem reachingDefinitionRejectionReason_none_iff (result : ReachingDefinitionResult) :
    reachingDefinitionRejectionReason result = none ↔ result.overlappingDefinition = false ∧
      (∃ site, result.definitions = [site]) ∧ result.unresolvedPath = false ∧ result.loopDetected = false ∧
      result.traversalExhausted = false := by
  rw [← List.length_eq_one_iff, reachingDefinitionRejectionReason, ReachingDefinitionResult.count]
  constructor
  · intro h
    split at h
    · cases h
    · rename_i hoverlap
      split at h
      · cases h
      · rename_i hsome
        split at h
        · cases h
        · rename_i hone
          split at h
          · cases h
          · rename_i hresolved
            split at h
            · cases h
            · rename_i hdone
              simp only [Bool.or_eq_true, not_or, Bool.not_eq_true] at hdone
              exact ⟨by simpa using hoverlap, by omega, by simpa using hresolved, hdone⟩
  · rintro ⟨hoverlap, hone, hresolved, hloop, hdone⟩
    simp [hoverlap, hone, hresolved, hloop, hdone]

theorem definitions_eq_iff (values : List DefinitionSite) (site : DefinitionSite) :
    values.mergeSort siteOrder = [site] ↔ values = [site] := by
  have hperm := List.mergeSort_perm values siteOrder
  constructor
  · intro h
    rw [h] at hperm
    exact List.perm_singleton.mp hperm.symm
  · rintro rfl
    exact List.mergeSort_singleton site

/-- The search accepts one site exactly when its result names that site and nothing speaks against it. -/
theorem accepted_iff (blocks : Dict Int CfgBlockFacts) (start : Int × Int) (site : DefinitionSite) :
    let result := findReachingDefinitions blocks start.1 start.2
    (result.overlappingDefinition = false ∧ result.definitions = [site] ∧ result.unresolvedPath = false ∧
      result.loopDetected = false ∧ result.traversalExhausted = false) ↔ Accepted blocks start site := by
  have hdone := searchDefinitions_done blocks start
  have hvisited := Explore.explore_visited_iff _ _ _ start _ hdone
  have hloop := explored_acyclic_iff _ _ _ start _ hdone
  have hacc : (searchDefinitions blocks start none).acc =
    collected blocks (searchDefinitions blocks start none).visited :=
    Explore.explore_acc _ _ _ start _
  dsimp only [findReachingDefinitions]
  rw [definitions_eq_iff, hacc, collected_overlapping, collected_unresolved, collected_values_iff]
  constructor
  · rintro ⟨hclean, ⟨⟨found, hfound, hsite⟩, honly⟩, hresolved, hacyclic, _⟩
    exact ⟨hloop.mp hacyclic, fun state hstate => hresolved state ((hvisited state).mpr hstate),
      fun state hstate => hclean state ((hvisited state).mpr hstate),
      fun state hstate => honly state ((hvisited state).mpr hstate), found, (hvisited found).mp hfound, hsite⟩
  · rintro ⟨hends, hresolved, hclean, honly, found, hfound, hsite⟩
    exact ⟨fun state hstate => hclean state ((hvisited state).mp hstate),
      ⟨⟨found, (hvisited found).mpr hfound, hsite⟩, fun state hstate => honly state ((hvisited state).mp hstate)⟩,
      fun state hstate => hresolved state ((hvisited state).mp hstate), hloop.mpr hends, hdone⟩

/-- With its default budget the analysis accepts exactly the starts from which every backward walk is finite, stays
inside the blocks and is cut at one whole definition, reports that one, and never runs out of budget. -/
theorem reaching_definition_accepted_iff (blocks : Dict Int CfgBlockFacts) (currentBlockId currentInstruction : Int) :
    let result := findReachingDefinitions blocks currentBlockId currentInstruction
    (reachingDefinitionRejectionReason result = none ↔
      ∃ site, ProvenDefinition blocks (currentBlockId, currentInstruction) site) ∧
    (∀ site, ProvenDefinition blocks (currentBlockId, currentInstruction) site → result.definitions = [site]) ∧
    result.traversalExhausted = false := by
  intro result
  have haccepted := accepted_iff blocks (currentBlockId, currentInstruction)
  refine ⟨?_, fun site hproven => ((haccepted site).mpr hproven.accepted).2.1, searchDefinitions_done ..⟩
  rw [reachingDefinitionRejectionReason_none_iff]
  constructor
  · rintro ⟨hoverlap, ⟨site, hsite⟩, hresolved⟩
    exact ⟨site, ((haccepted site).mp ⟨hoverlap, hsite, hresolved⟩).proven⟩
  · rintro ⟨site, hproven⟩
    obtain ⟨hoverlap, hsite, hresolved⟩ := (haccepted site).mpr hproven.accepted
    exact ⟨hoverlap, ⟨site, hsite⟩, hresolved⟩

end accepted
end DynvarSync.Ida
