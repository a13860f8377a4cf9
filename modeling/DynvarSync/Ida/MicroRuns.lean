import DynvarSync.Ida.CandidateProofs

/-! Runs of the microcode up to the analysed point. On each of them the one reaching
definition is the last thing that touched the variable. -/
namespace DynvarSync.Ida
open Lib Relation Walks

/-- A meaning of the microcode for which Hex-Rays' operand lists are complete: a variable keeps its value unless
a target may overlap it, and a number moved over a whole variable is its value. -/
structure MicroSemantics {ι : Type} (mba : Mba ι) where
  Store : Type
  step : MicroInstruction → Store → Store → Prop
  valueOf : Store → Int → Nat
  frame : ∀ {insn s s' access index target}, step insn s s' → collectLvarAccesses insn = .ok access →
    mba.vectorAt index = some target →
    (∀ written ∈ access.targets, written.1 ≠ index ∧ mba.mayOverlap target written.1 = false) →
    valueOf s' index = valueOf s index
  move : ∀ {insn s s' destination reference source number}, step insn s s' → insn.opcode = .mov →
    insn.modifiesD = some true → insn.d = some destination → destination.t = .lvar →
    destination.l = some reference → reference.off = 0 → insn.l = some source → source.t = .number →
    source.unsignedValue.or source.nnnValue = some number →
    valueOf s' reference.idx = maskWidth number destination.size.toNat

/-- Executions from a block without predecessors up to a point between two instructions of a block. -/
inductive MicroRun {ι : Type} {mba : Mba ι} (semantics : MicroSemantics mba) (blocks : Dict Int MicroBlockData) :
    Int × Nat → semantics.Store → Prop
  | start {id : Int} {block : MicroBlockData} (s : semantics.Store) : blocks.get? id = some block →
      block.predecessors = [] → MicroRun semantics blocks (id, 0) s
  | execute {id : Int} {position : Nat} {block : MicroBlockData} {entry : CollectedInstruction}
      {s s' : semantics.Store} : MicroRun semantics blocks (id, position) s → blocks.get? id = some block →
      block.instructions[position]? = some entry → semantics.step entry.instruction s s' →
      MicroRun semantics blocks (id, position + 1) s'
  | enter {id next : Int} {block successor : MicroBlockData} {s : semantics.Store} :
      MicroRun semantics blocks (id, block.instructions.length) s → blocks.get? id = some block →
      blocks.get? next = some successor → next ∈ block.successors → MicroRun semantics blocks (next, 0) s

section facts
variable {ι : Type} {mba : Mba ι} {target : MicroLvar} {index : Int} {width : Nat} {blocks : Dict Int MicroBlockData}

theorem get?_candidateCfgFacts (id : Int) :
    (mba.candidateCfgFacts target index width blocks).get? id =
      (blocks.get? id).map (mba.candidateBlock target index width) := by
  rw [Mba.candidateCfgFacts, Dict.get?_foldl_assign blocks
    (fun _ block => mba.candidateBlock target index width block) Dict.empty id, Dict.get?_empty, Option.or_none]

theorem candidateBlock_at {block : MicroBlockData} {position : Nat} {entry : CollectedInstruction}
    (h : block.instructions[position]? = some entry) :
    (mba.candidateBlock target index width block).instructions[position]? =
      some (mba.candidateFact target index width entry) := by
  rw [Mba.candidateBlock, List.getElem?_map, h, Option.map_some]

/-- An instruction that is no definition of the variable in any way has no target that may overlap it. -/
theorem targets_of_not_defines {entry : CollectedInstruction}
    (h : (mba.candidateFact target index width entry).defines = false) :
    ∀ written ∈ entry.access.targets, written.1 ≠ index ∧ mba.mayOverlap target written.1 = false := by
  rw [CfgInstructionFact.defines, Bool.or_eq_false_iff] at h
  obtain ⟨hwhole, hoverlap⟩ := h
  change isWholeLvarDefinition entry.instruction index width = false at hwhole
  intro written hwritten
  have hno := List.any_eq_false.mp hoverlap written hwritten
  rw [hwhole] at hno
  by_cases hother : written.1 = index
  · simp [hother] at hno
  · exact ⟨hother, by simpa [hother] using hno⟩

/-- A number a whole definition moves becomes the value of the variable. -/
theorem MicroSemantics.constant (semantics : MicroSemantics mba) {insn : MicroInstruction} {s s' : semantics.Store}
    {number : Int} (h : directConstantDefinition insn index width = some number) (hstep : semantics.step insn s s') :
    semantics.valueOf s' index = maskWidth number width := by
  rw [directConstantDefinition] at h
  split at h
  · cases h
  rename_i hwhole
  split at h
  · cases h
  rename_i hmov
  split at h
  · cases h
  rename_i source hsource
  split at h
  · cases h
  rename_i hnumber
  split at h
  · cases h
  rw [Bool.not_eq_true, Bool.not_eq_false', isWholeLvarDefinition] at hwhole
  split at hwhole
  · rename_i destination hmodifies hdestination
    split at hwhole
    · rename_i reference hlvar hreference
      simp only [Bool.and_eq_true, decide_eq_true_eq] at hwhole
      obtain ⟨⟨hindex, hoff⟩, hsize⟩ := hwhole
      have hvalue := semantics.move hstep (not_not.mp hmov) hmodifies hdestination hlvar hreference hoff hsource
        (not_not.mp hnumber) h
      rw [hindex, hsize, Int.toNat_natCast] at hvalue
      exact hvalue
    · cases hwhole
  · cases hwhole

end facts

section runs
variable {ι : Type} {host : AnalysisHost ι} {functionEa currentEa : Int} {cfunc : Option (MicroCfunc ι)}
  {point : AnalysisPoint ι} {index : Int} {width : Nat} {target : MicroLvar} {site : DefinitionSite}
  {definition : CollectedInstruction} {definitionEa number : Int}

/-- Wherever a backward walk from the point can lead, a run that gets there has left the constant in the variable. -/
theorem constant_along (hcollected : Mba.Collected point.mba point.microBlocks)
    (hselected : Selected point index width target site definition definitionEa)
    (htarget : point.mba.vectorAt index = some target)
    (hdirect : directConstantDefinition definition.instruction index width = some number)
    (semantics : MicroSemantics point.mba) {place : Int × Nat} {s : semantics.Store}
    (hrun : MicroRun semantics point.microBlocks place s)
    (hback : ReflTransGen (BackStep (point.candidateCfg index width target))
      (point.currentBlock.blockId, (point.boundary : Int)) (place.1, (place.2 : Int))) :
    semantics.valueOf s index = maskWidth number width := by
  have hcfg : ∀ {id block}, point.microBlocks.get? id = some block →
      (point.candidateCfg index width target).get? id =
        some (point.mba.candidateBlock target index width block) := by
    intro id block hb
    rw [AnalysisPoint.candidateCfg, get?_candidateCfgFacts, hb, Option.map_some]
  induction hrun with
  | @start id block s hb hnone =>
    have hstuck : ∀ b, ¬ BackStep (point.candidateCfg index width target) (id, 0) b := by
      rintro b (h | h)
      · exact not_passesBack_start id b h
      · cases h with
        | @enter _ predecessor block' hb' hpred =>
          rw [hcfg hb] at hb'
          cases hb'
          change predecessor ∈ block.predecessors at hpred
          rw [hnone] at hpred
          cases hpred
    obtain ⟨_, _, _, _, hpoint, _⟩ := hselected.proven.cut (id, 0) ⟨hback, hstuck⟩
    change (0 : Int) = site.instructionIndex + 1 at hpoint
    omega
  | @execute id position block entry s s' _ hb hat hstep ih =>
    have hfact : (point.mba.candidateBlock target index width block).instructions[position]? =
        some (point.mba.candidateFact target index width entry) := candidateBlock_at hat
    cases hdefines : (point.mba.candidateFact target index width entry).defines with
    | false =>
      have hprevious := ih (hback.tail (.inl (.pass (hcfg hb) hfact hdefines)))
      have haccess := hcollected.access hb (List.mem_of_getElem? hat)
      rw [semantics.frame hstep haccess htarget (targets_of_not_defines hdefines), hprevious]
    | true =>
      have hstops : StopsAt (BackStep (point.candidateCfg index width target))
          (point.currentBlock.blockId, (point.boundary : Int)) (id, (position : Int) + 1) :=
        ⟨by exact_mod_cast hback, not_backStep_definition (hcfg hb) hfact hdefines⟩
      obtain ⟨block', fact, hb', hfact', hpoint, _, _, hsite⟩ := hselected.proven.cut _ hstops
      obtain ⟨found, hfound, hdefinition⟩ := hselected.found
      have hblockId : site.blockId = id := congrArg DefinitionSite.blockId hsite
      have hposition : site.instructionIndex = position := by
        change (position : Int) + 1 = site.instructionIndex + 1 at hpoint
        omega
      rw [hblockId, hb] at hfound
      cases hfound
      rw [hposition, hat] at hdefinition
      cases hdefinition
      exact semantics.constant hdirect hstep
  | @enter id next block successor s _ hb hnext hedge ih =>
    obtain ⟨successor', hsuccessor', hpred⟩ := (hcollected.reciprocal id next).mp ⟨block, hb, hedge⟩
    rw [hnext] at hsuccessor'
    cases hsuccessor'
    have hend : endOf (point.candidateCfg index width target) id = (block.instructions.length : Int) := by
      rw [endOf, hcfg hb, Option.map_some, Option.getD_some, Mba.candidateBlock, List.length_map]
    have henter : BackStep (point.candidateCfg index width target) (next, 0) (id, (block.instructions.length : Int)) :=
      .inr (hend ▸ .enter (hcfg hnext) hpred)
    exact ih (hback.tail henter)

end runs
end DynvarSync.Ida
