import DynvarSync.Ida.Selection
import DynvarSync.Lib.Budget
import Mathlib.Data.List.GetD
import Mathlib.Data.List.Rotate

/-! The four passes of the selection. They share one budget, so an index of a later
class is selected only when every local of an earlier class is. -/
namespace DynvarSync.Ida
open Lib Lib.Budget

/-- The lvar indexes of the variables that are not arguments. -/
def localIndexes (lvars : List VariableRecord) : Finset Int :=
  ((lvars.filter fun lvar => !lvar.isArg).map VariableRecord.lvarIndex).toFinset

/-- The last previous row of the index is fresh or stale. -/
def wasObserved (previousRows : List VariableRecord) (index : Int) : Bool :=
  match (rowsByIndex previousRows).get? index with
  | some previous => previous.status = .fresh || previous.status = .stale
  | none => false

/-- The active filter shows the index's previous row, or its variable where there is none. -/
def isVisible (lvars previousRows : List VariableRecord) (activeFilter : RowFilter) (index : Int) : Bool :=
  match (rowsByIndex previousRows).get? index, (rowsByIndex lvars).get? index with
  | some previous, _ => rowMatchesFilter previous activeFilter
  | none, some lvar => rowMatchesFilter lvar activeFilter
  | none, none => false

/-- What speaks for analysing a local, strongest first. -/
inductive CandidateClass where
  | watched | observed | visible | rest
  deriving DecidableEq, Repr

def CandidateClass.rank : CandidateClass → Nat
  | watched => 0
  | observed => 1
  | visible => 2
  | rest => 3

def CandidateClass.order : List CandidateClass := [watched, observed, visible, rest]

theorem CandidateClass.rank_le_of_mem_take {cls earlier : CandidateClass} (h : earlier ∈ order.take (cls.rank + 1)) :
    earlier.rank ≤ cls.rank := by
  cases cls with
  | watched | observed | visible | rest => revert earlier; decide

theorem CandidateClass.mem_take (cls : CandidateClass) : cls ∈ order.take (cls.rank + 1) := by
  cases cls with
  | watched | observed | visible | rest => decide

def candidateClass (lvars previousRows : List VariableRecord) (activeFilter : RowFilter)
    (watchedLvarIndexes : List Int) (index : Int) : CandidateClass :=
  if index ∈ watchedLvarIndexes then .watched
  else if wasObserved previousRows index then .observed
  else if isVisible lvars previousRows activeFilter index then .visible
  else .rest

theorem mem_sortedIndexes (indexes : List Int) (index : Int) : index ∈ sortedIndexes indexes ↔ index ∈ indexes :=
  List.mem_insertionSort (· ≤ ·)

theorem isSome_foldl_set (rows : List VariableRecord) (d : Dict Int VariableRecord) (index : Int) :
    ((rows.foldl (fun d row => d.set row.lvarIndex row) d).get? index).isSome = true ↔
      (d.get? index).isSome = true ∨ index ∈ rows.map VariableRecord.lvarIndex := by
  induction rows generalizing d with
  | nil => simp only [List.foldl_nil, List.map_nil, List.not_mem_nil, or_false]
  | cons row rows ih =>
    rw [List.foldl_cons, ih, Dict.get?_set, List.map_cons, List.mem_cons]
    by_cases h : index = row.lvarIndex
    · simp only [h, if_pos, Option.isSome_some, true_or, or_true]
    · simp only [h, if_false, false_or]

theorem isSome_rowsByIndex (rows : List VariableRecord) (index : Int) :
    ((rowsByIndex rows).get? index).isSome = true ↔ index ∈ localIndexes rows := by
  rw [rowsByIndex, isSome_foldl_set, Dict.get?_empty, localIndexes, List.mem_toFinset]
  simp only [Option.isSome_none, Bool.false_eq_true, false_or]

theorem mem_keys_rowsByIndex (rows : List VariableRecord) (index : Int) :
    index ∈ (rowsByIndex rows).keys ↔ index ∈ localIndexes rows := by
  rw [Dict.mem_keys_iff, ← Option.isSome_iff_exists, isSome_rowsByIndex]

section passes
variable (budget : Nat) (localsByIndex : Dict Int VariableRecord)

def isLocal (index : Int) : Bool := (localsByIndex.get? index).isSome

theorem addCandidate_eq_offer (selected : List Int) (index : Int) :
    addCandidate budget localsByIndex selected index = offer budget (isLocal localsByIndex) selected index := by
  rw [addCandidate, offer, isLocal]
  simp only [Option.isNone_iff_eq_none, Option.isSome_eq_false_iff]

theorem fills_addCandidate (indexes selected : List Int) :
    Fills budget (isLocal localsByIndex) selected indexes
      (indexes.foldl (addCandidate budget localsByIndex) selected) := by
  rw [funext₂ (addCandidate_eq_offer budget localsByIndex)]
  exact fills_foldl indexes selected

theorem rotate_eq_map (indexes : List Int) (start : Nat) :
    ((List.range indexes.length).map fun offset => indexes.getD ((start + offset) % indexes.length) 0) =
      indexes.rotate start := by
  refine List.ext_getElem ?_ fun i hi hrotate => ?_
  · rw [List.length_map, List.length_range, List.length_rotate]
  · rw [List.length_map, List.length_range] at hi
    have hlt : (start + i) % indexes.length < indexes.length := Nat.mod_lt _ (Nat.zero_lt_of_lt hi)
    rw [List.getElem_map, List.getElem_range, List.getElem_rotate, List.getD_eq_getElem _ _ hlt]
    simp only [Nat.add_comm]

theorem rotateFrom_fst (indexes : List Int) (start : Nat) (offsets : List Nat) (selected : List Int) (added : Nat) :
    (rotateFrom budget localsByIndex indexes start offsets (selected, added)).1 =
      (offsets.map fun offset => indexes.getD ((start + offset) % indexes.length) 0).foldl
        (offer budget (isLocal localsByIndex)) selected := by
  induction offsets generalizing selected added with
  | nil => rfl
  | cons offset offsets ih =>
    rw [rotateFrom, List.map_cons, List.foldl_cons, ← addCandidate_eq_offer]
    split
    · rename_i hfull
      exact (foldl_offer_of_full budget (isLocal localsByIndex) hfull _).symm
    · exact ih _ _

/-- A rotation is a pass over the rotated list. -/
theorem addRotating_fst (selected indexes : List Int) (cursor : Int) :
    (addRotating budget localsByIndex selected indexes cursor).1 =
      (indexes.rotate (cursor % indexes.length).toNat).foldl (offer budget (isLocal localsByIndex)) selected := by
  rw [addRotating]
  split
  · rename_i h
    rcases h with rfl | hfull
    · rw [List.rotate_nil, List.foldl_nil]
    · exact (foldl_offer_of_full budget (isLocal localsByIndex) hfull _).symm
  · rw [← rotate_eq_map]
    exact rotateFrom_fst budget localsByIndex indexes _ _ selected 0

theorem fills_addRotating (selected indexes : List Int) (cursor : Int) :
    Fills budget (isLocal localsByIndex) selected indexes
      (addRotating budget localsByIndex selected indexes cursor).1 := by
  rw [addRotating_fst]
  exact (fills_foldl _ selected).congr fun index => List.mem_rotate

end passes

section selection
variable (lvars previousRows : List VariableRecord) (activeFilter : RowFilter) (watchedLvarIndexes : List Int)
variable (maxCandidates fallbackCursor : Int)

def orderedLocals : List Int := sortedIndexes (rowsByIndex lvars).keys

/-- The candidates of a class's pass. -/
def classPass : CandidateClass → List Int
  | .watched => sortedIndexes watchedLvarIndexes
  | .observed => (orderedLocals lvars).filter (wasObserved previousRows)
  | .visible => (orderedLocals lvars).filter (isVisible lvars previousRows activeFilter)
  | .rest => orderedLocals lvars

theorem selection_passes :
    Passes maxCandidates.toNat (isLocal (rowsByIndex lvars))
      (CandidateClass.order.map (classPass lvars previousRows activeFilter watchedLvarIndexes)) []
      (selectRecoveryCandidateIndexes lvars previousRows activeFilter watchedLvarIndexes maxCandidates
        fallbackCursor).1 := by
  refine .pass (fills_addCandidate _ _ _ _) (.pass (fills_addCandidate _ _ _ _) ?_)
  exact .pass (fills_addRotating _ _ _ _ fallbackCursor) (.pass (fills_addRotating _ _ _ _ _).of_filter (.done _))

theorem mem_orderedLocals (index : Int) : index ∈ orderedLocals lvars ↔ index ∈ localIndexes lvars := by
  rw [orderedLocals, mem_sortedIndexes, mem_keys_rowsByIndex]

/-- A local is offered by the pass of its class. -/
theorem mem_classPass {index : Int} (h : index ∈ localIndexes lvars) :
    index ∈ classPass lvars previousRows activeFilter watchedLvarIndexes
      (candidateClass lvars previousRows activeFilter watchedLvarIndexes index) := by
  have hordered := (mem_orderedLocals lvars index).mpr h
  rw [candidateClass]
  split
  · rename_i hwatched
    exact (mem_sortedIndexes _ index).mpr hwatched
  · split
    · rename_i hobserved
      exact List.mem_filter.mpr ⟨hordered, hobserved⟩
    · split
      · rename_i hvisible
        exact List.mem_filter.mpr ⟨hordered, hvisible⟩
      · exact hordered

/-- A pass offers no index of a later class. -/
theorem rank_le_of_mem_classPass {index : Int} {cls : CandidateClass}
    (h : index ∈ classPass lvars previousRows activeFilter watchedLvarIndexes cls) :
    (candidateClass lvars previousRows activeFilter watchedLvarIndexes index).rank ≤ cls.rank := by
  rw [candidateClass]
  cases cls with
  | watched => rw [if_pos ((mem_sortedIndexes _ index).mp h)]
  | observed =>
    rw [if_pos (List.mem_filter.mp h).2]
    split
    · exact Nat.zero_le 1
    · exact Nat.le_refl 1
  | visible =>
    rw [if_pos (List.mem_filter.mp h).2]
    split
    · exact Nat.zero_le 2
    · split
      · exact Nat.le_succ 1
      · exact Nat.le_refl 2
  | rest =>
    generalize (if index ∈ watchedLvarIndexes then CandidateClass.watched else _) = cls
    cases cls with
    | watched | observed | visible | rest => decide

end selection

/-- The selection takes as many locals as fit, and no local of a later class before one of an earlier class. -/
theorem selected_full_by_class (lvars previousRows : List VariableRecord) (activeFilter : RowFilter)
    (watchedLvarIndexes : List Int) (maxCandidates fallbackCursor : Int) :
    let selected := (selectRecoveryCandidateIndexes lvars previousRows activeFilter watchedLvarIndexes maxCandidates
      fallbackCursor).1.toFinset
    selected ⊆ localIndexes lvars ∧
      (selected.card : Int) = min (max 0 maxCandidates) (localIndexes lvars).card ∧
      ∀ index ∈ localIndexes lvars, ∀ later ∈ selected,
        (candidateClass lvars previousRows activeFilter watchedLvarIndexes index).rank <
          (candidateClass lvars previousRows activeFilter watchedLvarIndexes later).rank → index ∈ selected := by
  intro selected
  have hpasses := selection_passes lvars previousRows activeFilter watchedLvarIndexes maxCandidates fallbackCursor
  have hall : ∀ index, index ∈ localIndexes lvars ↔
      index ∈ (CandidateClass.order.map (classPass lvars previousRows activeFilter watchedLvarIndexes)).flatten ∧
        isLocal (rowsByIndex lvars) index = true := by
    intro index
    refine ⟨fun h => ⟨?_, (isSome_rowsByIndex lvars index).mpr h⟩, fun h => (isSome_rowsByIndex lvars index).mp h.2⟩
    refine List.mem_flatten.mpr ⟨_, List.mem_map_of_mem ?_, mem_classPass _ _ _ _ h⟩
    exact List.mem_of_mem_take (CandidateClass.mem_take _)
  obtain ⟨hsub, hcard⟩ := hpasses.card hall
  refine ⟨hsub, ?_, fun index hindex later hlater hrank => ?_⟩
  · rw [hcard]
    omega
  · let cls := candidateClass lvars previousRows activeFilter watchedLvarIndexes index
    rw [← List.take_append_drop (cls.rank + 1) CandidateClass.order, List.map_append] at hpasses
    refine List.mem_toFinset.mpr (hpasses.earlier_first (Nat.zero_le _) (List.mem_toFinset.mp hlater)
      List.not_mem_nil (fun xs hxs hmem => ?_) _ (List.mem_map_of_mem cls.mem_take) index
      (mem_classPass _ _ _ _ hindex) ((isSome_rowsByIndex lvars index).mpr hindex))
    obtain ⟨earlier, hearlier, rfl⟩ := List.mem_map.mp hxs
    have hle := CandidateClass.rank_le_of_mem_take hearlier
    have hoffered := rank_le_of_mem_classPass lvars previousRows activeFilter watchedLvarIndexes hmem
    exact absurd (hoffered.trans hle) (Nat.not_le_of_lt hrank)

end DynvarSync.Ida
