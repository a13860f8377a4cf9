import DynvarSync.Ida.SelectionPasses
import DynvarSync.Lib.Rotation
import Mathlib.Data.Finset.SDiff

/-! Repeated selections of one function. The visible pass and the pass over the rest share one
cursor, so whether every local gets its turn depends on the sizes of both. -/
namespace DynvarSync.Ida
open Lib Lib.Budget Lib.Rotation

/-- Where a rotation over a list starts. -/
def startOf (indexes : List Int) (cursor : Int) : Nat := (cursor % indexes.length).toNat

/-- The indexes a rotation offers in its first turns. -/
def window (indexes : List Int) (cursor : Int) (turns : Nat) : List Int :=
  (indexes.rotate (startOf indexes cursor)).take turns

theorem mem_window_iff {indexes : List Int} {cursor : Int} {turns : Nat} (h : turns ≤ indexes.length) (index : Int) :
    index ∈ window indexes cursor turns ↔
      ∃ j < turns, indexes[(startOf indexes cursor + j) % indexes.length]? = some index := by
  rw [window, List.mem_take_iff_getElem]
  constructor
  · rintro ⟨j, hj, rfl⟩
    refine ⟨j, (Nat.lt_min.mp hj).1, ?_⟩
    rw [List.getElem_rotate, Nat.add_comm j, List.getElem?_eq_getElem]
  · rintro ⟨j, hj, heq⟩
    have hlt : j < min turns (indexes.rotate (startOf indexes cursor)).length := by
      rw [List.length_rotate]
      omega
    refine ⟨j, hlt, ?_⟩
    rw [List.getElem_rotate]
    exact Option.some.inj ((List.getElem?_eq_getElem _).symm.trans (Nat.add_comm j _ ▸ heq))

section turns
variable (budget : Nat) (localsByIndex : Dict Int VariableRecord)

theorem range'_map (indexes : List Int) (start : Nat) {turns : Nat} (h : turns ≤ indexes.length) :
    ((List.range' 0 turns).map fun offset => indexes.getD ((start + offset) % indexes.length) 0) =
      (indexes.rotate start).take turns := by
  rw [← rotate_eq_map, ← List.map_take, List.take_range, Nat.min_eq_left h, List.range_eq_range']

/-- The turns a rotation makes: it stops at its list's end, or once the budget is spent. -/
theorem rotateFrom_turns (indexes : List Int) (start : Nat) (m a : Nat) {selected : List Int}
    (hroom : selected.length < budget) :
    ∃ t ≤ m, (0 < m → 0 < t) ∧
      (rotateFrom budget localsByIndex indexes start (List.range' a m) (selected, a)).2 = a + t ∧
      (rotateFrom budget localsByIndex indexes start (List.range' a m) (selected, a)).1 =
        ((List.range' a t).map fun offset => indexes.getD ((start + offset) % indexes.length) 0).foldl
          (offer budget (isLocal localsByIndex)) selected ∧
      (t < m → budget ≤ (rotateFrom budget localsByIndex indexes start (List.range' a m) (selected, a)).1.length) ∧
      ∀ t' < t, (((List.range' a t').map fun offset => indexes.getD ((start + offset) % indexes.length) 0).foldl
        (offer budget (isLocal localsByIndex)) selected).length < budget := by
  induction m generalizing a selected with
  | zero => exact ⟨0, Nat.le_refl 0, id, rfl, rfl, (absurd · (Nat.lt_irrefl 0)),
    fun t' ht' => absurd ht' (Nat.not_lt_zero t')⟩
  | succ m ih =>
    rw [List.range'_succ, rotateFrom, addCandidate_eq_offer]
    split
    · rename_i hfull
      refine ⟨1, Nat.le_add_left 1 m, fun _ => Nat.one_pos, rfl, rfl, fun _ => hfull, fun t' ht' => ?_⟩
      rw [Nat.lt_one_iff.mp ht']
      exact hroom
    · rename_i hmore
      obtain ⟨t, htm, -, hturns, htaken, hstop, hbefore⟩ := ih (a + 1) (Nat.lt_of_not_le hmore)
      refine ⟨t + 1, Nat.succ_le_succ htm, fun _ => Nat.succ_pos t, ?_, ?_, fun ht => ?_, fun t' ht' => ?_⟩
      · rw [hturns]
        omega
      · rw [htaken, List.range'_succ, List.map_cons, List.foldl_cons]
      · exact hstop (Nat.lt_of_succ_lt_succ ht)
      · cases t' with
        | zero => exact hroom
        | succ t' =>
          rw [List.range'_succ, List.map_cons, List.foldl_cons]
          exact hbefore t' (Nat.lt_of_succ_lt_succ ht')

/-- What a rotation over a non-empty list does while there is room. -/
structure Turns (selected indexes : List Int) (cursor : Int) (t : Nat) : Prop where
  pos : 0 < t
  le : t ≤ indexes.length
  taken : (addRotating budget localsByIndex selected indexes cursor).1 =
    (window indexes cursor t).foldl (offer budget (isLocal localsByIndex)) selected
  next : (addRotating budget localsByIndex selected indexes cursor).2 =
    (((startOf indexes cursor + t) % indexes.length : Nat) : Int)
  stop : t < indexes.length → budget ≤ (addRotating budget localsByIndex selected indexes cursor).1.length
  before : ∀ t' < t, ((window indexes cursor t').foldl (offer budget (isLocal localsByIndex)) selected).length < budget

theorem addRotating_turns {selected indexes : List Int} (cursor : Int) (hne : indexes ≠ [])
    (hroom : selected.length < budget) : ∃ t, Turns budget localsByIndex selected indexes cursor t := by
  obtain ⟨t, htm, hpos, hturns, htaken, hstop, hbefore⟩ := rotateFrom_turns budget localsByIndex indexes
    (startOf indexes cursor) indexes.length 0 hroom
  have hopen : addRotating budget localsByIndex selected indexes cursor =
      ((rotateFrom budget localsByIndex indexes (startOf indexes cursor) (List.range' 0 indexes.length)
        (selected, 0)).1,
        (((startOf indexes cursor + (rotateFrom budget localsByIndex indexes (startOf indexes cursor)
          (List.range' 0 indexes.length) (selected, 0)).2) % indexes.length : Nat) : Int)) := by
    rw [addRotating, if_neg (not_or.mpr ⟨hne, Nat.not_le.mpr hroom⟩), List.range_eq_range']
    rfl
  refine ⟨t, hpos (List.length_pos_iff.mpr hne), htm, ?_, ?_, ?_, fun t' ht' => ?_⟩
  · rw [hopen, htaken, range'_map indexes _ htm]
    rfl
  · rw [hopen, hturns, Nat.zero_add]
  · rw [hopen]
    exact hstop
  · rw [window, ← range'_map indexes _ (ht'.le.trans htm)]
    exact hbefore t' ht'

theorem addRotating_done {selected indexes : List Int} (cursor : Int) (h : indexes = [] ∨ budget ≤ selected.length) :
    addRotating budget localsByIndex selected indexes cursor = (selected, cursor) := by
  rw [addRotating, if_pos h]

variable {budget localsByIndex} {selected indexes : List Int} {cursor : Int} {t : Nat}

/-- Every index a rotation turned over is selected. -/
theorem Turns.selects (h : Turns budget localsByIndex selected indexes cursor t)
    (hlocal : ∀ index ∈ indexes, isLocal localsByIndex index = true) :
    ∀ index ∈ window indexes cursor t, index ∈ (addRotating budget localsByIndex selected indexes cursor).1 := by
  rw [h.taken]
  refine mem_foldl_offer (fun index hmem => hlocal index ?_) fun t' ht' => ?_
  · exact List.mem_rotate.mp (List.mem_of_mem_take hmem)
  · have hlt : t' < t := ht'.trans_le (List.length_take_le t _)
    rw [window, List.take_take, Nat.min_eq_left hlt.le]
    exact h.before t' hlt

theorem length_foldl_window (hnodup : indexes.Nodup) (hlocal : ∀ index ∈ indexes, isLocal localsByIndex index = true)
    (hnew : ∀ index ∈ indexes, index ∉ selected) (cursor : Int) {turns : Nat} (h : turns ≤ indexes.length) :
    ((window indexes cursor turns).foldl (offer budget (isLocal localsByIndex)) selected).length =
      selected.length + min turns (budget - selected.length) := by
  have hsub : ∀ index ∈ window indexes cursor turns, index ∈ indexes :=
    fun index hmem => List.mem_rotate.mp (List.mem_of_mem_take hmem)
  have hwindow : (window indexes cursor turns).Nodup :=
    (List.nodup_rotate.mpr hnodup).sublist (List.take_sublist turns _)
  have hall : ((window indexes cursor turns).filter fun index => isLocal localsByIndex index && decide
    (index ∉ selected)) =
      window indexes cursor turns := by
    refine List.filter_eq_self.mpr fun index hmem => ?_
    rw [hlocal index (hsub index hmem), Bool.true_and]
    exact decide_eq_true (hnew index (hsub index hmem))
  rw [foldl_offer_eq hwindow, hall, List.length_append, List.length_take, window, List.length_take, List.length_rotate,
    Nat.min_eq_left h, Nat.min_comm]

/-- Over new indexes, a rotation makes as many turns as there is room. -/
theorem Turns.eq_min (h : Turns budget localsByIndex selected indexes cursor t) (hnodup : indexes.Nodup)
    (hlocal : ∀ index ∈ indexes, isLocal localsByIndex index = true) (hnew : ∀ index ∈ indexes, index ∉ selected) :
    t = min (budget - selected.length) indexes.length := by
  have hpos := h.pos
  have hle := h.le
  have hbefore := h.before (t - 1) (by omega)
  rw [length_foldl_window hnodup hlocal hnew cursor (by omega)] at hbefore
  rcases Nat.lt_or_eq_of_le hle with hlt | heq
  · have hstop := h.stop hlt
    rw [h.taken, length_foldl_window hnodup hlocal hnew cursor hle] at hstop
    omega
  · omega

theorem Turns.mem_iff (h : Turns budget localsByIndex selected indexes cursor t)
    (hlocal : ∀ index ∈ indexes, isLocal localsByIndex index = true) (index : Int) :
    index ∈ (addRotating budget localsByIndex selected indexes cursor).1 ↔
      index ∈ selected ∨ index ∈ window indexes cursor t := by
  constructor
  · rw [h.taken]
    intro hmem
    exact ((fills_foldl _ selected).source index hmem).imp_right And.left
  · rintro (hold | hwindow)
    · exact (fills_addRotating budget localsByIndex selected indexes cursor).keeps.subset hold
    · exact h.selects hlocal index hwindow

end turns

/-- What stays fixed while one function is selected from again and again. -/
structure SelectionInput where
  lvars : List VariableRecord
  previousRows : List VariableRecord
  activeFilter : RowFilter
  watchedLvarIndexes : List Int
  maxCandidates : Int

namespace SelectionInput
variable (input : SelectionInput)

def select (cursor : Int) : List Int × Int :=
  selectRecoveryCandidateIndexes input.lvars input.previousRows input.activeFilter input.watchedLvarIndexes
    input.maxCandidates cursor

/-- The cursor of a call, threaded through the calls before it. -/
def cursorAt (fallbackCursor : Int) : Nat → Int
  | 0 => fallbackCursor
  | k + 1 => (input.select (cursorAt fallbackCursor k)).2

def selectedAt (fallbackCursor : Int) (k : Nat) : List Int := (input.select (input.cursorAt fallbackCursor k)).1

/-- The locals that are watched or were fresh or stale. -/
def priority : Finset Int :=
  (localIndexes input.lvars).filter fun index =>
    index ∈ input.watchedLvarIndexes ∨ wasObserved input.previousRows index = true

def visible : Finset Int :=
  (localIndexes input.lvars).filter fun index => isVisible input.lvars input.previousRows
    input.activeFilter index = true

/-- The locals nothing speaks for. -/
def rest : Finset Int := localIndexes input.lvars \ (input.priority ∪ input.visible)

section passes

def visibleList : List Int :=
  (orderedLocals input.lvars).filter (isVisible input.lvars input.previousRows input.activeFilter)

/-- What the two priority passes select. -/
def prioritySelected : List Int :=
  ((orderedLocals input.lvars).filter (wasObserved input.previousRows)).foldl
    (addCandidate input.maxCandidates.toNat (rowsByIndex input.lvars))
    ((sortedIndexes input.watchedLvarIndexes).foldl
      (addCandidate input.maxCandidates.toNat (rowsByIndex input.lvars)) [])

def afterVisible (cursor : Int) : List Int × Int :=
  addRotating input.maxCandidates.toNat (rowsByIndex input.lvars) input.prioritySelected input.visibleList cursor

def remaining (cursor : Int) : List Int := (orderedLocals input.lvars).filter (· ∉ (input.afterVisible cursor).1)

theorem select_eq (cursor : Int) :
    input.select cursor =
      addRotating input.maxCandidates.toNat (rowsByIndex input.lvars) (input.afterVisible cursor).1
        (input.remaining cursor) (input.afterVisible cursor).2 := rfl

theorem nodup_orderedLocals (lvars : List VariableRecord) : (orderedLocals lvars).Nodup :=
  (List.perm_insertionSort (· ≤ ·) _).nodup_iff.mpr (rowsByIndex lvars).nodup

theorem isLocal_of_ordered {lvars : List VariableRecord} {index : Int} (h : index ∈ orderedLocals lvars) :
    isLocal (rowsByIndex lvars) index = true :=
  (isSome_rowsByIndex lvars index).mpr ((mem_orderedLocals lvars index).mp h)

theorem mem_visibleList (index : Int) : index ∈ input.visibleList ↔ index ∈ input.visible := by
  rw [visibleList, List.mem_filter, mem_orderedLocals, visible, Finset.mem_filter]

theorem nodup_visibleList : input.visibleList.Nodup := (nodup_orderedLocals input.lvars).filter _

theorem local_of_visibleList {index : Int} (h : index ∈ input.visibleList) :
    isLocal (rowsByIndex input.lvars) index = true := isLocal_of_ordered (List.mem_of_mem_filter h)

theorem length_visibleList : input.visibleList.length = input.visible.card := by
  rw [← List.toFinset_card_of_nodup input.nodup_visibleList]
  refine congrArg Finset.card (Finset.ext fun index => ?_)
  rw [List.mem_toFinset, mem_visibleList]

theorem priority_passes :
    Passes input.maxCandidates.toNat (isLocal (rowsByIndex input.lvars))
      [sortedIndexes input.watchedLvarIndexes, (orderedLocals input.lvars).filter (wasObserved input.previousRows)] []
      input.prioritySelected :=
  .pass (fills_addCandidate _ _ _ _) (.pass (fills_addCandidate _ _ _ _) (.done _))

theorem nodup_prioritySelected : input.prioritySelected.Nodup := input.priority_passes.fills.nodup List.nodup_nil

theorem fills_afterVisible (cursor : Int) :
    Fills input.maxCandidates.toNat (isLocal (rowsByIndex input.lvars)) input.prioritySelected input.visibleList
      (input.afterVisible cursor).1 := fills_addRotating _ _ _ _ cursor

theorem nodup_afterVisible (cursor : Int) : (input.afterVisible cursor).1.Nodup :=
  (input.fills_afterVisible cursor).nodup input.nodup_prioritySelected

variable {input}

theorem toFinset_prioritySelected (hroom : (input.priority.card : Int) < input.maxCandidates) :
    input.prioritySelected.toFinset = input.priority := by
  have hall : ∀ index, index ∈ input.priority ↔
      index ∈ [sortedIndexes input.watchedLvarIndexes,
        (orderedLocals input.lvars).filter (wasObserved input.previousRows)].flatten ∧
        isLocal (rowsByIndex input.lvars) index = true := by
    intro index
    rw [priority, Finset.mem_filter, ← isSome_rowsByIndex, List.flatten_cons, List.flatten_cons, List.flatten_nil,
      List.append_nil, List.mem_append, List.mem_filter, mem_sortedIndexes, mem_orderedLocals, ← isSome_rowsByIndex,
      isLocal]
    refine ⟨fun h => ⟨h.2.imp_right fun hobserved => ⟨h.1, hobserved⟩, h.1⟩, fun h => ⟨h.2, h.1.imp_right And.right⟩⟩
  obtain ⟨hsub, hcard⟩ := input.priority_passes.card hall
  refine Finset.eq_of_subset_of_card_le hsub ?_
  omega

theorem length_prioritySelected (hroom : (input.priority.card : Int) < input.maxCandidates) :
    input.prioritySelected.length = input.priority.card := by
  rw [← toFinset_prioritySelected hroom, List.toFinset_card_of_nodup input.nodup_prioritySelected]

/-- The visible locals without a priority. -/
def newlyVisible (input : SelectionInput) : Finset Int := input.visible \ input.priority

/-- The places left for locals without a priority. -/
def room (input : SelectionInput) : Nat := input.maxCandidates.toNat - input.priority.card

theorem card_union (input : SelectionInput) :
    (input.priority ∪ input.visible).card = input.priority.card + input.newlyVisible.card := by
  rw [newlyVisible, ← Finset.union_sdiff_self_eq_union, Finset.card_union_of_disjoint Finset.disjoint_sdiff]

theorem afterVisible_sub (hroom : (input.priority.card : Int) < input.maxCandidates) (cursor : Int) :
    (input.afterVisible cursor).1.toFinset ⊆ input.priority ∪ input.visible := by
  intro index hmem
  rcases (input.fills_afterVisible cursor).source index (List.mem_toFinset.mp hmem) with hold | ⟨hvisible, -⟩
  · rw [← List.mem_toFinset, toFinset_prioritySelected hroom] at hold
    exact Finset.mem_union_left _ hold
  · exact Finset.mem_union_right _ ((input.mem_visibleList index).mp hvisible)

/-- A visible pass that leaves room selects every visible local. -/
theorem afterVisible_all (hroom : (input.priority.card : Int) < input.maxCandidates) {cursor : Int}
    (h : (input.afterVisible cursor).1.length < input.maxCandidates.toNat) :
    (input.afterVisible cursor).1.toFinset = input.priority ∪ input.visible := by
  refine Finset.Subset.antisymm (afterVisible_sub hroom cursor) fun index hmem => List.mem_toFinset.mpr ?_
  rcases Finset.mem_union.mp hmem with hpriority | hvisible
  · rw [← toFinset_prioritySelected hroom, List.mem_toFinset] at hpriority
    exact (input.fills_afterVisible cursor).keeps.subset hpriority
  · have hoffered := (input.mem_visibleList index).mpr hvisible
    exact (input.fills_afterVisible cursor).full h index hoffered (input.local_of_visibleList hoffered)

theorem length_afterVisible (hroom : (input.priority.card : Int) < input.maxCandidates) (cursor : Int) :
    (input.afterVisible cursor).1.length = input.priority.card + min input.room input.newlyVisible.card := by
  have hcard := List.toFinset_card_of_nodup (input.nodup_afterVisible cursor)
  have hle := Finset.card_le_card (afterVisible_sub hroom cursor)
  have hwithin : (input.afterVisible cursor).1.length ≤ input.maxCandidates.toNat := by
    refine (input.fills_afterVisible cursor).within ?_
    rw [length_prioritySelected hroom]
    omega
  rw [card_union, hcard] at hle
  rcases Nat.lt_or_eq_of_le hwithin with hmore | hfull
  · rw [afterVisible_all hroom hmore, card_union] at hcard
    rw [room]
    omega
  · rw [room]
    omega

/-- The step from one call to the next when nothing but the visible pass moves the cursor. -/
theorem select_of_done (hroom : (input.priority.card : Int) < input.maxCandidates)
    (h : input.rest = ∅ ∨ input.room ≤ input.newlyVisible.card) (cursor : Int) :
    input.select cursor = input.afterVisible cursor := by
  rw [select_eq, addRotating_done]
  have hlength := length_afterVisible hroom cursor
  have hroom' : input.room + input.priority.card = input.maxCandidates.toNat := by
    rw [room]
    omega
  rcases Nat.lt_or_ge (input.afterVisible cursor).1.length input.maxCandidates.toNat with hmore | hfull
  · have hnone := h.resolve_right (by omega)
    refine .inl (List.filter_eq_nil_iff.mpr fun index hordered hleft => ?_)
    have hmem : index ∈ input.rest := by
      rw [rest, Finset.mem_sdiff, ← afterVisible_all hroom hmore, List.mem_toFinset]
      exact ⟨(mem_orderedLocals _ index).mp hordered, of_decide_eq_true hleft⟩
    rw [hnone] at hmem
    exact Finset.notMem_empty index hmem
  · exact .inr hfull

def restList (input : SelectionInput) : List Int :=
  (orderedLocals input.lvars).filter (· ∉ input.priority ∪ input.visible)

theorem mem_restList (index : Int) : index ∈ input.restList ↔ index ∈ input.rest := by
  rw [restList, List.mem_filter, mem_orderedLocals, rest, Finset.mem_sdiff, decide_eq_true_eq]

theorem nodup_restList : input.restList.Nodup := (nodup_orderedLocals input.lvars).filter _

theorem length_restList (input : SelectionInput) : input.restList.length = input.rest.card := by
  rw [← List.toFinset_card_of_nodup nodup_restList]
  refine congrArg Finset.card (Finset.ext fun index => ?_)
  rw [List.mem_toFinset, mem_restList]

/-- With room beyond the visible locals, the last pass is a rotation over the rest. -/
theorem select_turns (hroom : (input.priority.card : Int) < input.maxCandidates)
    (hmore : input.newlyVisible.card < input.room) (hrest : input.rest.Nonempty) (cursor : Int) :
    ∃ t, t = min (input.room - input.newlyVisible.card) input.rest.card ∧
      (input.select cursor).2 =
        (((startOf input.restList (input.afterVisible cursor).2 + t) % input.rest.card : Nat) : Int) ∧
      ∀ index ∈ input.rest, index ∈ (input.select cursor).1 ↔
        index ∈ window input.restList (input.afterVisible cursor).2 t := by
  have hlength := length_afterVisible hroom cursor
  have hbudget : input.room + input.priority.card = input.maxCandidates.toNat := by
    rw [room]
    omega
  have hleft : (input.afterVisible cursor).1.length < input.maxCandidates.toNat := by omega
  have hall := afterVisible_all hroom hleft
  have hremaining : input.remaining cursor = input.restList := by
    refine List.filter_congr fun index _ => decide_eq_decide.mpr (not_congr ?_)
    rw [← hall, List.mem_toFinset]
  have hlocal : ∀ index ∈ input.restList, isLocal (rowsByIndex input.lvars) index = true :=
    fun index hmem => isLocal_of_ordered (List.mem_of_mem_filter hmem)
  have hnew : ∀ index ∈ input.restList, index ∉ (input.afterVisible cursor).1 := by
    intro index hmem
    rw [← List.mem_toFinset, hall]
    exact of_decide_eq_true (List.mem_filter.mp hmem).2
  have hne : input.restList ≠ [] := by
    obtain ⟨index, hmem⟩ := hrest
    exact List.ne_nil_of_mem ((mem_restList index).mpr hmem)
  obtain ⟨t, hturns⟩ := addRotating_turns input.maxCandidates.toNat (rowsByIndex input.lvars)
    (input.afterVisible cursor).2 hne hleft
  have ht := hturns.eq_min nodup_restList hlocal hnew
  rw [length_restList] at ht
  refine ⟨t, by omega, ?_, fun index hmem => ?_⟩
  · rw [select_eq, hremaining, hturns.next, length_restList]
  · rw [select_eq, hremaining, hturns.mem_iff hlocal]
    exact or_iff_right (hnew index ((mem_restList index).mpr hmem))

theorem afterVisible_none (h : input.visible = ∅) (cursor : Int) :
    input.afterVisible cursor = (input.prioritySelected, cursor) := by
  refine addRotating_done _ _ cursor (.inl (List.eq_nil_iff_forall_not_mem.mpr fun index hmem => ?_))
  rw [mem_visibleList, h] at hmem
  exact Finset.notMem_empty index hmem

theorem afterVisible_turns (hroom : (input.priority.card : Int) < input.maxCandidates) (h : input.visible.Nonempty)
    (cursor : Int) : ∃ t, Turns input.maxCandidates.toNat (rowsByIndex input.lvars) input.prioritySelected
      input.visibleList cursor t := by
  obtain ⟨index, hmem⟩ := h
  refine addRotating_turns _ _ cursor (List.ne_nil_of_mem ((input.mem_visibleList index).mpr hmem)) ?_
  rw [length_prioritySelected hroom]
  omega

/-- A visible pass that leaves room turns once around, so it puts the cursor back to where it started. -/
theorem afterVisible_cursor (hroom : (input.priority.card : Int) < input.maxCandidates) (h : input.visible.Nonempty)
    (hmore : input.newlyVisible.card < input.room) (cursor : Int) :
    (input.afterVisible cursor).2 = cursor % input.visible.card := by
  obtain ⟨t, hturns⟩ := afterVisible_turns hroom h cursor
  have hlength := length_afterVisible hroom cursor
  have hbudget : input.room + input.priority.card = input.maxCandidates.toNat := by
    rw [room]
    omega
  have hround : t = input.visibleList.length := by
    by_contra hne
    have hstop := hturns.stop (Nat.lt_of_le_of_ne hturns.le hne)
    change input.maxCandidates.toNat ≤ (input.afterVisible cursor).1.length at hstop
    omega
  have hpos : 0 < input.visible.card := Finset.card_pos.mpr h
  have hnonneg := Int.emod_nonneg cursor (Int.natCast_ne_zero.mpr hpos.ne')
  have hlt := Int.emod_lt_of_pos cursor (Int.natCast_pos.mpr hpos)
  rw [afterVisible, hturns.next, hround, startOf, length_visibleList, Nat.add_mod_right, Nat.mod_eq_of_lt (by omega)]
  exact Int.toNat_of_nonneg hnonneg

end passes

/-- When every local gets its turn: nothing is left for the last pass, no visible row shares its cursor, or the visible
rows leave room and the cursor's residue class comes to the end of the last pass's list. -/
def Reaches (fallbackCursor : Int) : Prop :=
  input.rest = ∅ ∨ input.visible = ∅ ∨
    input.newlyVisible.card < input.room ∧
      input.rest.card ≤ greatest input.visible.card (input.room - input.newlyVisible.card)
        (fallbackCursor % input.visible.card).toNat + (input.room - input.newlyVisible.card)

section coverage
variable {input}

theorem startOf_cast (indexes : List Int) (n : Nat) : startOf indexes n = n % indexes.length := by
  rw [startOf, ← Int.natCast_mod, Int.toNat_natCast]

theorem mem_select_of_afterVisible {index cursor : Int} (h : index ∈ (input.afterVisible cursor).1) :
    index ∈ (input.select cursor).1 :=
  (fills_addRotating _ _ _ _ _).keeps.subset h

/-- Without room beyond the visible locals the rest is never selected. -/
theorem not_mem_select (hroom : (input.priority.card : Int) < input.maxCandidates)
    (hfull : input.room ≤ input.newlyVisible.card) {index : Int} (hrest : index ∈ input.rest) (cursor : Int) :
    index ∉ (input.select cursor).1 := by
  rw [select_of_done hroom (.inr hfull)]
  intro hmem
  exact (Finset.mem_sdiff.mp hrest).2 (afterVisible_sub hroom cursor (List.mem_toFinset.mpr hmem))

/-- The visible locals get their turns when nothing else moves the cursor. -/
theorem visible_reached (hroom : (input.priority.card : Int) < input.maxCandidates) (hrest : input.rest = ∅)
    (fallbackCursor : Int) {index : Int} (h : index ∈ input.visible) :
    ∃ k < input.visible.card, index ∈ input.selectedAt fallbackCursor k := by
  choose turns hturns using afterVisible_turns hroom ⟨index, h⟩
  have hpos : ∀ k, startOf input.visibleList (input.cursorAt fallbackCursor (k + 1)) =
      (startOf input.visibleList (input.cursorAt fallbackCursor k) + turns (input.cursorAt fallbackCursor k)) %
        input.visibleList.length := by
    intro k
    rw [cursorAt, select_of_done hroom (.inl hrest), afterVisible, (hturns _).next, startOf_cast, Nat.mod_mod]
  obtain ⟨e, he, heq⟩ := List.getElem_of_mem ((input.mem_visibleList index).mpr h)
  obtain ⟨k, hk, j, hj, hwindow⟩ :=
    @windows_reach _ (fun k => startOf input.visibleList (input.cursorAt fallbackCursor k))
    (fun k => turns (input.cursorAt fallbackCursor k)) hpos (fun k => (hturns _).pos) e he
  refine ⟨k, length_visibleList input ▸ hk, mem_select_of_afterVisible ?_⟩
  refine (hturns _).selects (fun _ => local_of_visibleList input) index ?_
  rw [mem_window_iff (hturns _).le]
  exact ⟨j, hj, by rw [hwindow, List.getElem?_eq_getElem he, heq]⟩

/-- The rest gets its turns when no visible local shares its cursor. -/
theorem rest_reached (hroom : (input.priority.card : Int) < input.maxCandidates) (hvisible : input.visible = ∅)
    (fallbackCursor : Int) {index : Int} (h : index ∈ input.rest) :
    ∃ k < input.rest.card, index ∈ input.selectedAt fallbackCursor k := by
  have hmore : input.newlyVisible.card < input.room := by
    rw [newlyVisible, hvisible, Finset.empty_sdiff, Finset.card_empty, room]
    omega
  choose turns hturns hnext hmem using select_turns hroom hmore ⟨index, h⟩
  have hpos : ∀ k, startOf input.restList (input.cursorAt fallbackCursor (k + 1)) =
      (startOf input.restList (input.cursorAt fallbackCursor k) + turns (input.cursorAt fallbackCursor k)) %
        input.restList.length := by
    intro k
    rw [cursorAt, hnext, startOf_cast, afterVisible_none hvisible, length_restList, Nat.mod_mod]
  have hlen : ∀ k, 0 < turns (input.cursorAt fallbackCursor k) := by
    intro k
    rw [hturns]
    exact Nat.lt_min.mpr ⟨Nat.sub_pos_of_lt hmore, Finset.card_pos.mpr ⟨index, h⟩⟩
  obtain ⟨e, he, heq⟩ := List.getElem_of_mem ((mem_restList index).mpr h)
  obtain ⟨k, hk, j, hj, hwindow⟩ := @windows_reach _ (fun k => startOf input.restList (input.cursorAt fallbackCursor k))
    (fun k => turns (input.cursorAt fallbackCursor k)) hpos hlen e he
  refine ⟨k, length_restList input ▸ hk, (hmem _ index h).mpr ?_⟩
  have hle : turns (input.cursorAt fallbackCursor k) ≤ input.restList.length := by
    rw [hturns, length_restList]
    exact Nat.min_le_right _ _
  rw [afterVisible_none hvisible, mem_window_iff hle]
  exact ⟨j, hj, by rw [hwindow, List.getElem?_eq_getElem he, heq]⟩

section sharing
variable (hroom : (input.priority.card : Int) < input.maxCandidates) (hvisible : input.visible.Nonempty)
variable (hrest : input.rest.Nonempty) (hmore : input.newlyVisible.card < input.room) (fallbackCursor : Int)

/-- The cursor a call's last pass gets. -/
def sharedCursor (input : SelectionInput) (fallbackCursor : Int) (k : Nat) : Nat :=
  (input.cursorAt fallbackCursor k % input.visible.card).toNat

include hroom hvisible hmore in
theorem afterVisible_sharedCursor (k : Nat) :
    (input.afterVisible (input.cursorAt fallbackCursor k)).2 = input.sharedCursor fallbackCursor k := by
  have hpos : (input.visible.card : Int) ≠ 0 := Int.natCast_ne_zero.mpr (Finset.card_pos.mpr hvisible).ne'
  rw [afterVisible_cursor hroom hvisible hmore, sharedCursor, Int.toNat_of_nonneg (Int.emod_nonneg _ hpos)]

include hroom hvisible hrest hmore in
theorem shared_sharedCursor :
    Shared input.visible.card input.rest.card (input.room - input.newlyVisible.card)
      (input.sharedCursor fallbackCursor) := by
  have hpos : 0 < input.visible.card := Finset.card_pos.mpr hvisible
  refine ⟨?_, fun k => ?_⟩
  · have hlt := Int.emod_lt_of_pos fallbackCursor (Int.natCast_pos.mpr hpos)
    change (fallbackCursor % input.visible.card).toNat < input.visible.card
    omega
  · obtain ⟨t, ht, hnext, -⟩ := select_turns hroom hmore hrest (input.cursorAt fallbackCursor k)
    rw [afterVisible_sharedCursor hroom hvisible hmore, startOf_cast, length_restList, ht] at hnext
    rw [sharedCursor, cursorAt, hnext, ← Int.natCast_mod, Int.toNat_natCast]

include hroom hvisible hrest hmore in
theorem mem_selectedAt_iff {index : Int} (h : index ∈ input.rest) (k : Nat) :
    index ∈ input.selectedAt fallbackCursor k ↔
      ∃ j < min (input.room - input.newlyVisible.card) input.rest.card,
        input.restList[(input.sharedCursor fallbackCursor k % input.rest.card + j) % input.rest.card]? =
        some index := by
  obtain ⟨t, ht, -, hmem⟩ := select_turns hroom hmore hrest (input.cursorAt fallbackCursor k)
  have hle : t ≤ input.restList.length := by
    rw [ht, length_restList]
    exact Nat.min_le_right _ _
  rw [selectedAt, hmem index h, mem_window_iff hle, afterVisible_sharedCursor hroom hvisible hmore, startOf_cast,
    length_restList, ht]

include hroom hvisible hrest hmore in
/-- The rest, where its rotation shares the cursor with the visible locals. -/
theorem rest_reached_iff {n : Nat} (hn : input.visible.card + input.rest.card ≤ n) :
    (∀ index ∈ input.rest, ∃ k < n, index ∈ input.selectedAt fallbackCursor k) ↔
      input.rest.card ≤ greatest input.visible.card (input.room - input.newlyVisible.card)
        (fallbackCursor % input.visible.card).toNat + (input.room - input.newlyVisible.card) := by
  have hshared := shared_sharedCursor hroom hvisible hrest hmore fallbackCursor
  have hreaches := hshared.reaches_iff (Nat.sub_pos_of_lt hmore) (Finset.card_pos.mpr hrest) hn
  refine Iff.trans ⟨fun h e he => ?_, fun h index hindex => ?_⟩ hreaches
  · have hlt : e < input.restList.length := length_restList input ▸ he
    have hmem := (mem_restList _).mp (List.getElem_mem hlt)
    obtain ⟨k, hk, hselected⟩ := h _ hmem
    obtain ⟨j, hj, heq⟩ := (mem_selectedAt_iff hroom hvisible hrest hmore fallbackCursor hmem k).mp hselected
    refine ⟨k, hk, j, hj, ((List.getElem?_inj hlt nodup_restList).mp ?_).symm⟩
    rw [heq, List.getElem?_eq_getElem hlt]
  · obtain ⟨e, he, heq⟩ := List.getElem_of_mem ((mem_restList index).mpr hindex)
    obtain ⟨k, hk, j, hj, hposition⟩ := h e (length_restList input ▸ he)
    refine ⟨k, hk, (mem_selectedAt_iff hroom hvisible hrest hmore fallbackCursor hindex k).mpr ⟨j, hj, ?_⟩⟩
    rw [hposition, List.getElem?_eq_getElem he, heq]

end sharing
theorem selected_first (hroom : (input.priority.card : Int) < input.maxCandidates) (fallbackCursor : Int) {index : Int}
    (h : index ∈ input.priority) : index ∈ input.selectedAt fallbackCursor 0 := by
  rw [← toFinset_prioritySelected hroom, List.mem_toFinset] at h
  exact mem_select_of_afterVisible ((input.fills_afterVisible _).keeps.subset h)

theorem visible_first (hroom : (input.priority.card : Int) < input.maxCandidates)
    (hmore : input.newlyVisible.card < input.room) (fallbackCursor : Int) {index : Int} (h : index ∈ input.visible) :
    index ∈ input.selectedAt fallbackCursor 0 := by
  have hlength := length_afterVisible hroom fallbackCursor
  have hbudget : input.room + input.priority.card = input.maxCandidates.toNat := by
    rw [room]
    omega
  refine mem_select_of_afterVisible (List.mem_toFinset.mp ?_)
  rw [cursorAt, afterVisible_all hroom (by omega)]
  exact Finset.mem_union_right _ h

theorem visible_add_rest_le (input : SelectionInput) :
    input.visible.card + input.rest.card ≤ (localIndexes input.lvars).card := by
  have hdisjoint : Disjoint input.visible input.rest := by
    rw [rest, Finset.disjoint_left]
    exact fun index hvisible hrest => (Finset.mem_sdiff.mp hrest).2 (Finset.mem_union_right _ hvisible)
  rw [← Finset.card_union_of_disjoint hdisjoint]
  exact Finset.card_le_card (Finset.union_subset (Finset.filter_subset _ _) Finset.sdiff_subset)

end coverage

section cache
variable (functionEa : Int) (pcSeq currentEa : Nat → Int) (cache : AnalysisSelectionCache)

/-- The cache before the call at the function's next PC. -/
def cacheAt : Nat → AnalysisSelectionCache
  | 0 => cache
  | k + 1 => ((cacheAt k).select (pcSeq k) functionEa (currentEa k) input.lvars input.previousRows input.activeFilter
      input.watchedLvarIndexes input.maxCandidates).2

theorem select_of_new_pc {cache : AnalysisSelectionCache} {pcSeq : Int}
    (h : ∀ key, cache.key = some key → key.pcSeq ≠ pcSeq) (currentEa : Int) :
    let answer := cache.select pcSeq functionEa currentEa input.lvars input.previousRows input.activeFilter
      input.watchedLvarIndexes input.maxCandidates
    let cursor := (cache.cursorByFunction.get? functionEa).getD 0
    answer.1 = (input.select cursor).1 ∧
      (answer.2.cursorByFunction.get? functionEa).getD 0 = (input.select cursor).2 ∧
      ∀ key, answer.2.key = some key → key.pcSeq = pcSeq := by
  rw [AnalysisSelectionCache.select]
  dsimp only
  rw [if_neg fun hkey => h _ hkey rfl]
  refine ⟨rfl, ?_, fun key hkey => ?_⟩
  · rw [Dict.get?_set_self]
    rfl
  · rw [← Option.some.inj hkey]

/-- The cache threads the cursor through the calls at successive PCs. -/
theorem cache_selects (hfirst : ∀ key, cache.key = some key → key.pcSeq ≠ pcSeq 0)
    (hchange : ∀ k, pcSeq k ≠ pcSeq (k + 1)) (k : Nat) :
    ((cacheAt input functionEa pcSeq currentEa cache k).select (pcSeq k) functionEa (currentEa k) input.lvars
      input.previousRows input.activeFilter input.watchedLvarIndexes input.maxCandidates).1 =
      input.selectedAt ((cache.cursorByFunction.get? functionEa).getD 0) k := by
  have hstate : ∀ k, (∀ key, (cacheAt input functionEa pcSeq currentEa cache k).key = some key → key.pcSeq ≠ pcSeq k) ∧
      ((cacheAt input functionEa pcSeq currentEa cache k).cursorByFunction.get? functionEa).getD 0 =
        input.cursorAt ((cache.cursorByFunction.get? functionEa).getD 0) k := by
    intro k
    induction k with
    | zero => exact ⟨hfirst, rfl⟩
    | succ k ih =>
      obtain ⟨-, hcursor, hkey⟩ := select_of_new_pc input functionEa ih.1 (currentEa k)
      refine ⟨fun key hsome => (hkey key hsome).symm ▸ hchange k, ?_⟩
      rw [cacheAt, hcursor, ih.2, cursorAt]
  have hanswer := (select_of_new_pc input functionEa (hstate k).1 (currentEa k)).1
  rw [hanswer, (hstate k).2, selectedAt]

end cache

/-- Every local is selected within as many calls as there are locals exactly when the shared cursor reaches them. -/
theorem every_local_selected_iff (input : SelectionInput) (fallbackCursor : Int)
    (hroom : (input.priority.card : Int) < input.maxCandidates) :
    (∀ index ∈ localIndexes input.lvars, ∃ k < (localIndexes input.lvars).card,
      index ∈ input.selectedAt fallbackCursor k) ↔ input.Reaches fallbackCursor := by
  have hrestLocal : ∀ index ∈ input.rest, index ∈ localIndexes input.lvars :=
    fun index hindex => (Finset.mem_sdiff.mp hindex).1
  constructor
  · intro hall
    rcases Finset.eq_empty_or_nonempty input.rest with hnone | hrest
    · exact .inl hnone
    · rcases Finset.eq_empty_or_nonempty input.visible with hnone | hvisible
      · exact .inr (.inl hnone)
      · have hmore : input.newlyVisible.card < input.room := by
          obtain ⟨index, hindex⟩ := hrest
          obtain ⟨k, -, hselected⟩ := hall index (hrestLocal index hindex)
          by_contra hfull
          exact not_mem_select hroom (Nat.le_of_not_lt hfull) hindex _ hselected
        refine .inr (.inr ⟨hmore, ?_⟩)
        rw [← rest_reached_iff hroom hvisible hrest hmore fallbackCursor (visible_add_rest_le input)]
        exact fun index hindex => hall index (hrestLocal index hindex)
  · intro hreaches index hindex
    have hcalls : 0 < (localIndexes input.lvars).card := Finset.card_pos.mpr ⟨index, hindex⟩
    have hcard := visible_add_rest_le input
    by_cases hpriority : index ∈ input.priority
    · exact ⟨0, hcalls, selected_first hroom fallbackCursor hpriority⟩
    · by_cases hrest : index ∈ input.rest
      · rcases hreaches with hnone | hnone | ⟨hmore, hcursor⟩
        · rw [hnone] at hrest
          exact absurd hrest (Finset.notMem_empty index)
        · obtain ⟨k, hk, hselected⟩ := rest_reached hroom hnone fallbackCursor hrest
          exact ⟨k, by omega, hselected⟩
        · rcases Finset.eq_empty_or_nonempty input.visible with hnone | hvisible
          · obtain ⟨k, hk, hselected⟩ := rest_reached hroom hnone fallbackCursor hrest
            exact ⟨k, by omega, hselected⟩
          · exact (rest_reached_iff hroom hvisible ⟨index, hrest⟩ hmore fallbackCursor hcard).mpr hcursor index hrest
      · have hvisible : index ∈ input.visible := by
          by_contra hnot
          exact hrest (Finset.mem_sdiff.mpr ⟨hindex, fun h => (Finset.mem_union.mp h).elim hpriority hnot⟩)
        rcases Nat.lt_or_ge input.newlyVisible.card input.room with hmore | hfull
        · exact ⟨0, hcalls, visible_first hroom hmore fallbackCursor hvisible⟩
        · have hnone : input.rest = ∅ := by
            rcases hreaches with hnone | hnone | ⟨hmore, -⟩
            · exact hnone
            · rw [hnone] at hvisible
              exact absurd hvisible (Finset.notMem_empty index)
            · omega
          obtain ⟨k, hk, hselected⟩ := visible_reached hroom hnone fallbackCursor hvisible
          exact ⟨k, by omega, hselected⟩

/-- One named local and two temporaries, with room for two locals a call. -/
def namedBesideTemporaries (activeFilter : RowFilter) : SelectionInput :=
  let row (index : Int) (name : String) : VariableRecord :=
    { lvarIndex := index, name := name, size := 8, isArg := false, argIndex := none }
  { lvars := [row 0 "count", row 1 "v1", row 2 "v2"], previousRows := [], activeFilter := activeFilter
    watchedLvarIndexes := [], maxCandidates := 2 }

theorem every_local_selected_iff_all :
    (∀ index ∈ localIndexes (namedBesideTemporaries .all).lvars,
      ∃ k < (localIndexes (namedBesideTemporaries .all).lvars).card,
      index ∈ (namedBesideTemporaries .all).selectedAt 0 k) ↔ (namedBesideTemporaries .all).Reaches 0 :=
  every_local_selected_iff (namedBesideTemporaries .all) 0 (by decide)

/-- The visible pass puts the shared cursor back to zero every time, and the second temporary is never selected. -/
theorem temporary_starved :
    ¬ ∀ (input : SelectionInput) (fallbackCursor : Int), (input.priority.card : Int) < input.maxCandidates →
      ∀ index ∈ localIndexes input.lvars, ∃ k < (localIndexes input.lvars).card,
        index ∈ input.selectedAt fallbackCursor k := by
  intro h
  have hselected := h (namedBesideTemporaries .namedLocals) 0 (by decide) 2 (by decide)
  exact absurd hselected (by decide +kernel)

end SelectionInput
end DynvarSync.Ida
