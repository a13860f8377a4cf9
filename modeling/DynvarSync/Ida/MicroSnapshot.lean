import DynvarSync.Ida.MicroBlocks
import DynvarSync.Ida.NativeSnapshot

/-! What the collected microcode holds: the linked instruction lists as Hex-Rays keeps
them, the edges of the blocks, and when the collection succeeds. -/
namespace DynvarSync.Ida
open Lib

theorem microEdgeIds_ok_iff (qty count : Int) (edge : Nat → Int) (ids : List Int) :
    microEdgeIds qty count edge = .ok ids ↔ (0 ≤ count ∧ count ≤ qty) ∧
      (∀ i < count.toNat, 0 ≤ edge i ∧ edge i < qty) ∧ ids = sortedIds ((List.range count.toNat).map edge) := by
  rw [microEdgeIds]
  split
  · rename_i hbad
    simp only [reduceCtorEq, false_iff, not_and]
    omega
  · rename_i hgood
    have hcount : 0 ≤ count ∧ count ≤ qty := by omega
    dsimp only
    cases hfind : ((List.range count.toNat).map edge).find? fun edgeId => decide (edgeId < 0 ∨ qty ≤ edgeId) with
    | none =>
      have hall : ∀ i < count.toNat, 0 ≤ edge i ∧ edge i < qty := by
        intro i hi
        have hno := List.find?_eq_none.mp hfind (edge i) (List.mem_map_of_mem (List.mem_range.mpr hi))
        rw [decide_eq_true_eq, not_or] at hno
        omega
      rw [Except.ok.injEq]
      exact ⟨fun h => ⟨hcount, hall, h.symm⟩, fun h => h.2.2.symm⟩
    | some edgeId =>
      obtain ⟨i, hi, rfl⟩ := List.mem_map.mp (List.mem_of_find?_eq_some hfind)
      have hbad : edge i < 0 ∨ qty ≤ edge i := by simpa using List.find?_some hfind
      simp only [reduceCtorEq, false_iff, not_and]
      intro _ hall
      have := hall i (List.mem_range.mp hi)
      omega

namespace Mba
variable {ι : Type} (mba : Mba ι)

/-- The handles from one of them up to the first that is the tail. -/
inductive ListsTo (tail : ι) : Option ι → List ι → Prop
  | last {current : ι} : mba.same current tail = true → ListsTo tail (some current) [current]
  | next {current : ι} {rest : List ι} : mba.same current tail = false → ListsTo tail (mba.next current) rest →
      ListsTo tail (some current) (current :: rest)

variable {mba}

theorem topInstructionsFrom_ok_iff (tail : ι) (budget : Nat) (seen : List Int) (current : Option ι)
    (handles : List ι) :
    mba.topInstructionsFrom tail budget seen current = .ok handles ↔ mba.ListsTo tail current handles ∧
      (handles.map mba.identity).Nodup ∧ (∀ handle ∈ handles, mba.identity handle ∉ seen) ∧
      handles.length ≤ budget := by
  induction budget generalizing seen current handles with
  | zero =>
    cases current with
    | none =>
      rw [topInstructionsFrom]
      simp only [reduceCtorEq, false_iff, not_and]
      intro h
      cases h
    | some current =>
      rw [topInstructionsFrom]
      simp only [reduceCtorEq, false_iff, not_and, Nat.le_zero, List.length_eq_zero_iff]
      intro h _ _
      cases h <;> exact List.cons_ne_nil _ _
  | succ budget ih =>
    cases current with
    | none =>
      rw [topInstructionsFrom]
      simp only [reduceCtorEq, false_iff, not_and]
      intro h
      cases h
    | some current =>
      rw [topInstructionsFrom]
      by_cases hseen : mba.identity current ∈ seen
      · rw [if_pos hseen]
        simp only [reduceCtorEq, false_iff, not_and]
        intro h _ hnew
        cases h with
        | last _ => exact absurd hseen (hnew current (List.mem_cons_self ..))
        | next _ _ => exact absurd hseen (hnew current (List.mem_cons_self ..))
      rw [if_neg hseen]
      cases hsame : mba.same current tail with
      | true =>
        rw [if_pos rfl, Except.ok.injEq]
        constructor
        · rintro rfl
          refine ⟨.last hsame, List.nodup_singleton _, fun handle h => ?_, by simp⟩
          rw [List.mem_singleton.mp h]
          exact hseen
        · rintro ⟨h, _⟩
          cases h with
          | last _ => rfl
          | next hdiffer _ =>
            rw [hsame] at hdiffer
            cases hdiffer
      | false =>
        rw [if_neg Bool.false_ne_true, map_ok_iff]
        constructor
        · rintro ⟨rest, hrest, rfl⟩
          obtain ⟨hlists, hnodup, hnew, hlength⟩ := (ih _ _ _).mp hrest
          refine ⟨.next hsame hlists, List.nodup_cons.mpr ⟨?_, hnodup⟩, ?_, Nat.succ_le_succ hlength⟩
          · rintro hmem
            obtain ⟨handle, hhandle, heq⟩ := List.mem_map.mp hmem
            exact hnew handle hhandle (heq ▸ List.mem_cons_self ..)
          · intro handle hhandle
            rcases List.mem_cons.mp hhandle with rfl | hhandle
            · exact hseen
            · exact fun h => hnew handle hhandle (List.mem_cons_of_mem _ h)
        · rintro ⟨hlists, hnodup, hnew, hlength⟩
          cases hlists with
          | last hlast =>
            rw [hsame] at hlast
            cases hlast
          | @next _ rest _ hrest =>
            obtain ⟨hfresh, hnodup⟩ := List.nodup_cons.mp hnodup
            refine ⟨rest, (ih _ _ _).mpr ⟨hrest, hnodup, fun handle hhandle hmem => ?_,
              Nat.le_of_succ_le_succ hlength⟩, rfl⟩
            rcases List.mem_cons.mp hmem with heq | hmem
            · exact hfresh (heq ▸ List.mem_map_of_mem hhandle)
            · exact hnew handle (List.mem_cons_of_mem _ hhandle) hmem

/-- The list of a block: empty, or from its head to its tail, without a repeated instruction. -/
inductive Lists (mba : Mba ι) (block : MicroBlock ι) (handles : List ι) : Prop
  | empty : block.head = none → block.tail = none → handles = [] → Lists mba block handles
  | linked {tail : ι} : block.tail = some tail → block.head.isSome → mba.ListsTo tail block.head handles →
      (handles.map mba.identity).Nodup → handles.length ≤ 100000 → Lists mba block handles

theorem topInstructions_ok_iff (block : MicroBlock ι) (handles : List ι) :
    mba.topInstructions block = .ok handles ↔ Lists mba block handles := by
  rw [topInstructions]
  cases hhead : block.head with
  | none =>
    cases htail : block.tail with
    | none =>
      rw [Except.ok.injEq]
      constructor
      · rintro rfl
        exact .empty hhead htail rfl
      · intro h
        cases h with
        | empty _ _ h => exact h.symm
        | linked h _ _ _ _ =>
          rw [htail] at h
          cases h
    | some tail =>
      simp only [reduceCtorEq, false_iff]
      intro h
      cases h with
      | empty _ h _ =>
        rw [htail] at h
        cases h
      | linked _ h _ _ _ =>
        rw [hhead] at h
        cases h
  | some head =>
    cases htail : block.tail with
    | none =>
      simp only [reduceCtorEq, false_iff]
      intro h
      cases h with
      | empty h _ _ =>
        rw [hhead] at h
        cases h
      | linked h _ _ _ _ =>
        rw [htail] at h
        cases h
    | some tail =>
      dsimp only
      rw [topInstructionsFrom_ok_iff]
      constructor
      · rintro ⟨hlists, hnodup, _, hlength⟩
        exact .linked htail (by rw [hhead]; rfl) (hhead ▸ hlists) hnodup hlength
      · intro h
        cases h with
        | empty h _ _ =>
          rw [hhead] at h
          cases h
        | linked h _ hlists hnodup hlength =>
          obtain rfl := Option.some.inj (htail.symm.trans h)
          exact ⟨hhead ▸ hlists, hnodup, fun _ _ => List.not_mem_nil, hlength⟩

/-- The edges of one direction are told with a count in range and ids of blocks. -/
structure EdgesOf (qty count : Int) (edge : Nat → Int) (ids : List Int) : Prop where
  counted : 0 ≤ count ∧ count ≤ qty
  inRange : ∀ i < count.toNat, 0 ≤ edge i ∧ edge i < qty
  ids : ids = sortedIds ((List.range count.toNat).map edge)

/-- What the collection keeps of one block. -/
structure CollectedBlock (mba : Mba ι) (serial : Nat) (data : MicroBlockData) : Prop where
  blockId : data.blockId = serial
  exists_block : ∃ block handles, mba.getMblock serial = some block ∧ block.serial = serial ∧
    Lists mba block handles ∧ EdgesOf mba.qty block.npred block.pred data.predecessors ∧
    EdgesOf mba.qty block.nsucc block.succ data.successors ∧
    List.Forall₂ (fun handle entry => mba.collectInstruction (mba.instruction handle) = .ok entry) handles
      data.instructions

theorem collectMicroBlock_ok_iff (serial : Nat) (data : MicroBlockData) :
    mba.collectMicroBlock serial = .ok data ↔ CollectedBlock mba serial data := by
  rw [collectMicroBlock]
  cases hblock : mba.getMblock serial with
  | none =>
    simp only [reduceCtorEq, false_iff]
    rintro ⟨_, block, handles, h, _⟩
    rw [hblock] at h
    cases h
  | some block =>
    dsimp only
    by_cases hserial : block.serial = serial
    · rw [if_neg (not_not.mpr hserial)]
      simp only [bind_ok_iff, topInstructions_ok_iff, microEdgeIds_ok_iff, mapM_ok_iff]
      constructor
      · rintro ⟨handles, hlists, predecessors, ⟨hpred, hpreds, hpredIds⟩, successors, ⟨hsucc, hsuccs, hsuccIds⟩,
          instructions, hcollected, h⟩
        cases h
        exact ⟨rfl, block, handles, hblock, hserial, hlists, ⟨hpred, hpreds, hpredIds⟩, ⟨hsucc, hsuccs, hsuccIds⟩,
          hcollected⟩
      · rintro ⟨hid, block', handles, h, _, hlists, ⟨hpred, hpreds, hpredIds⟩, ⟨hsucc, hsuccs, hsuccIds⟩, hcollected⟩
        obtain rfl := Option.some.inj (hblock.symm.trans h)
        refine ⟨handles, hlists, _, ⟨hpred, hpreds, rfl⟩, _, ⟨hsucc, hsuccs, rfl⟩, _, hcollected, ?_⟩
        rw [← hid, ← hpredIds, ← hsuccIds]
        rfl
    · rw [if_pos hserial]
      simp only [reduceCtorEq, false_iff]
      rintro ⟨_, block', handles, h, hserial', _⟩
      obtain rfl := Option.some.inj (hblock.symm.trans h)
      exact hserial hserial'

/-- The collected microcode: one block for every serial, each as Hex-Rays tells it, with matching edges. -/
structure Collected (mba : Mba ι) (blocks : Dict Int MicroBlockData) : Prop where
  nonempty : 0 < mba.qty
  keyed : ∀ id block, blocks.get? id = some block → block.blockId = id
  collected : List.Forall₂ (CollectedBlock mba) (List.range mba.qty.toNat) blocks.values
  reciprocal : EdgesMatch MicroBlockData.predecessors MicroBlockData.successors blocks

/-- The microcode is collected exactly when every serial has its block, every instruction list runs from head to
tail without a repetition, every operand walk ends normally, and the edges are in range and told at both ends. -/
theorem collectMicroBlocks_ok_iff (blocks : Dict Int MicroBlockData) :
    mba.collectMicroBlocks = .ok blocks ↔ Collected mba blocks := by
  rw [collectMicroBlocks]
  split
  · rename_i hempty
    simp only [reduceCtorEq, false_iff]
    intro h
    have := h.nonempty
    omega
  · rename_i hnonempty
    simp only [bind_ok_iff, mapM_ok_iff, collectMicroBlock_ok_iff]
    constructor
    · rintro ⟨collected, hcollected, _, hmatch, h⟩
      cases h
      have hids : collected.map MicroBlockData.blockId = (List.range mba.qty.toNat).map Nat.cast :=
        map_eq_of_forall₂ hcollected fun _ _ hof => hof.blockId
      have hnodup : (collected.map MicroBlockData.blockId).Nodup := by
        rw [hids]
        exact List.nodup_range.map fun _ _ h => Int.natCast_inj.mp h
      refine ⟨Int.not_le.mp hnonempty, fun _ _ h => (Dict.of_get?_byKey h).1, ?_,
        (validateCfgReciprocity_ok_iff _).mp hmatch⟩
      rw [Dict.values_byKey hnodup]
      exact hcollected
    · intro h
      refine ⟨blocks.values, h.collected, (), ?_, ?_⟩
      · rw [← Dict.eq_byKey h.keyed]
        exact (validateCfgReciprocity_ok_iff _).mpr h.reciprocal
      · exact congrArg Except.ok (Dict.eq_byKey h.keyed).symm

theorem Collected.block {blocks : Dict Int MicroBlockData} (h : Collected mba blocks) {id : Int}
    {block : MicroBlockData} (hb : blocks.get? id = some block) :
    0 ≤ id ∧ id < mba.qty ∧ CollectedBlock mba id.toNat block := by
  obtain ⟨serial, hserial, hof⟩ :=
    exists_of_forall₂_mem h.collected ((blocks.mem_values_iff block).mpr ⟨id, hb⟩)
  have hid := h.keyed id block hb
  have hlt := List.mem_range.mp hserial
  have hcast := hof.blockId
  obtain rfl : id.toNat = serial := by omega
  exact ⟨by omega, by omega, hof⟩

/-- A collected instruction's accesses are those its operand walk reports, at its mapped address. -/
theorem collectInstruction_ok {insn : MicroInstruction} {entry : CollectedInstruction}
    (h : mba.collectInstruction insn = .ok entry) :
    entry.instruction = insn ∧ collectLvarAccesses insn = .ok entry.access ∧ entry.ea = mba.realMicroEa insn.ea := by
  obtain ⟨access, haccess, rfl⟩ := map_ok_iff.mp h
  exact ⟨rfl, haccess, rfl⟩

theorem Collected.access {blocks : Dict Int MicroBlockData} (h : Collected mba blocks) {id : Int}
    {block : MicroBlockData} (hb : blocks.get? id = some block) {entry : CollectedInstruction}
    (hentry : entry ∈ block.instructions) : collectLvarAccesses entry.instruction = .ok entry.access := by
  obtain ⟨_, _, hof⟩ := h.block hb
  obtain ⟨_, handles, _, _, _, _, _, hcollected⟩ := hof.exists_block
  obtain ⟨handle, _, hhandle⟩ := exists_of_forall₂_mem hcollected hentry
  obtain ⟨hinsn, haccess, _⟩ := collectInstruction_ok hhandle
  rw [hinsn]
  exact haccess

end Mba

section exactPoint
variable {blocks : Dict Int MicroBlockData} (ea : Int)

/-- An instruction of the address stands at a position of a block. -/
def OccursAt (blocks : Dict Int MicroBlockData) (ea id : Int) (position : Nat) : Prop :=
  ∃ block entry, blocks.get? id = some block ∧ block.instructions[position]? = some entry ∧ entry.ea = some ea

/-- The instructions of the address are one run of one block, the run starting at the position. -/
structure ExactPoint (blocks : Dict Int MicroBlockData) (ea : Int) (block : MicroBlockData) (position : Nat) : Prop where
  present : blocks.get? block.blockId = some block
  run : ∃ length > 0, ∀ id place, OccursAt blocks ea id place ↔
    id = block.blockId ∧ position ≤ place ∧ place < position + length

theorem mem_positionsOf (block : MicroBlockData) (position : Nat) :
    position ∈ block.positionsOf ea ↔
      ∃ entry, block.instructions[position]? = some entry ∧ entry.ea = some ea := by
  rw [MicroBlockData.positionsOf, List.mem_filter, List.mem_range, decide_eq_true_eq, Option.bind_eq_some_iff]
  refine and_iff_right_of_imp ?_
  rintro ⟨entry, hentry, _⟩
  exact (List.getElem?_eq_some_iff.mp hentry).1

theorem positionsOf_eq_range' (block : MicroBlockData) (position length : Nat) :
    block.positionsOf ea = List.range' position length ↔
      ∀ place, place ∈ block.positionsOf ea ↔ position ≤ place ∧ place < position + length := by
  constructor
  · intro h place
    rw [h, List.mem_range'_1]
  · intro h
    have hsorted : (block.positionsOf ea).Pairwise (· < ·) := List.pairwise_lt_range.filter _
    refine List.Perm.eq_of_pairwise
      (fun (a b : Nat) _ _ (hab : a < b) (hba : b < a) => absurd (hab.trans hba) (lt_irrefl _)) hsorted List.pairwise_lt_range' ?_
    refine (List.perm_ext_iff_of_nodup (hsorted.imp fun h => h.ne) (List.nodup_range' ..)).mpr fun place => ?_
    rw [h, List.mem_range'_1]

theorem headD_range' {position length : Nat} (h : 0 < length) : (List.range' position length).headD 0 = position := by
  obtain ⟨n, rfl⟩ := Nat.exists_eq_succ_of_ne_zero h.ne'
  rfl

theorem getLastD_range' {position length : Nat} (h : 0 < length) :
    (List.range' position length).getLastD 0 = position + length - 1 := by
  rw [List.getLastD_eq_getLast?, List.getLast?_range', if_neg h.ne', Option.getD_some]

theorem nodup_values_of_keyed (hkeyed : ∀ id block, blocks.get? id = some block → block.blockId = id) :
    blocks.values.Nodup := by
  have hnodup : (blocks.values.map MicroBlockData.blockId).Nodup := by
    have hkeys : blocks.values.map MicroBlockData.blockId = blocks.keys := by
      rw [Dict.values, List.map_map]
      refine List.map_congr_left fun entry hentry => ?_
      exact hkeyed entry.1 entry.2 ((Dict.mem_entries_iff _ _ _).mp hentry)
    rw [hkeys]
    exact blocks.nodup
  exact List.Nodup.of_map _ hnodup

/-- The point is found exactly when the instructions of the address are one contiguous run of one block, and it is
the start of that run. -/
theorem findExactMicrocodePoint_iff (hkeyed : ∀ id block, blocks.get? id = some block → block.blockId = id)
    (block : MicroBlockData) (position : Nat) :
    findExactMicrocodePoint blocks ea = some (block, position) ↔ ExactPoint blocks ea block position := by
  have hoccurs : ∀ id place, OccursAt blocks ea id place ↔
      ∃ other ∈ blocks.values, other.blockId = id ∧ place ∈ other.positionsOf ea := by
    intro id place
    constructor
    · rintro ⟨other, entry, hother, hentry, hea⟩
      exact ⟨other, (blocks.mem_values_iff other).mpr ⟨id, hother⟩, hkeyed id other hother,
        (mem_positionsOf ea other place).mpr ⟨entry, hentry, hea⟩⟩
    · rintro ⟨other, hother, rfl, hplace⟩
      obtain ⟨id, hid⟩ := (blocks.mem_values_iff other).mp hother
      obtain ⟨entry, hentry, hea⟩ := (mem_positionsOf ea other place).mp hplace
      exact ⟨other, entry, hkeyed id other hid ▸ hid, hentry, hea⟩
  rw [findExactMicrocodePoint]
  generalize hfound : (blocks.values.map fun other => (other, other.positionsOf ea)).filter (·.2 ≠ []) = found
  have hmem : ∀ other positions, (other, positions) ∈ found ↔
      other ∈ blocks.values ∧ positions = other.positionsOf ea ∧ positions ≠ [] := by
    intro other positions
    rw [← hfound, List.mem_filter, List.mem_map]
    constructor
    · rintro ⟨⟨other', hother, heq⟩, hne⟩
      obtain ⟨rfl, rfl⟩ := Prod.mk.inj heq
      exact ⟨hother, rfl, by simpa using hne⟩
    · rintro ⟨hother, rfl, hne⟩
      exact ⟨⟨other, hother, rfl⟩, by simpa using hne⟩
  constructor
  · intro h
    split at h
    · rename_i hcontiguous
      rcases found with _ | ⟨⟨other, positions⟩, _ | ⟨_, _⟩⟩
      · cases h
      · cases h
        obtain ⟨hblock, hpositions, hne⟩ := (hmem block positions).mp (List.mem_singleton_self _)
        have hrange : positions = List.range' (positions.headD 0) (positions.getLastD 0 + 1 - positions.headD 0) :=
          of_decide_eq_true (List.all_eq_true.mp hcontiguous _ (List.mem_singleton_self _))
        obtain ⟨id, hid⟩ := (blocks.mem_values_iff block).mp hblock
        refine ⟨hkeyed id block hid ▸ hid, positions.getLastD 0 + 1 - positions.headD 0, ?_, fun id place => ?_⟩
        · refine Nat.pos_of_ne_zero fun hzero => hne ?_
          rw [hrange, hzero]
          rfl
        · rw [hoccurs, ← List.mem_range'_1, ← hrange]
          constructor
          · rintro ⟨other, hother, rfl, hplace⟩
            have hin : (other, other.positionsOf ea) ∈ [(block, positions)] :=
              (hmem _ _).mpr ⟨hother, rfl, List.ne_nil_of_mem hplace⟩
            obtain ⟨rfl, rfl⟩ := Prod.mk.inj (List.mem_singleton.mp hin)
            exact ⟨rfl, hplace⟩
          · rintro ⟨rfl, hplace⟩
            exact ⟨block, hblock, rfl, hpositions ▸ hplace⟩
      · cases h
    · cases h
  · rintro ⟨hpresent, length, hpos, hrun⟩
    have hblock : block ∈ blocks.values := (blocks.mem_values_iff block).mpr ⟨_, hpresent⟩
    have hplaces : ∀ other ∈ blocks.values, ∀ place, place ∈ other.positionsOf ea ↔
        other = block ∧ position ≤ place ∧ place < position + length := by
      intro other hother place
      constructor
      · intro hplace
        obtain ⟨hid, hbounds⟩ := (hrun _ place).mp ((hoccurs _ _).mpr ⟨other, hother, rfl, hplace⟩)
        obtain ⟨id, hget⟩ := (blocks.mem_values_iff other).mp hother
        have hkey := hkeyed id other hget
        rw [← hkey, hid, hpresent] at hget
        exact ⟨(Option.some.inj hget).symm, hbounds⟩
      · rintro ⟨rfl, hbounds⟩
        obtain ⟨other', hother', hid, hplace⟩ := (hoccurs _ _).mp ((hrun other.blockId place).mpr ⟨rfl, hbounds⟩)
        obtain ⟨id, hget⟩ := (blocks.mem_values_iff other').mp hother'
        have hkey := hkeyed id other' hget
        rw [← hkey, hid, hpresent] at hget
        exact Option.some.inj hget ▸ hplace
    have hpositions : block.positionsOf ea = List.range' position length :=
      (positionsOf_eq_range' ea block position length).mpr fun place =>
        (hplaces block hblock place).trans (and_iff_right rfl)
    have hne : List.range' position length ≠ [] := by
      rw [ne_eq, List.range'_eq_nil_iff]
      exact hpos.ne'
    have hsingle : found = [(block, List.range' position length)] := by
      have hnodup : found.Nodup := by
        rw [← hfound]
        refine List.Nodup.filter _ ((nodup_values_of_keyed hkeyed).map ?_)
        exact fun _ _ h => (Prod.mk.inj h).1
      refine List.perm_singleton.mp ((List.perm_ext_iff_of_nodup hnodup (List.nodup_singleton _)).mpr ?_)
      rintro ⟨other, positions⟩
      rw [hmem, List.mem_singleton, Prod.mk.injEq]
      constructor
      · rintro ⟨hother, rfl, hne⟩
        obtain ⟨place, hplace⟩ := List.exists_mem_of_ne_nil _ hne
        obtain ⟨rfl, _⟩ := (hplaces other hother place).mp hplace
        exact ⟨rfl, hpositions⟩
      · rintro ⟨rfl, rfl⟩
        exact ⟨hblock, hpositions.symm, hne⟩
    have hlength : position + length - 1 + 1 - position = length := by omega
    have hcontiguous : found.all (fun entry => entry.2 =
        List.range' (entry.2.headD 0) (entry.2.getLastD 0 + 1 - entry.2.headD 0)) = true := by
      rw [hsingle, List.all_cons, List.all_nil, Bool.and_true, decide_eq_true_eq, headD_range' hpos,
        getLastD_range' hpos, hlength]
    rw [if_pos hcontiguous, hsingle]
    dsimp only
    rw [headD_range' hpos]

end exactPoint
end DynvarSync.Ida
