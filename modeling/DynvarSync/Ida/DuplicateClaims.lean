import DynvarSync.Lib.Conflicts
import DynvarSync.Ida.VRecoveryLemmas
import Mathlib.Order.Interval.Set.Basic
import Mathlib.Algebra.Order.Group.Int

/-! Two variables never keep claims on the same piece of a register or of the stack. -/
namespace DynvarSync.Ida
open Lib Conflicts

/-- Half-open ranges that cross. -/
def rangesOverlap (leftStart leftEnd rightStart rightEnd : Int) : Bool :=
  decide (leftStart < rightEnd ∧ rightStart < leftEnd)

/-- The reason to reject both of two claims: they read the same bits of one full register, or the same bytes. -/
def duplicateReason (left right : RecoveryEvidence) : Option String :=
  match left.storageKind, right.storageKind with
  | .register, .register => match left.register, right.register with
    | some l, some r =>
      if l.fullRegister = r.fullRegister ∧
          rangesOverlap l.bitOffset (l.bitOffset + left.width * 8) r.bitOffset (r.bitOffset + right.width * 8) then
        some reasonAmbiguousRegister
      else none
    | _, _ => none
  | .stack, .stack => match left.stackPointerOffset, right.stackPointerOffset with
    | some l, some r =>
      if rangesOverlap l (l + left.width) r (r + right.width) then some reasonUnresolvedStack else none
    | _, _ => none
  | _, _ => none

def rejectDuplicateStorageClaims (evidenceByIndex : Dict Int RecoveryEvidence) : Dict Int RecoveryEvidence :=
  (rejections duplicateReason evidenceByIndex).entries.foldl
    (fun evidence e => evidence.set e.1 { lvarIndex := e.1, reason := e.2 }) evidenceByIndex

/-- Register claims on one full register whose bits cross. -/
def RegistersOverlap (left right : RecoveryEvidence) : Prop :=
  left.storageKind = .register ∧ right.storageKind = .register ∧
    ∃ l r, left.register = some l ∧ right.register = some r ∧ l.fullRegister = r.fullRegister ∧
      rangesOverlap l.bitOffset (l.bitOffset + left.width * 8) r.bitOffset (r.bitOffset + right.width * 8) = true

/-- Stack claims whose bytes cross. -/
def SlotsOverlap (left right : RecoveryEvidence) : Prop :=
  left.storageKind = .stack ∧ right.storageKind = .stack ∧
    ∃ l r, left.stackPointerOffset = some l ∧ right.stackPointerOffset = some r ∧
      rangesOverlap l (l + left.width) r (r + right.width) = true

def ClaimsOverlap (left right : RecoveryEvidence) : Prop := RegistersOverlap left right ∨ SlotsOverlap left right

theorem rangesOverlap_comm (a b c d : Int) : rangesOverlap a b c d = rangesOverlap c d a b := by
  unfold rangesOverlap
  exact decide_eq_decide.mpr and_comm

/-- Two ranges that hold something cross exactly when they share a position. -/
theorem rangesOverlap_iff {a b c d : Int} (hleft : a < b) (hright : c < d) :
    rangesOverlap a b c d = true ↔ ∃ x, (a ≤ x ∧ x < b) ∧ c ≤ x ∧ x < d := by
  rw [rangesOverlap, decide_eq_true_iff]
  constructor
  · intro h
    exact ⟨max a c, by omega, by omega⟩
  · intro h
    obtain ⟨x, hx, hx'⟩ := h
    omega

theorem disjoint_of_not_rangesOverlap {a b c d : Int} (h : rangesOverlap a b c d = false) :
    Disjoint (Set.Ico a b) (Set.Ico c d) := by
  rw [rangesOverlap, decide_eq_false_iff_not] at h
  rw [Set.disjoint_left]
  intro x hx hx'
  have h1 := hx.1
  have h2 := hx.2
  have h3 := hx'.1
  have h4 := hx'.2
  omega

theorem duplicateReason_eq_some_iff (left right : RecoveryEvidence) (reason : String) :
    duplicateReason left right = some reason ↔
      (RegistersOverlap left right ∧ reason = reasonAmbiguousRegister) ∨
        (SlotsOverlap left right ∧ reason = reasonUnresolvedStack) := by
  unfold duplicateReason RegistersOverlap SlotsOverlap
  cases hl : left.storageKind <;> cases hr : right.storageKind <;>
    simp only [reduceCtorEq, false_and, and_false, or_self, true_and, false_or, or_false]
  · cases hlr : left.register with
    | none => simp
    | some l =>
      cases hrr : right.register with
      | none => simp
      | some r =>
        simp only [Option.some.injEq, exists_and_left, exists_eq_left', Option.ite_none_right_eq_some]
        rw [and_congr_right_iff]
        exact fun _ => eq_comm
  · cases hlo : left.stackPointerOffset with
    | none => simp
    | some l =>
      cases hro : right.stackPointerOffset with
      | none => simp
      | some r =>
        simp only [Option.some.injEq, exists_and_left, exists_eq_left', Option.ite_none_right_eq_some]
        rw [and_congr_right_iff]
        exact fun _ => eq_comm

theorem RegistersOverlap.symm {left right : RecoveryEvidence} (h : RegistersOverlap left right) :
    RegistersOverlap right left := by
  obtain ⟨hl, hr, l, r, hleft, hright, hfull, hcross⟩ := h
  exact ⟨hr, hl, r, l, hright, hleft, hfull.symm, rangesOverlap_comm .. ▸ hcross⟩

theorem SlotsOverlap.symm {left right : RecoveryEvidence} (h : SlotsOverlap left right) : SlotsOverlap right left := by
  obtain ⟨hl, hr, l, r, hleft, hright, hcross⟩ := h
  exact ⟨hr, hl, r, l, hright, hleft, rangesOverlap_comm .. ▸ hcross⟩

theorem duplicateReason_comm (left right : RecoveryEvidence) :
    duplicateReason left right = duplicateReason right left := by
  refine Option.ext fun reason => ?_
  rw [duplicateReason_eq_some_iff, duplicateReason_eq_some_iff]
  constructor
  · exact Or.imp (And.imp_left .symm) (And.imp_left .symm)
  · exact Or.imp (And.imp_left .symm) (And.imp_left .symm)

/-- The reason follows from the kind of the claim alone. -/
theorem duplicateReason_unique (claim left right : RecoveryEvidence) (reason reason' : String)
    (h : duplicateReason claim left = some reason) (h' : duplicateReason claim right = some reason') :
    reason = reason' := by
  rw [duplicateReason_eq_some_iff] at h h'
  rcases h with ⟨hreg, rfl⟩ | ⟨hslot, rfl⟩ <;> rcases h' with ⟨hreg', rfl⟩ | ⟨hslot', rfl⟩
  · rfl
  · exact absurd (hreg.1.symm.trans hslot'.1) (by decide)
  · exact absurd (hslot.1.symm.trans hreg'.1) (by decide)
  · rfl

theorem claimsOverlap_iff (left right : RecoveryEvidence) :
    ClaimsOverlap left right ↔ ∃ reason, duplicateReason left right = some reason := by
  simp only [duplicateReason_eq_some_iff, exists_or, exists_and_left, exists_eq, and_true]
  rfl

section rejection
variable (evidence : Dict Int RecoveryEvidence) {i : Int} {e : RecoveryEvidence}

theorem get?_rejectDuplicateStorageClaims (i : Int) :
    (rejectDuplicateStorageClaims evidence).get? i =
      (((rejections duplicateReason evidence).get? i).map
        (fun reason => { lvarIndex := i, reason := reason })).or (evidence.get? i) :=
  Dict.get?_foldl_assign (rejections duplicateReason evidence)
    (fun index reason => ({ lvarIndex := index, reason := reason } : RecoveryEvidence)) evidence i

theorem get?_duplicates_iff (i : Int) (reason : String) :
    (rejections duplicateReason evidence).get? i = some reason ↔
      ∃ e, evidence.get? i = some e ∧ Conflicting duplicateReason evidence i e reason :=
  get?_rejections_iff duplicateReason duplicateReason_comm duplicateReason_unique evidence i reason

theorem rejected_of_overlap (he : evidence.get? i = some e)
    (h : ∃ j other, j ≠ i ∧ evidence.get? j = some other ∧ ClaimsOverlap e other) :
    ∃ reason, (rejectDuplicateStorageClaims evidence).get? i = some { lvarIndex := i, reason := reason } := by
  obtain ⟨j, other, hne, hother, hover⟩ := h
  obtain ⟨reason, hreason⟩ := (claimsOverlap_iff e other).mp hover
  refine ⟨reason, ?_⟩
  rw [get?_rejectDuplicateStorageClaims,
    (get?_duplicates_iff evidence i reason).mpr ⟨e, he, j, other, hne, hother, hreason⟩]
  rfl

theorem kept_of_no_overlap (he : evidence.get? i = some e)
    (h : ∀ j other, j ≠ i → evidence.get? j = some other → ¬ ClaimsOverlap e other) :
    (rejectDuplicateStorageClaims evidence).get? i = some e := by
  have hnone : (rejections duplicateReason evidence).get? i = none := by
    refine Option.eq_none_iff_forall_ne_some.mpr fun reason hreason => ?_
    obtain ⟨e', he', j, other, hne, hother, hfound⟩ := (get?_duplicates_iff evidence i reason).mp hreason
    obtain rfl := Option.some.inj (he.symm.trans he')
    exact h j other hne hother ((claimsOverlap_iff e other).mpr ⟨reason, hfound⟩)
  rw [get?_rejectDuplicateStorageClaims, hnone, he]
  rfl

theorem absent_of_absent (h : evidence.get? i = none) : (rejectDuplicateStorageClaims evidence).get? i = none := by
  have hnone : (rejections duplicateReason evidence).get? i = none := by
    refine Option.eq_none_iff_forall_ne_some.mpr fun reason hreason => ?_
    obtain ⟨e', he', _⟩ := (get?_duplicates_iff evidence i reason).mp hreason
    rw [h] at he'
    cases he'
  rw [get?_rejectDuplicateStorageClaims, hnone, h]
  rfl

/-- What the pass leaves under a key is the bare rejection, or an original claim that overlaps no other. -/
theorem rejected_or_kept (he : (rejectDuplicateStorageClaims evidence).get? i = some e) :
    (∃ reason, e = { lvarIndex := i, reason := reason }) ∨
      (evidence.get? i = some e ∧ ∀ j other, j ≠ i → evidence.get? j = some other → ¬ ClaimsOverlap e other) := by
  cases horiginal : evidence.get? i with
  | none =>
    rw [absent_of_absent evidence horiginal] at he
    cases he
  | some original =>
    by_cases hover : ∃ j other, j ≠ i ∧ evidence.get? j = some other ∧ ClaimsOverlap original other
    · obtain ⟨reason, hreason⟩ := rejected_of_overlap evidence horiginal hover
      exact .inl ⟨reason, Option.some.inj (he.symm.trans hreason)⟩
    · have hfree : ∀ j other, j ≠ i → evidence.get? j = some other → ¬ ClaimsOverlap original other :=
        fun j other hne hother hclash => hover ⟨j, other, hne, hother, hclash⟩
      obtain rfl := Option.some.inj ((kept_of_no_overlap evidence horiginal hfree).symm.trans he)
      exact .inr ⟨rfl, hfree⟩

theorem survivors_do_not_overlap {j : Int} {other : RecoveryEvidence} (hne : i ≠ j)
    (he : (rejectDuplicateStorageClaims evidence).get? i = some e)
    (hother : (rejectDuplicateStorageClaims evidence).get? j = some other) : ¬ ClaimsOverlap e other := by
  intro hover
  rcases rejected_or_kept evidence he with ⟨reason, rfl⟩ | ⟨_, hfree⟩
  · rcases hover with hreg | hslot
    · cases hreg.1
    · cases hslot.1
  rcases rejected_or_kept evidence hother with ⟨reason, rfl⟩ | ⟨horiginal, _⟩
  · rcases hover with hreg | hslot
    · cases hreg.2.1
    · cases hslot.2.1
  · exact hfree j other hne.symm horiginal hover

end rejection

/-- Equal lookups give equal rejections, so the order of the entries does not matter. -/
theorem rejectDuplicateStorageClaims_same {evidence other : Dict Int RecoveryEvidence} (h : evidence.Same other) :
    (rejectDuplicateStorageClaims evidence).Same (rejectDuplicateStorageClaims other) := by
  intro i
  have hreasons : (rejections duplicateReason evidence).get? i = (rejections duplicateReason other).get? i := by
    refine Option.ext fun reason => ?_
    rw [get?_duplicates_iff, get?_duplicates_iff]
    simp only [Conflicting, h _]
  rw [get?_rejectDuplicateStorageClaims, get?_rejectDuplicateStorageClaims, hreasons, h i]

/-- After the pass no two claims share a bit of a register or a byte of the stack, a claim that overlapped none
is as it was, one that overlapped another reads nothing, and only the claims themselves decide. -/
theorem surviving_storage_claims_disjoint (evidence : Dict Int RecoveryEvidence) :
    (∀ i j left right, i ≠ j → (rejectDuplicateStorageClaims evidence).get? i = some left →
      (rejectDuplicateStorageClaims evidence).get? j = some right →
        ¬ ClaimsOverlap left right ∧
        (∀ l r, left.storageKind = .register → right.storageKind = .register → left.register = some l →
          right.register = some r → l.fullRegister = r.fullRegister →
            Disjoint (Set.Ico l.bitOffset (l.bitOffset + left.width * 8))
              (Set.Ico r.bitOffset (r.bitOffset + right.width * 8))) ∧
        ∀ l r, left.storageKind = .stack → right.storageKind = .stack → left.stackPointerOffset = some l →
          right.stackPointerOffset = some r →
            Disjoint (Set.Ico l (l + left.width)) (Set.Ico r (r + right.width))) ∧
    (∀ i e, evidence.get? i = some e →
      ((∀ j other, j ≠ i → evidence.get? j = some other → ¬ ClaimsOverlap e other) →
        (rejectDuplicateStorageClaims evidence).get? i = some e) ∧
      ((∃ j other, j ≠ i ∧ evidence.get? j = some other ∧ ClaimsOverlap e other) →
        ∃ reason, (rejectDuplicateStorageClaims evidence).get? i = some { lvarIndex := i, reason := reason } ∧
          ∀ width, RecoveryEvidence.acceptsRead { lvarIndex := i, reason := reason } width = false)) ∧
    (∀ i, evidence.get? i = none → (rejectDuplicateStorageClaims evidence).get? i = none) ∧
    (∀ other, evidence.Same other →
      (rejectDuplicateStorageClaims evidence).Same (rejectDuplicateStorageClaims other)) ∧
    ∀ a b c d : Int, a < b → c < d →
      (rangesOverlap a b c d = true ↔ ∃ x, (a ≤ x ∧ x < b) ∧ c ≤ x ∧ x < d) := by
  refine ⟨fun i j left right hne hleft hright => ?_, fun i e he => ⟨kept_of_no_overlap evidence he, fun hover => ?_⟩,
    fun i => absent_of_absent evidence, fun other => rejectDuplicateStorageClaims_same,
    fun a b c d => rangesOverlap_iff⟩
  · have hfree := survivors_do_not_overlap evidence hne hleft hright
    refine ⟨hfree, fun l r hl hr hlr hrr hfull => ?_, fun l r hl hr hlo hro => ?_⟩
    · refine disjoint_of_not_rangesOverlap (Bool.eq_false_iff.mpr fun hcross => ?_)
      exact hfree (.inl ⟨hl, hr, l, r, hlr, hrr, hfull, hcross⟩)
    · refine disjoint_of_not_rangesOverlap (Bool.eq_false_iff.mpr fun hcross => ?_)
      exact hfree (.inr ⟨hl, hr, l, r, hlo, hro, hcross⟩)
  · obtain ⟨reason, hreason⟩ := rejected_of_overlap evidence he hover
    exact ⟨reason, hreason, fun _ => rfl⟩

/-- Overlap is not transitive: the first and the last claim share nothing, and all three are rejected. -/
example :
    let slot (index offset : Int) : Int × RecoveryEvidence :=
      (index, { lvarIndex := index, storageKind := .stack, stackPointerOffset := some offset, width := 8 })
    (rejectDuplicateStorageClaims ⟨[slot 0 0, slot 1 4, slot 2 8], by decide⟩).values.map (·.storageKind) =
      [.unknown, .unknown, .unknown] := by decide

end DynvarSync.Ida
