import DynvarSync.Ida.ArgumentDetection
import DynvarSync.Lib.Positions

/-! Which index each detection pass gives a variable, and when two variables get one index. -/
namespace DynvarSync.Ida
open Lib PyText

section argidx
variable (lvars : List Lvar)

theorem argidxPass_append (argidx : List Int) (x : Int) :
    argidxPass lvars (argidx ++ [x]) =
      if inRange lvars x then
        (argidxPass lvars argidx).set x.toNat
          { isArg := true, argIndex := some argidx.length, reason := "cfunc.argidx" }
      else argidxPass lvars argidx := by
  rw [argidxPass, List.zipIdx_append, List.foldl_append, Nat.zero_add]
  rfl

/-- The `argidx` pass gives a variable its last position. -/
theorem argidxPass_get? (argidx : List Int) (l : Nat) (detection : ArgumentDetection) :
    (argidxPass lvars argidx).get? l = some detection ↔
      l < lvars.length ∧ ∃ i, LastAt argidx (l : Int) i ∧
        detection = { isArg := true, argIndex := some i, reason := "cfunc.argidx" } := by
  induction argidx using List.reverseRecOn generalizing detection with
  | nil =>
    refine iff_of_false ?_ ?_
    · rintro ⟨⟩
    · rintro ⟨-, i, hi, -⟩
      exact absurd hi.lt (Nat.not_lt_zero i)
  | append_singleton argidx x ih =>
    rw [argidxPass_append]
    by_cases hx : x = l
    · have hlast : ∀ i, LastAt (argidx ++ [x]) (l : Int) i ↔ i = argidx.length := by
        intro i
        rw [lastAt_append]
        simp only [hx, true_and, ne_eq, not_true_eq_false, false_and, or_false]
      simp only [hlast, exists_eq_left]
      by_cases hrange : inRange lvars x = true
      · have hlt : l < lvars.length := by
          have hbounds := of_decide_eq_true hrange
          omega
        rw [if_pos hrange, hx, Int.toNat_natCast, Dict.get?_set_self]
        simp only [hlt, true_and, Option.some.injEq, eq_comm]
      · have hge : ¬ l < lvars.length := fun hlt => hrange (decide_eq_true (by omega))
        rw [if_neg hrange, ih]
        simp only [hge, false_and]
    · have hlast : ∀ i, LastAt (argidx ++ [x]) (l : Int) i ↔ LastAt argidx (l : Int) i := by
        intro i
        rw [lastAt_append]
        simp only [hx, false_and, ne_eq, not_false_eq_true, true_and, false_or]
      simp only [hlast]
      split
      · rename_i hrange
        have hbounds := of_decide_eq_true hrange
        have hne : l ≠ x.toNat := by omega
        rw [Dict.get?_set_ne _ _ hne, ih]
      · exact ih detection

end argidx

section flags
variable (detections : Detections)

/-- A flagged variable the map does not have. -/
def isFlagged (entry : Lvar × Nat) : Bool := (detections.get? entry.2).isNone && entry.1.isArgVar

def flaggedCount (lvars : List Lvar) : Nat := (lvars.zipIdx.filter (isFlagged detections)).length

theorem flaggedCount_append (lvars : List Lvar) (lvar : Lvar) :
    flaggedCount detections (lvars ++ [lvar]) =
      flaggedCount detections lvars + if isFlagged detections (lvar, lvars.length) then 1 else 0 := by
  rw [flaggedCount, List.zipIdx_append, List.filter_append, List.length_append, flaggedCount, Nat.zero_add,
    List.zipIdx_singleton]
  split
  · rename_i h
    rw [List.filter_cons_of_pos h]
    rfl
  · rename_i h
    rw [List.filter_cons_of_neg h]
    rfl

/-- A variable the flag pass numbers, with its place among them. -/
def FlaggedAt (lvars : List Lvar) (l j : Nat) : Prop :=
  ∃ lvar, lvars[l]? = some lvar ∧ isFlagged detections (lvar, l) = true ∧ j = flaggedCount detections (lvars.take l)

theorem flaggedAt_append (lvars : List Lvar) (lvar : Lvar) (l j : Nat) :
    FlaggedAt detections (lvars ++ [lvar]) l j ↔ FlaggedAt detections lvars l j ∨
      (l = lvars.length ∧ isFlagged detections (lvar, lvars.length) = true ∧ j = flaggedCount detections lvars) := by
  constructor
  · rintro ⟨found, hfound, hflagged, rfl⟩
    rcases (getElem?_append_singleton_eq lvars lvar found l).mp hfound with hold | ⟨rfl, rfl⟩
    · have hlt := (List.getElem?_eq_some_iff.mp hold).1
      exact .inl ⟨found, hold, hflagged, by rw [List.take_append_of_le_length hlt.le]⟩
    · exact .inr ⟨rfl, hflagged, by rw [List.take_append_of_le_length (Nat.le_refl _), List.take_length]⟩
  · rintro (⟨found, hold, hflagged, rfl⟩ | ⟨rfl, hflagged, rfl⟩)
    · have hlt := (List.getElem?_eq_some_iff.mp hold).1
      refine ⟨found, (getElem?_append_singleton_eq lvars lvar found l).mpr (.inl hold), hflagged, ?_⟩
      rw [List.take_append_of_le_length hlt.le]
    · refine ⟨lvar, List.getElem?_concat_length, hflagged, ?_⟩
      rw [List.take_append_of_le_length (Nat.le_refl _), List.take_length]

theorem FlaggedAt.lt {lvars : List Lvar} {l j : Nat} (h : FlaggedAt detections lvars l j) : l < lvars.length := by
  obtain ⟨lvar, hget, -⟩ := h
  exact (List.getElem?_eq_some_iff.mp hget).1

/-- The places of the numbered variables are the numbers below their count, each once. -/
theorem flaggedAt_numbers (lvars : List Lvar) :
    (∀ j, (∃ l, FlaggedAt detections lvars l j) ↔ j < flaggedCount detections lvars) ∧
      ∀ l l' j, FlaggedAt detections lvars l j → FlaggedAt detections lvars l' j → l = l' := by
  induction lvars using List.reverseRecOn with
  | nil =>
    refine ⟨fun j => iff_of_false ?_ (Nat.not_lt_zero j), fun l l' j h => absurd h.lt (Nat.not_lt_zero l)⟩
    rintro ⟨l, h⟩
    exact absurd h.lt (Nat.not_lt_zero l)
  | append_singleton lvars lvar ih =>
    obtain ⟨hrange, hinj⟩ := ih
    simp only [flaggedAt_append, flaggedCount_append, exists_or, hrange, exists_eq_left]
    refine ⟨fun j => ?_, fun l l' j h h' => ?_⟩
    · split
      · rename_i hflagged
        simp only [hflagged, true_and]
        omega
      · rename_i hflagged
        simp only [hflagged, Bool.false_eq_true, false_and, or_false, Nat.add_zero]
    · rcases h with h | ⟨rfl, -, rfl⟩
      · rcases h' with h' | ⟨rfl, -, rfl⟩
        · exact hinj l l' j h h'
        · exact absurd ((hrange _).mp ⟨l, h⟩) (Nat.lt_irrefl _)
      · rcases h' with h' | ⟨rfl, -, -⟩
        · exact absurd ((hrange _).mp ⟨l', h'⟩) (Nat.lt_irrefl _)
        · rfl

/-- What the flag pass has done so far. -/
structure FlagSpec (first : Nat) (lvars : List Lvar) (state : Detections × Nat) : Prop where
  next : state.2 = first + flaggedCount detections lvars
  get? : ∀ l detection, state.1.get? l = some detection ↔ detections.get? l = some detection ∨
    ∃ j, FlaggedAt detections lvars l j ∧
      detection = { isArg := true, argIndex := some (first + j), reason := "lvar.is_arg_var()" }

theorem flagSpec (first : Nat) (lvars : List Lvar) :
    FlagSpec detections first lvars (lvars.zipIdx.foldl flagStep (detections, first)) := by
  induction lvars using List.reverseRecOn with
  | nil =>
    refine ⟨rfl, fun l detection => ⟨.inl, fun h => h.resolve_right ?_⟩⟩
    rintro ⟨j, h, -⟩
    exact absurd h.lt (Nat.not_lt_zero l)
  | append_singleton lvars lvar ih =>
    obtain ⟨hnext, hget⟩ := ih
    rw [List.zipIdx_append, List.foldl_append, List.zipIdx_singleton, List.foldl_cons, List.foldl_nil, Nat.zero_add,
      flagStep]
    generalize lvars.zipIdx.foldl flagStep (detections, first) = state at hnext hget
    have hsame : (state.1.get? lvars.length).isNone = (detections.get? lvars.length).isNone := by
      rw [Bool.eq_iff_iff, Option.isNone_iff_eq_none, Option.isNone_iff_eq_none, Option.eq_none_iff_forall_ne_some,
        Option.eq_none_iff_forall_ne_some]
      refine forall_congr' fun detection => not_congr ((hget _ detection).trans (or_iff_left ?_))
      rintro ⟨j, h, -⟩
      exact absurd h.lt (Nat.lt_irrefl _)
    by_cases hflagged : isFlagged detections (lvar, lvars.length) = true
    · have htake : (state.1.get? lvars.length).isNone ∧ lvar.isArgVar := by
        rw [hsame]
        exact (Bool.and_eq_true _ _).mp hflagged
      rw [if_pos htake]
      refine ⟨?_, fun l detection => ?_⟩
      · rw [flaggedCount_append, if_pos hflagged, hnext, Nat.add_assoc]
      · simp only [flaggedAt_append, hflagged, true_and, or_and_right, exists_or, Dict.get?_set]
        by_cases hl : l = lvars.length
        · subst hl
          have hnone : ∀ j, ¬ FlaggedAt detections lvars lvars.length j := fun j h => absurd h.lt (Nat.lt_irrefl _)
          have hold : detections.get? lvars.length = none := Option.isNone_iff_eq_none.mp (hsame ▸ htake.1)
          simp only [hnone, hold, true_and, reduceCtorEq, false_and, exists_false, false_or, exists_eq_left, if_true,
            Option.some.injEq, hnext]
          exact eq_comm
        · simp only [hl, false_and, exists_false, or_false, if_false, hget]
    · have hskip : ¬ ((state.1.get? lvars.length).isNone ∧ lvar.isArgVar) := by
        rw [hsame]
        exact fun h => hflagged ((Bool.and_eq_true _ _).mpr h)
      rw [if_neg hskip]
      refine ⟨?_, fun l detection => ?_⟩
      · rw [flaggedCount_append, if_neg hflagged, hnext, Nat.add_zero]
      · simp only [flaggedAt_append, hflagged, Bool.false_eq_true, false_and, and_false, or_false, hget]

/-- The flag pass numbers the flagged variables the map does not have. -/
theorem flagPass_get? (lvars : List Lvar) (l : Nat) (detection : ArgumentDetection) :
    (flagPass lvars detections).get? l = some detection ↔ detections.get? l = some detection ∨
      ∃ j, FlaggedAt detections lvars l j ∧
        detection = { isArg := true, argIndex := some (nextArgIndex detections + j), reason := "lvar.is_arg_var()" } :=
  (flagSpec detections (nextArgIndex detections) lvars).get? l detection

end flags

section prototype
variable (lvars : List Lvar)

theorem nameToLvarIndex_get? (name : String) (l : Nat) :
    (nameToLvarIndex lvars).get? name = some l ↔ LastAt (lvars.map Lvar.name) name l := by
  rw [nameToLvarIndex]
  induction lvars using List.reverseRecOn with
  | nil => exact iff_of_false (by rintro ⟨⟩) fun h => absurd h.lt (Nat.not_lt_zero l)
  | append_singleton lvars lvar ih =>
    rw [List.zipIdx_append, List.foldl_append, List.zipIdx_singleton, List.foldl_cons, List.foldl_nil, Nat.zero_add,
      List.map_append, List.map_singleton, lastAt_append, Dict.get?_set, List.length_map]
    split
    · rename_i heq
      simp only [heq, Option.some.injEq, true_and, ne_eq, not_true_eq_false, false_and, or_false]
      exact eq_comm
    · rename_i hne
      simp only [Ne.symm hne, false_and, ne_eq, not_false_eq_true, true_and, false_or, ih]

/-- The variable the prototype's name at a position stands for. -/
def NamedAt (names : List String) (l i : Nat) : Prop :=
  ∃ name, LastAt (lvars.map Lvar.name) name l ∧ FirstAt names name i

theorem LastAt_name_unique {l : Nat} {name name' : String} (h : LastAt (lvars.map Lvar.name) name l)
    (h' : LastAt (lvars.map Lvar.name) name' l) : name = name' := Option.some.inj (h.1.symm.trans h'.1)

theorem namedAt_append (names : List String) (name : String) (l i : Nat) :
    NamedAt lvars (names ++ [name]) l i ↔ NamedAt lvars names l i ∨
      (LastAt (lvars.map Lvar.name) name l ∧ i = names.length ∧ name ∉ names) := by
  simp only [NamedAt, firstAt_append, and_or_left, exists_or]
  refine or_congr_right ⟨?_, fun h => ⟨name, h.1, rfl, h.2⟩⟩
  rintro ⟨found, hlast, rfl, h⟩
  exact ⟨hlast, h⟩

/-- The prototype pass gives the variables the map does not have the positions of their names. -/
theorem prototypePass_get? (names : List String) (detections : Detections) (l : Nat) (detection : ArgumentDetection) :
    (prototypePass lvars names detections).get? l = some detection ↔ detections.get? l = some detection ∨
      (detections.get? l = none ∧ ∃ i, NamedAt lvars names l i ∧
        detection = { isArg := true, argIndex := some i, reason := "function prototype" }) := by
  rw [prototypePass]
  induction names using List.reverseRecOn generalizing detection with
  | nil =>
    refine ⟨.inl, fun h => h.resolve_right ?_⟩
    rintro ⟨-, i, ⟨name, -, hfirst⟩, -⟩
    exact absurd hfirst.lt (Nat.not_lt_zero i)
  | append_singleton names name ih =>
    rw [List.zipIdx_append, List.foldl_append, List.zipIdx_singleton, List.foldl_cons, List.foldl_nil, Nat.zero_add,
      prototypeStep]
    dsimp only
    generalize names.zipIdx.foldl (prototypeStep lvars) detections = before at ih
    have hsame : (LastAt (lvars.map Lvar.name) name l → detections.get? l = none → name ∈ names) →
        (before.get? l = some detection ↔ detections.get? l = some detection ∨
          (detections.get? l = none ∧ ∃ i, NamedAt lvars (names ++ [name]) l i ∧
            detection = { isArg := true, argIndex := some i, reason := "function prototype" })) := by
      intro hknown
      rw [ih]
      refine or_congr_right (and_congr_right fun hnone => exists_congr fun i => and_congr_left fun _ => ?_)
      rw [namedAt_append]
      exact (or_iff_left fun h => h.2.2 (hknown h.1 hnone)).symm
    split
    · rename_i m hm
      rw [nameToLvarIndex_get?] at hm
      split
      · rename_i hfree
        rw [Option.isNone_iff_eq_none] at hfree
        by_cases hl : l = m
        · subst hl
          have hnone : detections.get? l = none := by
            refine Option.eq_none_iff_forall_ne_some.mpr fun found hfound => ?_
            rw [(ih found).mpr (.inl hfound)] at hfree
            cases hfree
          have hnew : name ∉ names := by
            intro hmem
            obtain ⟨i, hi⟩ := exists_firstAt hmem
            rw [(ih _).mpr (.inr ⟨hnone, i, ⟨name, hm, hi⟩, rfl⟩)] at hfree
            cases hfree
          have hold : ∀ i, ¬ NamedAt lvars names l i := by
            rintro i ⟨found, hlast, hfirst⟩
            exact hnew (LastAt_name_unique lvars hlast hm ▸ hfirst.mem)
          simp only [Dict.get?_set_self, hnone, namedAt_append, hold, hm, hnew, not_false_eq_true, and_true, true_and,
            reduceCtorEq, false_or, exists_eq_left, Option.some.injEq]
          exact eq_comm
        · rw [Dict.get?_set_ne _ _ hl]
          exact hsame fun hlast _ => absurd (hlast.unique hm) hl
      · rename_i htaken
        refine hsame fun hlast hnone => ?_
        have heq := hlast.unique hm
        subst heq
        by_contra hnew
        refine htaken (Option.isNone_iff_eq_none.mpr (Option.eq_none_iff_forall_ne_some.mpr fun found hfound => ?_))
        rcases (ih found).mp hfound with hold | ⟨-, i, ⟨named, hnamed, hfirst⟩, -⟩
        · rw [hnone] at hold
          cases hold
        · exact hnew (LastAt_name_unique lvars hnamed hm ▸ hfirst.mem)
    · rename_i hnone
      refine hsame fun hlast _ => ?_
      rw [(nameToLvarIndex_get? lvars name l).mpr hlast] at hnone
      cases hnone

end prototype

section indexes

/-- The argument index a map gives a variable. -/
def argIndexOf (detections : Detections) (l : Nat) : Option Nat :=
  (detections.get? l).bind ArgumentDetection.argIndex

theorem argIndexOf_eq_some_iff (detections : Detections) (l i : Nat) :
    argIndexOf detections l = some i ↔ ∃ detection, detections.get? l = some detection ∧
    detection.argIndex = some i := by
  rw [argIndexOf, Option.bind_eq_some_iff]

theorem mem_usedIndexes (detections : Detections) (i : Nat) :
    i ∈ detections.values.filterMap ArgumentDetection.argIndex ↔ ∃ l, argIndexOf detections l = some i := by
  simp only [List.mem_filterMap, Dict.mem_values_iff, argIndexOf_eq_some_iff]
  constructor
  · rintro ⟨detection, ⟨l, hget⟩, hi⟩
    exact ⟨l, detection, hget, hi⟩
  · rintro ⟨l, detection, hget, hi⟩
    exact ⟨detection, ⟨l, hget⟩, hi⟩

theorem lt_nextArgIndex {detections : Detections} {l i : Nat} (h : argIndexOf detections l = some i) :
    i < nextArgIndex detections := by
  have hmem := (mem_usedIndexes detections i).mpr ⟨l, h⟩
  obtain ⟨greatest, hgreatest⟩ := Option.isSome_iff_exists.mp (List.isSome_max?_of_mem hmem)
  rw [nextArgIndex, hgreatest]
  exact Nat.lt_succ_of_le (List.max?_eq_some_iff.mp hgreatest |>.2 i hmem)

theorem nextArgIndex_le {detections : Detections} {n : Nat} (h : ∀ l i, argIndexOf detections l = some i → i < n) :
    nextArgIndex detections ≤ n := by
  rw [nextArgIndex]
  cases hmax : (detections.values.filterMap ArgumentDetection.argIndex).max? with
  | none => exact Nat.zero_le n
  | some greatest =>
    obtain ⟨l, hl⟩ := (mem_usedIndexes detections greatest).mp (List.max?_eq_some_iff.mp hmax).1
    exact Nat.succ_le_of_lt (h l greatest hl)

variable (lvars : List Lvar) (argidx : List Int)

theorem argIndexOf_argidxPass (l i : Nat) :
    argIndexOf (argidxPass lvars argidx) l = some i ↔ l < lvars.length ∧ LastAt argidx (l : Int) i := by
  simp only [argIndexOf_eq_some_iff, argidxPass_get?]
  constructor
  · rintro ⟨_, ⟨hlt, j, hlast, rfl⟩, hi⟩
    exact ⟨hlt, Option.some.inj hi ▸ hlast⟩
  · rintro ⟨hlt, hlast⟩
    exact ⟨_, ⟨hlt, i, hlast, rfl⟩, rfl⟩

theorem argIndexOf_flagPass (detections : Detections) (l i : Nat) :
    argIndexOf (flagPass lvars detections) l = some i ↔ argIndexOf detections l = some i ∨
      ∃ j, FlaggedAt detections lvars l j ∧ i = nextArgIndex detections + j := by
  simp only [argIndexOf_eq_some_iff, flagPass_get?]
  constructor
  · rintro ⟨detection, hold | ⟨j, hflagged, rfl⟩, hi⟩
    · exact .inl ⟨detection, hold, hi⟩
    · exact .inr ⟨j, hflagged, (Option.some.inj hi).symm⟩
  · rintro (⟨detection, hold, hi⟩ | ⟨j, hflagged, rfl⟩)
    · exact ⟨detection, .inl hold, hi⟩
    · exact ⟨_, .inr ⟨j, hflagged, rfl⟩, rfl⟩

theorem argIndexOf_prototypePass (names : List String) (detections : Detections) (l i : Nat) :
    argIndexOf (prototypePass lvars names detections) l = some i ↔ argIndexOf detections l = some i ∨
      (detections.get? l = none ∧ NamedAt lvars names l i) := by
  simp only [argIndexOf_eq_some_iff, prototypePass_get?]
  constructor
  · rintro ⟨detection, hold | ⟨hnone, j, hnamed, rfl⟩, hi⟩
    · exact .inl ⟨detection, hold, hi⟩
    · exact .inr ⟨hnone, Option.some.inj hi ▸ hnamed⟩
  · rintro (⟨detection, hold, hi⟩ | ⟨hnone, hnamed⟩)
    · exact ⟨detection, .inl hold, hi⟩
    · exact ⟨_, .inr ⟨hnone, i, hnamed, rfl⟩, rfl⟩

end indexes

section fallback
variable (lvars : List Lvar) (wideAlnum : Char → Bool)

/-- The fallback gives an index to one variable only. -/
theorem detectAbi_get? {l : Nat} {detection : ArgumentDetection}
    (h : (detectAbiLocationArguments lvars wideAlnum).get? l = some detection) :
    ∃ i candidate, (byArgIndex lvars wideAlnum).get? i = some candidate ∧ candidate.lvarIndex = l ∧
      detection = { isArg := true, argIndex := some i, reason := "ABI location " ++ candidate.location } := by
  rw [detectAbiLocationArguments] at h
  generalize leadingArgIndexes lvars wideAlnum = indexes at h
  induction indexes using List.reverseRecOn with
  | nil => cases h
  | append_singleton indexes last ih =>
    rw [List.foldl_append, List.foldl_cons, List.foldl_nil] at h
    split at h
    · rename_i candidate hcandidate
      rw [Dict.get?_set] at h
      split at h
      · rename_i hl
        exact ⟨last, candidate, hcandidate, hl.symm, (Option.some.inj h).symm⟩
      · exact ih h
    · exact ih h

theorem fallback_distinct {l l' i : Nat} (h : argIndexOf (detectAbiLocationArguments lvars wideAlnum) l = some i)
    (h' : argIndexOf (detectAbiLocationArguments lvars wideAlnum) l' = some i) : l = l' := by
  obtain ⟨detection, hget, hi⟩ := (argIndexOf_eq_some_iff _ l i).mp h
  obtain ⟨detection', hget', hi'⟩ := (argIndexOf_eq_some_iff _ l' i).mp h'
  obtain ⟨j, candidate, hcandidate, rfl, rfl⟩ := detectAbi_get? lvars wideAlnum hget
  obtain ⟨j', candidate', hcandidate', rfl, rfl⟩ := detectAbi_get? lvars wideAlnum hget'
  rw [Option.some.inj hi] at hcandidate
  rw [Option.some.inj hi', hcandidate] at hcandidate'
  rw [Option.some.inj hcandidate']

/-- The fallback keeps the other signals' detections, and adds no index they use. -/
theorem fallbackPass_get? (fallback detections : Detections) (l : Nat) (detection : ArgumentDetection) :
    (detections.get? l = some detection → (fallbackPass fallback detections).get? l = some detection) ∧
      ((fallbackPass fallback detections).get? l = some detection → detections.get? l = some detection ∨
        fallback.get? l = some detection ∧ ∀ i, detection.argIndex = some i →
        ∀ l', argIndexOf detections l' ≠ some i) := by
  rw [fallbackPass, ← Dict.mem_entries_iff fallback]
  generalize fallback.entries = entries
  induction entries using List.reverseRecOn with
  | nil => exact ⟨id, .inl⟩
  | append_singleton entries entry ih =>
    obtain ⟨hkeep, hsource⟩ := ih
    rw [List.foldl_append, List.foldl_cons, List.foldl_nil]
    split
    · exact ⟨hkeep, fun h => (hsource h).imp_right (And.imp_left (List.mem_append_left [entry]))⟩
    · rename_i hskip
      obtain ⟨hfree, hunused⟩ := not_or.mp hskip
      refine ⟨fun h => ?_, fun h => ?_⟩
      · rw [Dict.get?_set_ne]
        · exact hkeep h
        · rintro rfl
          exact hfree (Option.isSome_iff_exists.mpr ⟨_, hkeep h⟩)
      · rw [Dict.get?_set] at h
        split at h
        · rename_i hl
          have hentry : (l, detection) = entry := Prod.ext hl (Option.some.inj h).symm
          refine .inr ⟨List.mem_append_right _ (List.mem_singleton.mpr hentry), fun i hi l' hused => hunused ?_⟩
          rw [← hentry, hi]
          exact decide_eq_true ((mem_usedIndexes detections i).mpr ⟨l', hused⟩)
        · exact (hsource h).imp_right (And.imp_left (List.mem_append_left [entry]))

end fallback

section signals
variable (cfunc : Cfunc) (lvars : List Lvar)

/-- One past the last position of `argidx` that holds a variable. -/
def firstFree : Nat := (cfunc.argidx.reverse.dropWhile fun x => !inRange lvars x).length

/-- The number of flagged variables `argidx` does not list. -/
def unlistedFlags : Nat :=
  (lvars.zipIdx.filter fun entry => decide ((entry.2 : Int) ∉ cfunc.argidx) && entry.1.isArgVar).length

/-- An index that `argidx` or the flags give away. -/
def SignalledIndex (i : Nat) : Prop :=
  (∃ l < lvars.length, LastAt cfunc.argidx (l : Int) i) ∨
    firstFree cfunc lvars ≤ i ∧ i < firstFree cfunc lvars + unlistedFlags cfunc lvars

/-- A variable that only the prototype tells, with the position of its name. -/
def PrototypeOnly (l i : Nat) : Prop :=
  (l : Int) ∉ cfunc.argidx ∧ (lvars[l]?.map Lvar.isArgVar) = some false ∧ NamedAt lvars (prototypeArgNames cfunc) l i

theorem nextArgIndex_argidxPass (argidx : List Int) :
    nextArgIndex (argidxPass lvars argidx) = (argidx.reverse.dropWhile fun x => !inRange lvars x).length := by
  induction argidx using List.reverseRecOn with
  | nil => rfl
  | append_singleton argidx x ih =>
    rw [List.reverse_append, List.reverse_singleton, List.singleton_append]
    by_cases hrange : inRange lvars x = true
    · rw [List.dropWhile_cons_of_neg (by rw [hrange]; decide), List.length_cons, List.length_reverse]
      refine Nat.le_antisymm (nextArgIndex_le fun l i h => ?_) ?_
      · have hlt := ((argIndexOf_argidxPass lvars _ l i).mp h).2.lt
        rwa [List.length_append, List.length_singleton] at hlt
      · have hbounds := of_decide_eq_true hrange
        refine lt_nextArgIndex (l := x.toNat) ((argIndexOf_argidxPass lvars _ x.toNat argidx.length).mpr ⟨by omega, ?_⟩)
        rw [Int.toNat_of_nonneg hbounds.1, lastAt_append]
        exact .inl ⟨rfl, rfl⟩
    · rw [List.dropWhile_cons_of_pos (by rw [Bool.not_eq_true] at hrange; rw [hrange]; rfl), argidxPass_append,
        if_neg hrange, ih]

theorem argidxPass_none {l : Nat} (h : l < lvars.length) (argidx : List Int) :
    (argidxPass lvars argidx).get? l = none ↔ (l : Int) ∉ argidx := by
  rw [Option.eq_none_iff_forall_ne_some]
  constructor
  · intro hnone hmem
    obtain ⟨i, hi⟩ := exists_lastAt hmem
    exact hnone _ ((argidxPass_get? lvars argidx l _).mpr ⟨h, i, hi, rfl⟩)
  · intro hnot detection hget
    obtain ⟨-, i, hi, -⟩ := (argidxPass_get? lvars argidx l detection).mp hget
    exact hnot (List.mem_of_getElem? hi.1)

theorem flaggedCount_argidxPass : flaggedCount (argidxPass lvars cfunc.argidx) lvars = unlistedFlags cfunc lvars := by
  refine congrArg List.length (List.filter_congr fun entry hmem => ?_)
  have hlt := (List.mem_zipIdx' hmem).1
  rw [isFlagged]
  congr 1
  rw [Bool.eq_iff_iff, Option.isNone_iff_eq_none, argidxPass_none lvars hlt, decide_eq_true_eq]

/-- The map of the first two signals. -/
def signalled : Detections := flagPass lvars (argidxPass lvars cfunc.argidx)

theorem signalledIndex_iff (i : Nat) :
    (∃ l, argIndexOf (signalled cfunc lvars) l = some i) ↔ SignalledIndex cfunc lvars i := by
  simp only [signalled, argIndexOf_flagPass, argIndexOf_argidxPass, nextArgIndex_argidxPass, exists_or]
  refine or_congr Iff.rfl ?_
  have hnumbers := (flaggedAt_numbers (argidxPass lvars cfunc.argidx) lvars).1
  rw [flaggedCount_argidxPass] at hnumbers
  constructor
  · rintro ⟨l, j, hflagged, rfl⟩
    exact ⟨Nat.le_add_right _ j, Nat.add_lt_add_left ((hnumbers j).mp ⟨l, hflagged⟩) _⟩
  · rintro ⟨hle, hlt⟩
    obtain ⟨j, rfl⟩ := Nat.exists_eq_add_of_le hle
    obtain ⟨l, hflagged⟩ := (hnumbers j).mpr (Nat.lt_of_add_lt_add_left hlt)
    exact ⟨l, j, hflagged, rfl⟩

theorem signalled_none {l : Nat} {lvar : Lvar} (h : lvars[l]? = some lvar) :
    (signalled cfunc lvars).get? l = none ↔ (l : Int) ∉ cfunc.argidx ∧ lvar.isArgVar = false := by
  have hlt := (List.getElem?_eq_some_iff.mp h).1
  rw [← argidxPass_none lvars hlt, Option.eq_none_iff_forall_ne_some]
  constructor
  · intro hnone
    have hold : (argidxPass lvars cfunc.argidx).get? l = none :=
      Option.eq_none_iff_forall_ne_some.mpr fun detection hget =>
        hnone detection ((flagPass_get? _ lvars l detection).mpr (.inl hget))
    refine ⟨hold, Bool.not_eq_true _ ▸ fun hflag => ?_⟩
    refine hnone _ ((flagPass_get? _ lvars l _).mpr (.inr ⟨_, ⟨lvar, h, ?_, rfl⟩, rfl⟩))
    rw [isFlagged, hold, hflag]
    rfl
  · rintro ⟨hold, hflag⟩ detection hget
    rcases (flagPass_get? _ lvars l detection).mp hget with hget | ⟨j, ⟨found, hfound, hflagged, -⟩, -⟩
    · rw [hold] at hget
      cases hget
    · rw [h, Option.some.injEq] at hfound
      rw [isFlagged, ← hfound, hflag, Bool.and_false] at hflagged
      cases hflagged

theorem signalled_distinct {l l' i : Nat} (h : argIndexOf (signalled cfunc lvars) l = some i)
    (h' : argIndexOf (signalled cfunc lvars) l' = some i) : l = l' := by
  rw [signalled, argIndexOf_flagPass] at h h'
  rcases h with h | ⟨j, hflagged, rfl⟩
  · rcases h' with h' | ⟨j', -, rfl⟩
    · have hlast := ((argIndexOf_argidxPass lvars cfunc.argidx l i).mp h).2.1
      have hlast' := ((argIndexOf_argidxPass lvars cfunc.argidx l' i).mp h').2.1
      rw [hlast, Option.some.injEq] at hlast'
      exact Int.ofNat.inj hlast'
    · exact absurd (lt_nextArgIndex h) (Nat.not_lt.mpr (Nat.le_add_right _ j'))
  · rcases h' with h' | ⟨j', hflagged', heq⟩
    · exact absurd (lt_nextArgIndex h') (Nat.not_lt.mpr (Nat.le_add_right _ j))
    · rw [Nat.add_left_cancel heq] at hflagged
      exact (flaggedAt_numbers _ lvars).2 l l' j' hflagged hflagged'

end signals

/-- Where an argument stands at function entry: its register, or its offset from the stack pointer. -/
def entryPlace (argIndex : Nat) : String ⊕ Int :=
  match entryRegisters[argIndex]? with
  | some register => .inl register
  | none => .inr (stackArgOffset argIndex)

theorem entryPlace_injective {i j : Nat} (h : entryPlace i = entryPlace j) : i = j := by
  have hnodup : entryRegisters.Nodup := by decide
  rw [entryPlace, entryPlace] at h
  split at h
  · rename_i register hregister
    split at h
    · rename_i register' hregister'
      rw [Sum.inl.injEq] at h
      have hlt := (List.getElem?_eq_some_iff.mp hregister).1
      exact (List.getElem?_inj hlt hnodup).mp (by rw [hregister, hregister', h])
    · cases h
  · split at h
    · cases h
    · rw [Sum.inr.injEq, stackArgOffset, stackArgOffset, stackArgSlotSize] at h
      omega

/-- No two variables share an argument index, so no two are read from one register or stack slot. -/
def DistinctArguments (detections : Detections) : Prop :=
  ∀ l l' i i', l ≠ l' → argIndexOf detections l = some i → argIndexOf detections l' = some i' →
    i ≠ i' ∧ entryPlace i ≠ entryPlace i'

section distinct
variable (cfunc : Cfunc) (lvars : List Lvar)

theorem prototypeOnly_iff (l i : Nat) :
    PrototypeOnly cfunc lvars l i ↔
      (signalled cfunc lvars).get? l = none ∧ NamedAt lvars (prototypeArgNames cfunc) l i := by
  rw [PrototypeOnly, ← and_assoc]
  refine and_congr_left fun hnamed => ?_
  obtain ⟨name, hlast, -⟩ := hnamed
  have hname := hlast.1
  rw [List.getElem?_map, Option.map_eq_some_iff] at hname
  obtain ⟨lvar, hlvar, -⟩ := hname
  rw [signalled_none cfunc lvars hlvar, hlvar, Option.map_some, Option.some.injEq]

theorem prototypePass_distinct (h : ∀ l i, PrototypeOnly cfunc lvars l i → ¬ SignalledIndex cfunc lvars i)
    {l l' i : Nat}
    (hi : argIndexOf (prototypePass lvars (prototypeArgNames cfunc) (signalled cfunc lvars)) l = some i)
    (hi' : argIndexOf (prototypePass lvars (prototypeArgNames cfunc) (signalled cfunc lvars)) l' = some i) :
    l = l' := by
  rw [argIndexOf_prototypePass, ← prototypeOnly_iff] at hi hi'
  rcases hi with hsignal | honly
  · rcases hi' with hsignal' | honly'
    · exact signalled_distinct cfunc lvars hsignal hsignal'
    · exact absurd ((signalledIndex_iff cfunc lvars i).mp ⟨l, hsignal⟩) (h l' i honly')
  · rcases hi' with hsignal' | ⟨-, -, name', hlast', hfirst'⟩
    · exact absurd ((signalledIndex_iff cfunc lvars i).mp ⟨l', hsignal'⟩) (h l i honly)
    · obtain ⟨-, -, name, hlast, hfirst⟩ := honly
      have hname : name = name' := Option.some.inj (hfirst.1.symm.trans hfirst'.1)
      exact hlast.unique (hname ▸ hlast')

theorem argIndexOf_fallbackPass {fallback detections : Detections} {l i : Nat}
    (h : argIndexOf (fallbackPass fallback detections) l = some i) :
    argIndexOf detections l = some i ∨
      argIndexOf fallback l = some i ∧ ∀ l', argIndexOf detections l' ≠ some i := by
  obtain ⟨detection, hget, hi⟩ := (argIndexOf_eq_some_iff _ l i).mp h
  rcases (fallbackPass_get? fallback detections l detection).2 hget with hold | ⟨hfallback, hunused⟩
  · exact .inl ((argIndexOf_eq_some_iff _ l i).mpr ⟨detection, hold, hi⟩)
  · exact .inr ⟨(argIndexOf_eq_some_iff _ l i).mpr ⟨detection, hfallback, hi⟩, hunused i hi⟩

theorem argIndexOf_detectArguments (wideAlnum : Char → Bool) {l i : Nat}
    (h : argIndexOf (prototypePass lvars (prototypeArgNames cfunc) (signalled cfunc lvars)) l = some i) :
    argIndexOf (detectArguments wideAlnum cfunc lvars) l = some i := by
  obtain ⟨detection, hget, hi⟩ := (argIndexOf_eq_some_iff _ l i).mp h
  exact (argIndexOf_eq_some_iff _ l i).mpr ⟨detection, (fallbackPass_get? _ _ l detection).1 hget, hi⟩

end distinct

/-- Arguments are distinct exactly when no variable that only the prototype tells stands at a signalled index. -/
theorem distinct_arguments_iff (wideAlnum : Char → Bool) (cfunc : Cfunc) (lvars : List Lvar) :
    DistinctArguments (detectArguments wideAlnum cfunc lvars) ↔
      ∀ l i, PrototypeOnly cfunc lvars l i → ¬ SignalledIndex cfunc lvars i := by
  constructor
  · intro hdistinct l i honly hsignal
    obtain ⟨l', hl'⟩ := (signalledIndex_iff cfunc lvars i).mpr hsignal
    have hne : l ≠ l' := by
      rintro rfl
      rw [argIndexOf, ((prototypeOnly_iff cfunc lvars l i).mp honly).1] at hl'
      cases hl'
    have hi := (argIndexOf_prototypePass lvars _ _ l i).mpr (.inr ((prototypeOnly_iff cfunc lvars l i).mp honly))
    have hi' := (argIndexOf_prototypePass lvars (prototypeArgNames cfunc) _ l' i).mpr (.inl hl')
    exact (hdistinct l l' i i hne (argIndexOf_detectArguments cfunc lvars wideAlnum hi)
      (argIndexOf_detectArguments cfunc lvars wideAlnum hi')).1 rfl
  · intro h l l' i i' hne hi hi'
    have hindex : i ≠ i' := by
      rintro rfl
      rcases argIndexOf_fallbackPass hi with hi | ⟨hi, hunused⟩
      · rcases argIndexOf_fallbackPass hi' with hi' | ⟨-, hunused'⟩
        · exact hne (prototypePass_distinct cfunc lvars h hi hi')
        · exact hunused' l hi
      · rcases argIndexOf_fallbackPass hi' with hi' | ⟨hi', -⟩
        · exact hunused l' hi'
        · exact hne (fallback_distinct lvars wideAlnum hi hi')
    exact ⟨hindex, fun hplace => hindex (entryPlace_injective hplace)⟩

/-- `argidx` lists the second parameter only, and the prototype numbers the first one beside it. -/
theorem prototype_shares_index :
    ¬ ∀ (wideAlnum : Char → Bool) (cfunc : Cfunc) (lvars : List Lvar),
      DistinctArguments (detectArguments wideAlnum cfunc lvars) := by
  intro h
  have hdistinct := h (fun _ => false) { argidx := [1], details := some ["a", "b"] } [{ name := "a" }, { name := "b" }]
    0 1 0 0 (by decide) (by decide +kernel) (by decide +kernel)
  exact hdistinct.1 rfl

end DynvarSync.Ida
