import DynvarSync.Lib.JsonPieces
import Mathlib.Algebra.Order.BigOperators.Group.List

/-! How much text a value takes at least: the characters of its strings, twice where they
have to be escaped, and the marks around them. -/
namespace DynvarSync.Lib.JsonText
open PyText

/-- The number of characters that are no control characters. -/
def visibleCount (s : List Char) : Nat := s.countP fun c => 32 ≤ c.toNat

/-- A character that stands in a string as it is. -/
def standsBare (c : Char) : Bool := c ≠ quote && c ≠ backslash && 32 ≤ c.toNat

def charCost (c : Char) : Nat := if standsBare c then 1 else 2

def stringCost (s : List Char) : Nat := (s.map charCost).sum + 2

mutual
/-- The visible characters a value takes at least. -/
def cost : Json → Nat
  | .null => 4
  | .bool b => if b then 4 else 5
  | .int n => (encodeInt n).length
  | .float _ => 0
  | .str s => stringCost s.toList
  | .arr items => 1 + itemsCost items
  | .obj fields => 1 + fieldsCost fields

def itemsCost : List Json → Nat
  | [] => 0
  | x :: rest => cost x + 1 + itemsCost rest

def fieldsCost : List (String × Json) → Nat
  | [] => 0
  | (k, x) :: rest => stringCost k.toList + cost x + 2 + fieldsCost rest
end

section counts

theorem visibleCount_append (s t : List Char) : visibleCount (s ++ t) = visibleCount s + visibleCount t :=
  List.countP_append

theorem visibleCount_cons {c : Char} (h : 32 ≤ c.toNat) (s : List Char) : visibleCount (c :: s) = visibleCount s + 1 :=
  List.countP_cons_of_pos (decide_eq_true h)

theorem visibleCount_cons_le (c : Char) (s : List Char) : visibleCount (c :: s) ≤ visibleCount s + 1 := by
  rw [visibleCount, visibleCount, List.countP_cons]
  split <;> exact (by omega)

theorem visibleCount_of_suffix {s t : List Char} (h : s <:+ t) : visibleCount s ≤ visibleCount t := h.sublist.countP_le

theorem visibleCount_skipSpace (s : List Char) : visibleCount (skipSpace s) ≤ visibleCount s :=
  visibleCount_of_suffix (List.dropWhile_suffix _)

theorem visibleCount_of_next {c : Char} (hc : 32 ≤ c.toNat) {s rest : List Char} (h : next c s = some rest) :
    visibleCount rest + 1 ≤ visibleCount s := by
  have hskip := visibleCount_skipSpace s
  rw [next] at h
  split at h
  · rename_i d more hmore
    split at h
    · rename_i hd
      cases h
      rw [hmore, hd, visibleCount_cons hc] at hskip
      exact hskip
    · cases h
  · cases h

theorem visibleCount_of_dropPrefix {word s rest : List Char} (h : s.dropPrefix? word = some rest) :
    visibleCount word + visibleCount rest = visibleCount s := by
  obtain ⟨word', rfl, hword⟩ := List.dropPrefix?_eq_some_iff.mp h
  rw [← eq_of_beq hword, visibleCount_append]

theorem visibleCount_of_printable {s : List Char} (h : Printable s) : visibleCount s = s.length :=
  List.countP_eq_length.mpr fun c hc => decide_eq_true (h c hc).1

theorem charCost_le_two (c : Char) : charCost c ≤ 2 := by
  rw [charCost]
  split <;> omega

/-- A text costs more than it shows, by at least one for every character that has to be escaped. -/
theorem visibleCount_le_charCost (s : List Char) :
    visibleCount s + s.countP (fun c => !standsBare c) ≤ (s.map charCost).sum := by
  induction s with
  | nil => exact le_rfl
  | cons c s ih =>
    rw [List.map_cons, List.sum_cons]
    cases hbare : standsBare c with
    | true =>
      have hvisible : visibleCount (c :: s) ≤ visibleCount s + 1 := visibleCount_cons_le c s
      rw [List.countP_cons_of_neg (by rw [hbare]; decide), charCost, if_pos hbare]
      omega
    | false =>
      have hvisible : visibleCount (c :: s) ≤ visibleCount s + 1 := visibleCount_cons_le c s
      rw [List.countP_cons_of_pos (by rw [hbare]; rfl), charCost, if_neg (by rw [hbare]; decide)]
      omega

theorem standsBare_iff (c : Char) : standsBare c = true ↔ c ≠ quote ∧ c ≠ backslash ∧ 32 ≤ c.toNat := by
  simp only [standsBare, Bool.and_eq_true, decide_eq_true_eq, and_assoc]

theorem stringCost_bare {s : List Char} (h : ∀ c ∈ s, standsBare c = true) : stringCost s = s.length + 2 := by
  have hcosts : s.map charCost = s.map fun _ => 1 := List.map_congr_left fun c hc => if_pos (h c hc)
  rw [stringCost, hcosts, List.map_const', List.sum_replicate_nat, Nat.mul_one]

theorem stringCost_plain {s : List Char} (h : Plain s) : stringCost s = s.length + 2 :=
  stringCost_bare fun c hc => by
    obtain ⟨hlow, -, hquote, hbackslash⟩ := (plainChar_iff c).mp (h c hc)
    exact (standsBare_iff c).mpr ⟨hquote, hbackslash, hlow⟩

/-- A text that needs no escape is read as it is. -/
theorem spells_bare {s : List Char} (h : ∀ c ∈ s, standsBare c = true) : Spells s s := by
  intro rest
  induction s with
  | nil => exact readString_quote rest
  | cons c s ih =>
    obtain ⟨hc, hmore⟩ := List.forall_mem_cons.mp h
    obtain ⟨hquote, hbackslash, hlow⟩ := (standsBare_iff c).mp hc
    rw [List.cons_append, readString_plain hquote hbackslash hlow, ih hmore]
    rfl

end counts

section fields

def fieldCost (field : String × Json) : Nat := stringCost field.1.toList + cost field.2 + 2

theorem fieldsCost_eq_sum (fields : List (String × Json)) : fieldsCost fields = (fields.map fieldCost).sum := by
  induction fields with
  | nil => rfl
  | cons field fields ih => rw [List.map_cons, List.sum_cons, ← ih, fieldsCost, fieldCost]

theorem sum_le_of_sublist {α : Type} (f : α → Nat) {xs ys : List α} (h : xs.Sublist ys) :
    (xs.map f).sum ≤ (ys.map f).sum :=
  (h.map f).sum_le_sum fun _ _ => Nat.zero_le _

/-- Different entries are not more than the list they are from. -/
theorem sum_le_of_subset {α : Type} (f : α → Nat) {xs ys : List α} (hnodup : xs.Nodup) (h : xs ⊆ ys) :
    (xs.map f).sum ≤ (ys.map f).sum := by
  obtain ⟨zs, hperm, hsub⟩ := List.subperm_of_subset hnodup h
  rw [← (hperm.map f).sum_nat]
  exact sum_le_of_sublist f hsub

theorem nodup_keepLast (fields : List (String × Json)) : ((keepLast fields).map Prod.fst).Nodup :=
  (fields.foldl (fun d field => d.set field.1 field.2) Dict.empty).nodup

theorem mem_of_mem_keepLast {fields : List (String × Json)} {field : String × Json} (h : field ∈ keepLast fields) :
    field ∈ fields := by
  rcases Dict.mem_entries_foldl_set h with hnil | hmem
  · exact absurd hnil List.not_mem_nil
  · exact hmem

/-- The fields an object is made of cost no less than the object's. -/
theorem fieldsCost_keepLast (fields : List (String × Json)) : fieldsCost (keepLast fields) ≤ fieldsCost fields := by
  rw [fieldsCost_eq_sum, fieldsCost_eq_sum]
  exact sum_le_of_subset fieldCost (nodup_keepLast fields).of_map fun _ hfield => mem_of_mem_keepLast hfield

end fields

section readers

theorem visible_escapeLetter {e c : Char} (h : (shortEscapes ++ [('/', '/')]).lookup e = some c) : 32 ≤ e.toNat := by
  have hletters : ∀ entry ∈ shortEscapes ++ [('/', '/')], 32 ≤ entry.1.toNat := by decide
  obtain ⟨before, after, hsplit, -⟩ := List.lookup_eq_some_iff.mp h
  exact hletters (e, c) (hsplit ▸ List.mem_append_right before (List.mem_cons_self ..))

/-- One character is read from enough text. -/
theorem readString_cost_step {c : Char} {s t cs rest : List Char} (hstep : charCost c + visibleCount t ≤ visibleCount s)
    (ih : ∀ cs rest, readString t = some (cs, rest) → (cs.map charCost).sum + 1 + visibleCount rest ≤ visibleCount t)
    (h : (readString t).map (fun p => (c :: p.1, p.2)) = some (cs, rest)) :
    (cs.map charCost).sum + 1 + visibleCount rest ≤ visibleCount s := by
  obtain ⟨p, hp, heq⟩ := Option.map_eq_some_iff.mp h
  cases heq
  have hmore := ih p.1 p.2 hp
  rw [List.map_cons, List.sum_cons]
  omega

theorem charCost_escaped (c : Char) {s t : List Char} {e : Char} (he : 32 ≤ e.toNat) (h : t <:+ s) :
    charCost c + visibleCount t ≤ visibleCount (backslash :: e :: s) := by
  have hcost := charCost_le_two c
  have hsuffix := visibleCount_of_suffix h
  rw [visibleCount_cons (by decide), visibleCount_cons he]
  omega

/-- What a string's characters cost is in the text it is read from. -/
theorem readString_cost (n : Nat) (s : List Char) (hn : s.length = n) (cs rest : List Char)
    (h : readString s = some (cs, rest)) : (cs.map charCost).sum + 1 + visibleCount rest ≤ visibleCount s := by
  induction n using Nat.strong_induction_on generalizing s cs rest with
  | _ n ih =>
    have hread (t : List Char) (ht : t.length < s.length) (cs rest : List Char) (h : readString t = some (cs, rest)) :
        (cs.map charCost).sum + 1 + visibleCount rest ≤ visibleCount t := ih t.length (hn ▸ ht) t rfl cs rest h
    rw [readString.eq_def] at h
    split at h
    · cases h
    · rename_i c more
      have hmore := hread more (Nat.lt_succ_self _)
      split at h
      · rename_i hquote
        cases h
        rw [hquote, visibleCount_cons (by decide), List.map_nil, List.sum_nil]
        omega
      · rename_i hquote
        split at h
        · rename_i hbackslash
          split at h
          · cases h
          · rename_i hcontrol
            have hbare : standsBare c = true := by
              exact (standsBare_iff c).mpr ⟨hquote, hbackslash, by omega⟩
            refine readString_cost_step ?_ hmore h
            rw [charCost, if_pos hbare, visibleCount_cons (by omega)]
            omega
        · rename_i hbackslash
          rw [not_not] at hbackslash
          subst hbackslash
          split at h
          · cases h
          · rename_i e tail
            have hshort (t : List Char) (ht : t <:+ tail) : t.length < (backslash :: e :: tail).length :=
              Nat.lt_of_le_of_lt ht.length_le (by rw [List.length_cons, List.length_cons]; omega)
            split at h
            · split at h
              · rename_i c hlookup
                exact readString_cost_step (charCost_escaped c (visible_escapeLetter hlookup) (List.suffix_refl tail))
                  (hread tail (hshort tail (List.suffix_refl tail))) h
              · cases h
            · rename_i he
              rw [not_not] at he
              subst he
              split at h
              · rename_i a b c d tail
                have hfour : tail <:+ a :: b :: c :: d :: tail := ⟨[a, b, c, d], rfl⟩
                split at h
                · cases h
                · split at h
                  · cases h
                  · split at h
                    · split at h
                      · rename_i e u a' b' c' d' tail
                        have hmany : tail <:+ a :: b :: c :: d :: e :: u :: a' :: b' :: c' :: d' :: tail :=
                          ⟨[a, b, c, d, e, u, a', b', c', d'], rfl⟩
                        split at h
                        · cases h
                        · split at h
                          · exact readString_cost_step (charCost_escaped _ (by decide) hmany)
                              (hread tail (hshort tail hmany)) h
                          · cases h
                      · cases h
                    · exact readString_cost_step (charCost_escaped _ (by decide) hfour)
                        (hread tail (hshort tail hfour)) h
              · cases h

theorem ofDigitChars_lt {ds : List Char} (h : ∀ c ∈ ds, c.isDigit = true) :
    Nat.ofDigitChars 10 ds 0 < 10 ^ ds.length := by
  induction ds with
  | nil => exact (by decide : 0 < 1)
  | cons c ds ih =>
    obtain ⟨hc, hmore⟩ := List.forall_mem_cons.mp h
    have hrest := ih hmore
    have hdigit : c.toNat - '0'.toNat ≤ 9 := by
      have hle : c.val ≤ '9'.val := (of_decide_eq_true (Bool.and_eq_true_iff.mp hc).2)
      rw [UInt32.le_iff_toNat_le] at hle
      have hhigh : c.toNat ≤ 57 := hle
      exact (by omega : c.toNat - 48 ≤ 9)
    have hpower : 10 ^ ds.length * (c.toNat - '0'.toNat) ≤ 10 ^ ds.length * 9 := Nat.mul_le_mul_left _ hdigit
    rw [Nat.ofDigitChars_cons, Nat.ofDigitChars_eq_ofDigitChars_zero, Nat.mul_zero, Nat.zero_add, List.length_cons,
      Nat.pow_succ]
    omega

/-- The digits that are read are as many as the number has, or more. -/
theorem digits_cost {digits : List Char} (hne : digits ≠ []) (h : ∀ c ∈ digits, c.isDigit = true) :
    (Nat.toDigits 10 (Nat.ofDigitChars 10 digits 0)).length ≤ visibleCount digits := by
  have hvisible : visibleCount digits = digits.length := by
    refine List.countP_eq_length.mpr fun c hc => decide_eq_true ?_
    have hlow : '0'.val ≤ c.val := of_decide_eq_true (Bool.and_eq_true_iff.mp (h c hc)).1
    rw [UInt32.le_iff_toNat_le] at hlow
    have hbound : 48 ≤ c.toNat := hlow
    omega
  rw [hvisible]
  exact (Nat.length_toDigits_le_iff (by decide) (List.length_pos_iff.mpr hne)).mpr (ofDigitChars_lt h)

theorem encodeInt_length_neg (m : Nat) : (encodeInt (-(m : Int))).length ≤ (Nat.toDigits 10 m).length + 1 := by
  rw [encodeInt, Int.natAbs_neg, Int.natAbs_natCast, List.length_append]
  have hsign : (if -(m : Int) < 0 then ['-'] else []).length ≤ 1 := by split <;> decide
  omega

theorem readInt_cost {s : List Char} {n : Int} {rest : List Char} (h : readInt s = some (n, rest)) :
    (encodeInt n).length + visibleCount rest ≤ visibleCount s := by
  have hdigits (t : List Char) (hne : t.takeWhile Char.isDigit ≠ []) :
      (Nat.toDigits 10 (Nat.ofDigitChars 10 (t.takeWhile Char.isDigit) 0)).length +
        visibleCount (t.dropWhile Char.isDigit) ≤ visibleCount t := by
    have hcost := digits_cost hne fun c hc => List.mem_takeWhile_imp hc
    have hsplit := visibleCount_append (t.takeWhile Char.isDigit) (t.dropWhile Char.isDigit)
    rw [List.takeWhile_append_dropWhile] at hsplit
    omega
  by_cases hminus : s.head? = some '-'
  · obtain ⟨s, rfl⟩ : ∃ t, s = '-' :: t := by
      cases s with
      | nil => cases hminus
      | cons c t => exact ⟨t, by rw [Option.some.inj hminus]⟩
    simp only [readInt, List.head?_cons, if_true, List.tail_cons] at h
    split at h
    · cases h
    · rename_i hzeros
      have hcost := hdigits s (fun hnil => hzeros (.inl hnil))
      split at h
      · cases h
      · cases h
        have hneg := encodeInt_length_neg (Nat.ofDigitChars 10 (s.takeWhile Char.isDigit) 0)
        rw [visibleCount_cons (by decide)]
        omega
  · simp only [readInt, hminus, if_false] at h
    split at h
    · cases h
    · rename_i hzeros
      have hcost := hdigits s (fun hnil => hzeros (.inl hnil))
      split at h
      · cases h
      · cases h
        have hcast : encodeInt (Nat.ofDigitChars 10 (s.takeWhile Char.isDigit) 0 : Int) =
            Nat.toDigits 10 (Nat.ofDigitChars 10 (s.takeWhile Char.isDigit) 0) := by
          rw [encodeInt, if_neg (by omega), List.nil_append, Int.natAbs_natCast]
        rw [hcast]
        exact hcost

theorem cost_of_map {α : Type} {o : Option α} {f : α → Json × List Char} {x : Json} {rest : List Char} {n : Nat}
    (h : o.map f = some (x, rest)) (hf : ∀ p, o = some p → cost (f p).1 + visibleCount (f p).2 ≤ n) :
    cost x + visibleCount rest ≤ n := by
  obtain ⟨p, hp, heq⟩ := Option.map_eq_some_iff.mp h
  have hcost := hf p hp
  rwa [heq] at hcost

/-- A word of the language. -/
theorem word_cost {c : Char} {word s rest : List Char} {x y : Json} (hc : 32 ≤ c.toNat)
    (hword : cost y = visibleCount word + 1)
    (h : (s.dropPrefix? word).map (fun rest => (y, rest)) = some (x, rest)) :
    cost x + visibleCount rest ≤ visibleCount (c :: s) := by
  refine cost_of_map h fun p hp => ?_
  have hdrop := visibleCount_of_dropPrefix hp
  rw [visibleCount_cons hc, hword]
  exact (by omega : visibleCount word + 1 + visibleCount p ≤ visibleCount s + 1)

theorem readValue_cost {fuel : Nat}
    (hitems : ∀ s items rest, readItems fuel s = some (items, rest) →
      itemsCost items + visibleCount rest ≤ visibleCount s)
    (hfields : ∀ s fields rest, readFields fuel s = some (fields, rest) →
      fieldsCost fields + visibleCount rest ≤ visibleCount s)
    {s rest : List Char} {x : Json} (h : readValue (fuel + 1) s = some (x, rest)) :
    cost x + visibleCount rest ≤ visibleCount s := by
  cases s with
  | nil =>
    rw [readValue.eq_def] at h
    cases h
  | cons c s =>
    rw [readValue] at h
    split at h
    · rename_i hquote
      refine cost_of_map h fun p hp => ?_
      have hstring := readString_cost s.length s rfl p.1 p.2 hp
      rw [hquote, visibleCount_cons (by decide), cost, String.toList_ofList, stringCost]
      exact (by omega : (p.1.map charCost).sum + 2 + visibleCount p.2 ≤ visibleCount s + 1)
    · split at h
      · rename_i hbrace
        have hskip := visibleCount_skipSpace s
        rw [hbrace, visibleCount_cons (by decide)]
        split at h
        · rename_i more hclose
          cases h
          have hmore := visibleCount_of_next (by decide) hclose
          rw [cost, fieldsCost]
          omega
        · refine cost_of_map h fun p hp => ?_
          have hread := hfields _ _ _ hp
          have hkeep := fieldsCost_keepLast p.1
          rw [cost]
          exact (by omega : 1 + fieldsCost (keepLast p.1) + visibleCount p.2 ≤ visibleCount s + 1)
      · split at h
        · rename_i hbracket
          have hskip := visibleCount_skipSpace s
          rw [hbracket, visibleCount_cons (by decide)]
          split at h
          · rename_i more hclose
            cases h
            have hmore := visibleCount_of_next (by decide) hclose
            rw [cost, itemsCost]
            omega
          · refine cost_of_map h fun p hp => ?_
            have hread := hitems _ _ _ hp
            rw [cost]
            exact (by omega : 1 + itemsCost p.1 + visibleCount p.2 ≤ visibleCount s + 1)
        · split at h
          · rename_i hc
            exact word_cost (hc ▸ by decide) (by decide) h
          · split at h
            · rename_i hc
              exact word_cost (hc ▸ by decide) (by decide) h
            · split at h
              · rename_i hc
                exact word_cost (hc ▸ by decide) (by decide) h
              · refine cost_of_map h fun p hp => ?_
                exact readInt_cost hp

theorem readItems_cost {fuel : Nat}
    (hvalue : ∀ s x rest, readValue fuel s = some (x, rest) → cost x + visibleCount rest ≤ visibleCount s)
    (hitems : ∀ s items rest, readItems fuel s = some (items, rest) →
      itemsCost items + visibleCount rest ≤ visibleCount s)
    {s rest : List Char} {items : List Json} (h : readItems (fuel + 1) s = some (items, rest)) :
    itemsCost items + visibleCount rest ≤ visibleCount s := by
  rw [readItems] at h
  split at h
  · cases h
  · rename_i x more hread
    have hfirst := hvalue _ _ _ hread
    split at h
    · rename_i tail hcomma
      obtain ⟨p, hmore, hp⟩ := Option.map_eq_some_iff.mp h
      cases hp
      have hrest := hitems _ _ _ hmore
      have hnext := visibleCount_of_next (by decide) hcomma
      have hskip := visibleCount_skipSpace tail
      rw [itemsCost]
      omega
    · obtain ⟨p, hclose, hp⟩ := Option.map_eq_some_iff.mp h
      cases hp
      have hnext := visibleCount_of_next (by decide) hclose
      rw [itemsCost, itemsCost]
      omega

theorem readFields_cost {fuel : Nat}
    (hvalue : ∀ s x rest, readValue fuel s = some (x, rest) → cost x + visibleCount rest ≤ visibleCount s)
    (hfields : ∀ s fields rest, readFields fuel s = some (fields, rest) →
      fieldsCost fields + visibleCount rest ≤ visibleCount s)
    {s rest : List Char} {fields : Payload} (h : readFields (fuel + 1) s = some (fields, rest)) :
    fieldsCost fields + visibleCount rest ≤ visibleCount s := by
  rw [readFields] at h
  split at h
  · cases h
  · rename_i key afterKey hkey
    split at h
    · cases h
    · rename_i x more hread
      obtain ⟨opened, hopen, hkey⟩ := Option.bind_eq_some_iff.mp hkey
      obtain ⟨colon, hcolon, hread⟩ := Option.bind_eq_some_iff.mp hread
      have hopened := visibleCount_of_next (by decide) hopen
      have hstring := readString_cost _ _ rfl _ _ hkey
      have hcolon := visibleCount_of_next (by decide) hcolon
      have hfirst := hvalue _ _ _ hread
      have hskip := visibleCount_skipSpace colon
      split at h
      · rename_i tail hcomma
        obtain ⟨p, hmore, hp⟩ := Option.map_eq_some_iff.mp h
        cases hp
        have hrest := hfields _ _ _ hmore
        have hnext := visibleCount_of_next (by decide) hcomma
        have hskip' := visibleCount_skipSpace tail
        rw [fieldsCost, String.toList_ofList, stringCost]
        omega
      · obtain ⟨p, hclose, hp⟩ := Option.map_eq_some_iff.mp h
        cases hp
        have hnext := visibleCount_of_next (by decide) hclose
        rw [fieldsCost, fieldsCost, String.toList_ofList, stringCost]
        omega

/-- What is read costs no more than the text it is read from. -/
theorem read_cost (fuel : Nat) :
    (∀ s x rest, readValue fuel s = some (x, rest) → cost x + visibleCount rest ≤ visibleCount s) ∧
      (∀ s items rest, readItems fuel s = some (items, rest) → itemsCost items + visibleCount rest ≤ visibleCount s) ∧
      ∀ s fields rest, readFields fuel s = some (fields, rest) →
        fieldsCost fields + visibleCount rest ≤ visibleCount s := by
  induction fuel with
  | zero =>
    refine ⟨fun s x rest h => ?_, fun s items rest h => ?_, fun s fields rest h => ?_⟩
    · rw [readValue] at h
      cases h
    · rw [readItems] at h
      cases h
    · rw [readFields] at h
      cases h
  | succ fuel ih =>
    obtain ⟨hvalue, hitems, hfields⟩ := ih
    exact ⟨fun s x rest => readValue_cost hitems hfields, fun s items rest => readItems_cost hvalue hitems,
      fun s fields rest => readFields_cost hvalue hfields⟩

end readers
end DynvarSync.Lib.JsonText
