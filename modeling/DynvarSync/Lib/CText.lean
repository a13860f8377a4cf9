import DynvarSync.Lib.PyText
import Mathlib.Data.List.TakeWhile

/-! The C library's text functions, on strings without their terminator, and the search
for a delimited word in a text cut at its delimiters. -/
namespace DynvarSync.Lib.CText
open PyText

/-- `strstr`: the text from the first occurrence on. -/
def strstr (pattern : List Char) : List Char → Option (List Char)
  | [] => if pattern = [] then some [] else none
  | c :: rest => if pattern <+: c :: rest then some (c :: rest) else strstr pattern rest

/-- `strchr`: the text from the first occurrence on. -/
def strchr (c : Char) (s : List Char) : Option (List Char) :=
  match s.dropWhile (· ≠ c) with
  | [] => none
  | d :: rest => some (d :: rest)

/-- The sign `scanf` reads before a number. -/
def scanSign : List Char → Bool × List Char
  | '-' :: rest => (true, rest)
  | '+' :: rest => (false, rest)
  | s => (false, s)

/-- The longest run of digits; `none` is a matching failure. -/
def scanDigits (base : Nat) (s : List Char) : Option Nat :=
  match s.takeWhile fun c => (digitIn base c).isSome with
  | [] => none
  | digits => some (digits.foldl (fun n c => n * base + (digitIn base c).getD 0) 0)

/-- A number that was read, as the C runtime keeps it: saturated at 64 bits, then negated. -/
def toUnsigned (negative : Bool) (n : Nat) : Nat :=
  let n := min n (2 ^ 64 - 1)
  if negative then (2 ^ 64 - n) % 2 ^ 64 else n

/-- `sscanf(text, "%lu", &value)`; an `unsigned long` has 32 bits. -/
def scanUnsigned (s : List Char) : Option Nat :=
  let (negative, s) := scanSign (s.dropWhile asciiSpace)
  (scanDigits 10 s).map fun n => toUnsigned negative n % 2 ^ 32

/-- What follows the mark of a hexadecimal number, where there is one. -/
def skipMark : List Char → List Char
  | '0' :: 'x' :: rest => rest
  | '0' :: 'X' :: rest => rest
  | s => s

/-- `sscanf(text, "%llx", &value)`. -/
def scanHex (s : List Char) : Option Nat :=
  let (negative, s) := scanSign (s.dropWhile asciiSpace)
  (scanDigits 16 (skipMark s)).map (toUnsigned negative)

section search
variable {q : Char} {word : List Char}

/-- Some pieces of text, each followed by the delimiter, before a rest. -/
def joined (q : Char) (pieces : List (List Char)) (rest : List Char) : List Char :=
  pieces.foldr (fun piece text => piece ++ q :: text) rest

theorem joined_nil (rest : List Char) : joined q [] rest = rest := rfl

theorem joined_cons (piece : List Char) (pieces : List (List Char)) (rest : List Char) :
    joined q (piece :: pieces) rest = piece ++ q :: joined q pieces rest := rfl

theorem joined_append (pieces more : List (List Char)) (rest : List Char) :
    joined q (pieces ++ more) rest = joined q pieces (joined q more rest) := List.foldr_append

/-- A text is cut at its first delimiter, wherever that stands. -/
theorem takeWhile_delimited (piece rest : List Char) :
    (piece ++ q :: rest).takeWhile (· ≠ q) = piece.takeWhile (· ≠ q) := by
  induction piece with
  | nil => exact List.takeWhile_cons_of_neg (by simp)
  | cons c piece ih =>
    by_cases hc : c = q
    · rw [List.cons_append, List.takeWhile_cons_of_neg (by simp [hc]), List.takeWhile_cons_of_neg (by simp [hc])]
    · rw [List.cons_append, List.takeWhile_cons_of_pos (by simp [hc]), List.takeWhile_cons_of_pos (by simp [hc]), ih]

theorem takeWhile_of_not_mem {piece : List Char} (h : q ∉ piece) : piece.takeWhile (· ≠ q) = piece :=
  List.takeWhile_eq_self_iff.mpr fun _ hc => decide_eq_true fun hcq => h (hcq ▸ hc)

/-- No occurrence begins before the first delimiter. -/
theorem strstr_skip {piece : List Char} (h : q ∉ piece) (pattern rest : List Char) :
    strstr (q :: pattern) (piece ++ rest) = strstr (q :: pattern) rest := by
  induction piece with
  | nil => rfl
  | cons c piece ih =>
    obtain ⟨hc, hpiece⟩ := not_or.mp (mt List.mem_cons.mpr h)
    have hno : ¬ (q :: pattern <+: c :: (piece ++ rest)) := fun hbegins => hc (List.cons_prefix_cons.mp hbegins).1
    rw [List.cons_append, strstr, if_neg hno, ih hpiece]

/-- Between two delimiters the word occurs only as a whole. -/
theorem delimited_prefix_iff (hword : q ∉ word) {piece : List Char} (hpiece : q ∉ piece) (rest : List Char) :
    q :: (word ++ [q]) <+: q :: (piece ++ q :: rest) ↔ piece = word := by
  rw [List.cons_prefix_cons]
  constructor
  · rintro ⟨-, more, hmore⟩
    rw [List.append_assoc, List.singleton_append] at hmore
    have hcut := congrArg (List.takeWhile (· ≠ q)) hmore
    rw [takeWhile_delimited, takeWhile_delimited, takeWhile_of_not_mem hword, takeWhile_of_not_mem hpiece] at hcut
    exact hcut.symm
  · rintro rfl
    exact ⟨rfl, rest, by rw [List.append_assoc, List.singleton_append]⟩

/-- The search stops at the first piece that is the word. -/
theorem strstr_joined (hword : q ∉ word) {pieces : List (List Char)} (hne : pieces ≠ [])
    (hpieces : ∀ piece ∈ pieces, q ∉ piece ∧ piece ≠ word) (rest : List Char) :
    strstr (q :: (word ++ [q])) (joined q pieces (word ++ q :: rest)) = some (q :: (word ++ q :: rest)) := by
  induction pieces with
  | nil => exact absurd rfl hne
  | cons piece pieces ih =>
    obtain ⟨⟨hpiece, -⟩, hmore⟩ := List.forall_mem_cons.mp hpieces
    rw [joined_cons, strstr_skip hpiece, strstr]
    cases pieces with
    | nil => exact if_pos ((delimited_prefix_iff hword hword rest).mpr rfl)
    | cons other pieces =>
      obtain ⟨hother, hne⟩ := hmore other (List.mem_cons_self ..)
      exact (if_neg fun h => hne ((delimited_prefix_iff hword hother _).mp h)).trans
        (ih (List.cons_ne_nil other pieces) hmore)

theorem strchr_skip {c : Char} {gap : List Char} (h : c ∉ gap) (rest : List Char) :
    strchr c (gap ++ c :: rest) = some (c :: rest) := by
  have hgap : ∀ d ∈ gap, decide (d ≠ c) = true := fun d hd => decide_eq_true fun hdc => h (hdc ▸ hd)
  rw [strchr, List.dropWhile_append_of_pos hgap, List.dropWhile_cons_of_neg (by simp)]

theorem strstr_suffix {pattern s pos : List Char} (h : strstr pattern s = some pos) : pos <:+ s := by
  induction s with
  | nil =>
    rw [strstr] at h
    split at h
    · cases h
      exact List.suffix_refl _
    · cases h
  | cons c s ih =>
    rw [strstr] at h
    split at h
    · cases h
      exact List.suffix_refl _
    · exact (ih h).trans (List.suffix_cons c s)

theorem strchr_suffix {c : Char} {s pos : List Char} (h : strchr c s = some pos) : pos <:+ s := by
  rw [strchr] at h
  split at h
  · cases h
  · rename_i d rest hdrop
    cases h
    exact hdrop ▸ List.dropWhile_suffix _

end search

section numbers

theorem digitIn_digitChar {base d : Nat} (hbase : base ≤ 16) (h : d < base) :
    digitIn base (Nat.digitChar d) = some d := by
  have hdigit : ∀ d < 16, digitOf (Nat.digitChar d) = some d := by decide
  rw [digitIn, hdigit d (by omega), Option.filter_some, if_pos (decide_eq_true h)]

/-- A number is read up to the first character that is no digit. -/
theorem scanDigits_toDigits {base : Nat} (hlow : 2 ≤ base) (hhigh : base ≤ 16) (n : Nat) {rest : List Char}
    (hrest : ∀ c ∈ rest.head?, digitIn base c = none) : scanDigits base (Nat.toDigits base n ++ rest) = some n := by
  obtain ⟨ds, hlt, hne, hds, hvalue⟩ := exists_digits hlow hhigh n
  have hdigit : ∀ d ∈ ds, digitIn base (Nat.digitChar d) = some d := fun d hd => digitIn_digitChar hhigh (hlt d hd)
  have hall : ∀ c ∈ ds.map Nat.digitChar, (digitIn base c).isSome = true := by
    intro c hc
    obtain ⟨d, hd, rfl⟩ := List.mem_map.mp hc
    rw [hdigit d hd]
    rfl
  have hstop : rest.takeWhile (fun c => (digitIn base c).isSome) = [] := by
    cases rest with
    | nil => rfl
    | cons c rest => rw [List.takeWhile_cons_of_neg (by rw [hrest c rfl]; decide)]
  have hfold : ∀ (l : List Nat) (acc : Nat), (∀ d ∈ l, digitIn base (Nat.digitChar d) = some d) →
      (l.map Nat.digitChar).foldl (fun n c => n * base + (digitIn base c).getD 0) acc =
        l.foldl (fun n d => n * base + d) acc := by
    intro l
    induction l with
    | nil => exact fun _ _ => rfl
    | cons d l ih =>
      intro acc hl
      obtain ⟨hd, hmore⟩ := List.forall_mem_cons.mp hl
      rw [List.map_cons, List.foldl_cons, List.foldl_cons, hd, ih _ hmore]
      rfl
  obtain ⟨d, more, rfl⟩ := List.exists_cons_of_ne_nil hne
  rw [hds, scanDigits, List.takeWhile_append_of_pos hall, hstop, List.append_nil]
  exact congrArg some ((hfold (d :: more) 0 hdigit).trans hvalue)

theorem isDigit_bounds {c : Char} (h : c.isDigit = true) : 48 ≤ c.toNat ∧ c.toNat ≤ 57 := by
  simp only [Char.isDigit, Bool.and_eq_true, decide_eq_true_eq, UInt32.le_iff_toNat_le] at h
  exact h

theorem asciiSpace_of_isDigit {c : Char} (h : c.isDigit = true) : asciiSpace c = false := by
  obtain ⟨hlow, -⟩ := isDigit_bounds h
  have hblank : c ≠ ' ' := by
    rintro rfl
    exact absurd hlow (by decide)
  simp only [asciiSpace, hblank, decide_false, Bool.false_or, Bool.and_eq_false_iff, decide_eq_false_iff_not]
  omega

theorem scanSign_of_isDigit {c : Char} (h : c.isDigit = true) (rest : List Char) :
    scanSign (c :: rest) = (false, c :: rest) := by
  obtain ⟨hlow, -⟩ := isDigit_bounds h
  rw [scanSign.eq_def]
  split
  · rename_i heq
    rw [(List.cons.inj heq).1] at hlow
    exact absurd hlow (by decide)
  · rename_i heq
    rw [(List.cons.inj heq).1] at hlow
    exact absurd hlow (by decide)
  · rfl

/-- A decimal text is read as its number. -/
theorem scanUnsigned_toDigits {n : Nat} (h : n < 2 ^ 32) {rest : List Char}
    (hrest : ∀ c ∈ rest.head?, digitIn 10 c = none) : scanUnsigned (Nat.toDigits 10 n ++ rest) = some n := by
  obtain ⟨c, digits, hdigits⟩ := List.exists_cons_of_ne_nil (Nat.toDigits_ne_nil (n := n) (b := 10))
  have hmem : c ∈ Nat.toDigits 10 n := by
    rw [hdigits]
    exact List.mem_cons_self ..
  have hdigit : c.isDigit = true := Nat.isDigit_of_mem_toDigits (by decide) (by decide) hmem
  have hscan := scanDigits_toDigits (show 2 ≤ 10 by decide) (by decide) n hrest
  rw [hdigits, List.cons_append] at hscan ⊢
  rw [scanUnsigned, List.dropWhile_cons_of_neg (by rw [asciiSpace_of_isDigit hdigit]; decide),
    scanSign_of_isDigit hdigit]
  dsimp only
  rw [hscan, Option.map_some, toUnsigned]
  simp only [Bool.false_eq_true, if_false, Option.some.injEq]
  omega

/-- A hexadecimal text with its mark is read as its number. -/
theorem scanHex_formatHex {n : Nat} (h : n < 2 ^ 64) : scanHex (formatHex n).toList = some n := by
  have hscan : scanDigits 16 (Nat.toDigits 16 n ++ []) = some n := scanDigits_toDigits (by decide) (by decide) n nofun
  have hn : ¬ (n : Int) < 0 := by omega
  have htext : (formatHex n).toList = '0' :: 'x' :: Nat.toDigits 16 n := by
    rw [formatHex, if_neg hn, List.nil_append, Int.natAbs_natCast, String.toList_append, String.toList_ofList]
    simp
  rw [List.append_nil] at hscan
  have hsign : scanSign ('0' :: 'x' :: Nat.toDigits 16 n) = (false, '0' :: 'x' :: Nat.toDigits 16 n) := rfl
  have hmark : skipMark ('0' :: 'x' :: Nat.toDigits 16 n) = Nat.toDigits 16 n := rfl
  rw [htext, scanHex, List.dropWhile_cons_of_neg (by decide), hsign]
  dsimp only
  rw [hmark, hscan, Option.map_some, toUnsigned]
  simp only [Bool.false_eq_true, if_false, Option.some.injEq]
  omega

theorem scanUnsigned_lt {s : List Char} {n : Nat} (h : scanUnsigned s = some n) : n < 2 ^ 32 := by
  obtain ⟨m, -, rfl⟩ := Option.map_eq_some_iff.mp h
  exact Nat.mod_lt _ (by decide)

end numbers
end DynvarSync.Lib.CText
