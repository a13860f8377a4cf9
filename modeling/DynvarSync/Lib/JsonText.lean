import DynvarSync.Lib.Dict
import DynvarSync.Lib.Json
import Mathlib.Data.List.TakeWhile

/-! JSON texts: the compact ASCII writer and the reader of Python's `json`, for values
without floats, and the round trip between them. -/
namespace DynvarSync.Lib.JsonText
open PyText

def quote : Char := Char.ofNat 34
def backslash : Char := Char.ofNat 92

section writer

/-- Four lower-case hexadecimal digits. -/
def hex4 (n : Nat) : List Char :=
  [Nat.digitChar (n / 4096 % 16), Nat.digitChar (n / 256 % 16), Nat.digitChar (n / 16 % 16), Nat.digitChar (n % 16)]

/-- The letters of the short escapes, with the characters they stand for. -/
def shortEscapes : List (Char × Char) :=
  [(quote, quote), (backslash, backslash), ('b', Char.ofNat 8), ('t', Char.ofNat 9), ('n', Char.ofNat 10),
   ('f', Char.ofNat 12), ('r', Char.ofNat 13)]

def unicodeEscape (n : Nat) : List Char := backslash :: 'u' :: hex4 n

/-- One character of a string; outside printable ASCII it is escaped, above the basic plane as two surrogates. -/
def escapeChar (c : Char) : List Char :=
  match shortEscapes.find? fun entry => entry.2 = c with
  | some entry => [backslash, entry.1]
  | none =>
    if 32 ≤ c.toNat ∧ c.toNat < 127 then [c]
    else if c.toNat < 0x10000 then unicodeEscape c.toNat
    else unicodeEscape (0xd800 + (c.toNat - 0x10000) / 1024) ++ unicodeEscape (0xdc00 + (c.toNat - 0x10000) % 1024)

/-- The characters between the quotes of a string. -/
def escape (cs : List Char) : List Char := cs.flatMap escapeChar

def encodeString (s : String) : List Char := quote :: (escape s.toList ++ [quote])

def encodeInt (n : Int) : List Char := (if n < 0 then ['-'] else []) ++ Nat.toDigits 10 n.natAbs

mutual
/-- `json.dumps(value, separators=(",", ":"))`. -/
def encode : Json → List Char
  | .null => ['n', 'u', 'l', 'l']
  | .bool true => ['t', 'r', 'u', 'e']
  | .bool false => ['f', 'a', 'l', 's', 'e']
  | .int n => encodeInt n
  | .float x => x.repr.toList
  | .str s => encodeString s
  | .arr items => '[' :: (encodeItems items ++ [']'])
  | .obj fields => '{' :: (encodeFields fields ++ ['}'])

def encodeItems : List Json → List Char
  | [] => []
  | [x] => encode x
  | x :: rest => encode x ++ ',' :: encodeItems rest

def encodeFields : List (String × Json) → List Char
  | [] => []
  | [(k, x)] => encodeString k ++ ':' :: encode x
  | (k, x) :: rest => encodeString k ++ ':' :: (encode x ++ ',' :: encodeFields rest)
end

end writer

section reader

def jsonSpace (c : Char) : Bool := c = ' ' || c.toNat = 9 || c.toNat = 10 || c.toNat = 13

def skipSpace (s : List Char) : List Char := s.dropWhile jsonSpace

def readHex4 (a b c d : Char) : Option Nat := do
  let a ← digitOf a
  let b ← digitOf b
  let c ← digitOf c
  let d ← digitOf d
  pure (a * 4096 + b * 256 + c * 16 + d)

def isHighSurrogate (n : Nat) : Bool := 0xd800 ≤ n && n < 0xdc00
def isLowSurrogate (n : Nat) : Bool := 0xdc00 ≤ n && n < 0xe000

/-- The characters up to the closing quote, and what follows it; a surrogate without its other half is refused. -/
def readString : List Char → Option (List Char × List Char)
  | [] => none
  | c :: rest =>
    if c = quote then some ([], rest)
    else if c ≠ backslash then
      if c.toNat < 32 then none else (readString rest).map fun p => (c :: p.1, p.2)
    else match rest with
      | [] => none
      | e :: rest =>
        if e ≠ 'u' then
          match (shortEscapes ++ [('/', '/')]).lookup e with
          | some c => (readString rest).map fun p => (c :: p.1, p.2)
          | none => none
        else match rest with
          | a :: b :: c :: d :: rest =>
            match readHex4 a b c d with
            | none => none
            | some n =>
              if isLowSurrogate n then none
              else if isHighSurrogate n then
                match rest with
                | e :: u :: a :: b :: c :: d :: rest =>
                  match readHex4 a b c d with
                  | none => none
                  | some m =>
                    if e = backslash ∧ u = 'u' ∧ isLowSurrogate m then (readString rest).map fun p =>
                      (Char.ofNat (0x10000 + (n - 0xd800) * 1024 + (m - 0xdc00)) :: p.1, p.2)
                    else none
                | _ => none
              else (readString rest).map fun p => (Char.ofNat n :: p.1, p.2)
          | _ => none

/-- An integer without superfluous zeros; a fraction or an exponent would make it a float. -/
def readInt (s : List Char) : Option (Int × List Char) :=
  let negative := s.head? = some '-'
  let s := if negative then s.tail else s
  let digits := s.takeWhile Char.isDigit
  let rest := s.dropWhile Char.isDigit
  if digits = [] ∨ (digits.head? = some '0' ∧ digits ≠ ['0']) then none
  else if rest.head? = some '.' ∨ rest.head? = some 'e' ∨ rest.head? = some 'E' then none
  else some ((if negative then -(Nat.ofDigitChars 10 digits 0 : Int) else (Nat.ofDigitChars 10 digits 0 : Int)), rest)

/-- What follows the character, if it comes next. -/
def next (c : Char) (s : List Char) : Option (List Char) :=
  match skipSpace s with
  | d :: rest => if d = c then some rest else none
  | [] => none

mutual
/-- One value and what follows it. -/
def readValue : Nat → List Char → Option (Json × List Char)
  | 0, _ => none
  | _, [] => none
  | fuel + 1, c :: rest =>
    if c = quote then (readString rest).map fun p => (.str (String.ofList p.1), p.2)
    else if c = '{' then
      match next '}' rest with
      | some rest => some (.obj [], rest)
      | none => (readFields fuel (skipSpace rest)).map fun p =>
          (.obj (p.1.foldl (fun d field => d.set field.1 field.2) Dict.empty).entries, p.2)
    else if c = '[' then
      match next ']' rest with
      | some rest => some (.arr [], rest)
      | none => (readItems fuel (skipSpace rest)).map fun p => (.arr p.1, p.2)
    else if c = 'n' then (rest.dropPrefix? ['u', 'l', 'l']).map fun rest => (.null, rest)
    else if c = 't' then (rest.dropPrefix? ['r', 'u', 'e']).map fun rest => (.bool true, rest)
    else if c = 'f' then (rest.dropPrefix? ['a', 'l', 's', 'e']).map fun rest => (.bool false, rest)
    else (readInt (c :: rest)).map fun p => (.int p.1, p.2)

/-- The items of an array that is not empty, and what follows its bracket. -/
def readItems : Nat → List Char → Option (List Json × List Char)
  | 0, _ => none
  | fuel + 1, s =>
    match readValue fuel s with
    | none => none
    | some (x, rest) =>
      match next ',' rest with
      | some rest => (readItems fuel (skipSpace rest)).map fun p => (x :: p.1, p.2)
      | none => (next ']' rest).map fun rest => ([x], rest)

/-- The fields of an object that is not empty, and what follows its brace. -/
def readFields : Nat → List Char → Option (List (String × Json) × List Char)
  | 0, _ => none
  | fuel + 1, s =>
    match (next quote s).bind readString with
    | none => none
    | some (key, rest) =>
      match (next ':' rest).bind fun rest => readValue fuel (skipSpace rest) with
      | none => none
      | some (x, rest) =>
        match next ',' rest with
        | some rest => (readFields fuel (skipSpace rest)).map fun p => ((String.ofList key, x) :: p.1, p.2)
        | none => (next '}' rest).map fun rest => ([(String.ofList key, x)], rest)
end

/-- `json.loads(text)`; `none` is the error. -/
def decode (text : List Char) : Option Json :=
  match readValue (text.length + 1) (skipSpace text) with
  | some (x, rest) => if skipSpace rest = [] then some x else none
  | none => none

end reader

section strings

theorem digitOf_digitChar {d : Nat} (h : d < 16) : digitOf (Nat.digitChar d) = some d := by
  revert h d
  decide

theorem readHex4_hex4 {n : Nat} (h : n < 65536) :
    readHex4 (Nat.digitChar (n / 4096 % 16)) (Nat.digitChar (n / 256 % 16)) (Nat.digitChar (n / 16 % 16))
      (Nat.digitChar (n % 16)) = some n := by
  rw [readHex4, digitOf_digitChar (by omega), digitOf_digitChar (by omega), digitOf_digitChar (by omega),
    digitOf_digitChar (by omega)]
  exact congrArg some (by omega)

theorem readString_quote (rest : List Char) : readString (quote :: rest) = some ([], rest) := by
  rw [readString.eq_def]
  exact if_pos rfl

theorem readString_plain {c : Char} (hquote : c ≠ quote) (hbackslash : c ≠ backslash) (hprintable : 32 ≤ c.toNat)
    (rest : List Char) : readString (c :: rest) = (readString rest).map fun p => (c :: p.1, p.2) := by
  rw [readString.eq_def]
  dsimp only
  rw [if_neg hquote, if_pos hbackslash, if_neg (by omega)]

theorem readString_short {entry : Char × Char} (h : entry ∈ shortEscapes) (rest : List Char) :
    readString (backslash :: entry.1 :: rest) = (readString rest).map fun p => (entry.2 :: p.1, p.2) := by
  have hescapes : ∀ entry ∈ shortEscapes, entry.1 ≠ 'u' ∧
    (shortEscapes ++ [('/', '/')]).lookup entry.1 = some entry.2 := by
    decide
  obtain ⟨hletter, hlookup⟩ := hescapes entry h
  rw [readString.eq_def]
  dsimp only
  rw [if_neg (by decide), if_neg (by decide), if_pos hletter, hlookup]

theorem readString_unicode {n : Nat} (h : n < 65536) (hlow : isLowSurrogate n = false)
    (hhigh : isHighSurrogate n = false)
    (rest : List Char) :
    readString (unicodeEscape n ++ rest) = (readString rest).map fun p => (Char.ofNat n :: p.1, p.2) := by
  rw [unicodeEscape, hex4, readString.eq_def]
  dsimp only [List.cons_append, List.nil_append]
  rw [if_neg (by decide), if_neg (by decide), if_neg (by decide), readHex4_hex4 h]
  dsimp only
  rw [hlow, hhigh]
  rfl

theorem readString_surrogates {n m : Nat} (hhigh : isHighSurrogate n = true) (hlow : isLowSurrogate m = true)
    (rest : List Char) :
    readString (unicodeEscape n ++ (unicodeEscape m ++ rest)) =
      (readString rest).map fun p => (Char.ofNat (0x10000 + (n - 0xd800) * 1024 + (m - 0xdc00)) :: p.1, p.2) := by
  simp only [isHighSurrogate, isLowSurrogate, Bool.and_eq_true, decide_eq_true_eq] at hhigh hlow
  have hnotlow : isLowSurrogate n = false := by simp [isLowSurrogate]; omega
  have hishigh : isHighSurrogate n = true := by simp [isHighSurrogate]; omega
  have hislow : isLowSurrogate m = true := by simp [isLowSurrogate]; omega
  rw [unicodeEscape, unicodeEscape, hex4, hex4, readString.eq_def]
  dsimp only [List.cons_append, List.nil_append]
  rw [if_neg (by decide), if_neg (by decide), if_neg (by decide), readHex4_hex4 (by omega)]
  dsimp only
  rw [hnotlow, hishigh, readHex4_hex4 (by omega)]
  dsimp only
  rw [if_neg (by decide), if_pos rfl, if_pos ⟨rfl, rfl, hislow⟩]

/-- An escaped character is read back as itself. -/
theorem readString_escapeChar (c : Char) (rest : List Char) :
    readString (escapeChar c ++ rest) = (readString rest).map fun p => (c :: p.1, p.2) := by
  have hvalid := c.valid
  have hscalar : c.toNat < 0xd800 ∨ 0xdfff < c.toNat ∧ c.toNat < 0x110000 := hvalid
  rw [escapeChar]
  cases hfind : shortEscapes.find? (fun entry => entry.2 = c) with
  | some entry =>
    have hc : entry.2 = c := by simpa using List.find?_some hfind
    dsimp only [List.cons_append, List.nil_append]
    rw [readString_short (List.mem_of_find?_eq_some hfind), hc]
  | none =>
    have hother : ∀ entry ∈ shortEscapes, entry.2 ≠ c := by simpa using List.find?_eq_none.mp hfind
    dsimp only
    split
    · rename_i hprintable
      have hquote : c ≠ quote := (hother (quote, quote) (by decide)).symm
      have hbackslash : c ≠ backslash := (hother (backslash, backslash) (by decide)).symm
      exact readString_plain hquote hbackslash hprintable.1 rest
    · split
      · rename_i hbasic
        have hlow : isLowSurrogate c.toNat = false := by simp [isLowSurrogate]; omega
        have hhigh : isHighSurrogate c.toNat = false := by simp [isHighSurrogate]; omega
        rw [readString_unicode hbasic hlow hhigh, Char.ofNat_toNat]
      · rename_i hastral
        have hhigh : isHighSurrogate (0xd800 + (c.toNat - 0x10000) / 1024) = true := by simp [isHighSurrogate]; omega
        have hlow : isLowSurrogate (0xdc00 + (c.toNat - 0x10000) % 1024) = true := by simp [isLowSurrogate]; omega
        have hvalue : 0x10000 + (0xd800 + (c.toNat - 0x10000) / 1024 - 0xd800) * 1024 +
            (0xdc00 + (c.toNat - 0x10000) % 1024 - 0xdc00) = c.toNat := by omega
        rw [List.append_assoc, readString_surrogates hhigh hlow, hvalue, Char.ofNat_toNat]

/-- A written string is read back up to its closing quote. -/
theorem readString_escape (cs rest : List Char) : readString (escape cs ++ quote :: rest) = some (cs, rest) := by
  induction cs with
  | nil => exact readString_quote rest
  | cons c cs ih =>
    have hcons : escape (c :: cs) = escapeChar c ++ escape cs := List.flatMap_cons
    rw [hcons, List.append_assoc, readString_escapeChar, ih]
    rfl

/-- Printable ASCII that needs no escape. -/
def plainChar (c : Char) : Bool := 32 ≤ c.toNat && c.toNat < 127 && c ≠ quote && c ≠ backslash

def Plain (cs : List Char) : Prop := ∀ c ∈ cs, plainChar c = true

instance (cs : List Char) : Decidable (Plain cs) := List.decidableBAll (fun c => plainChar c = true) cs

theorem plainChar_iff (c : Char) :
    plainChar c = true ↔ 32 ≤ c.toNat ∧ c.toNat < 127 ∧ c ≠ quote ∧ c ≠ backslash := by
  simp only [plainChar, Bool.and_eq_true, decide_eq_true_eq, and_assoc]

theorem escapeChar_plain {c : Char} (h : plainChar c = true) : escapeChar c = [c] := by
  obtain ⟨hlow, hhigh, hquote, hbackslash⟩ := (plainChar_iff c).mp h
  have hnone : shortEscapes.find? (fun entry => entry.2 = c) = none := by
    have hcodes : ∀ entry ∈ shortEscapes, entry.2 = quote ∨ entry.2 = backslash ∨ entry.2.toNat < 32 := by decide
    rw [List.find?_eq_none]
    intro entry hentry heq
    have hc : entry.2 = c := of_decide_eq_true heq
    rcases hcodes entry hentry with h | h | h
    · exact hquote (hc ▸ h)
    · exact hbackslash (hc ▸ h)
    · rw [hc] at h
      omega
  rw [escapeChar, hnone]
  exact if_pos ⟨hlow, hhigh⟩

/-- Every other character becomes a sequence that starts with a backslash. -/
theorem escapeChar_not_plain {c : Char} (h : plainChar c = false) :
    ∃ d rest, escapeChar c = backslash :: d :: rest ∧ (c = backslash → d = backslash ∧ rest = []) := by
  rw [escapeChar]
  cases hfind : shortEscapes.find? (fun entry => entry.2 = c) with
  | some entry =>
    have hc : entry.2 = c := by simpa using List.find?_some hfind
    have hletter : ∀ entry ∈ shortEscapes, entry.2 = backslash → entry.1 = backslash := by decide
    exact ⟨entry.1, [], rfl, fun hb => ⟨hletter entry (List.mem_of_find?_eq_some hfind) (hc.trans hb), rfl⟩⟩
  | none =>
    have hother : ∀ entry ∈ shortEscapes, entry.2 ≠ c := by simpa using List.find?_eq_none.mp hfind
    have hquote : c ≠ quote := (hother (quote, quote) (by decide)).symm
    have hbackslash : c ≠ backslash := (hother (backslash, backslash) (by decide)).symm
    have hrange : ¬ (32 ≤ c.toNat ∧ c.toNat < 127) := by
      intro hrange
      rw [(plainChar_iff c).mpr ⟨hrange.1, hrange.2, hquote, hbackslash⟩] at h
      cases h
    dsimp only
    rw [if_neg hrange]
    split
    · exact ⟨_, _, rfl, fun hb => absurd hb hbackslash⟩
    · exact ⟨_, _, rfl, fun hb => absurd hb hbackslash⟩

theorem escape_cons (c : Char) (cs : List Char) : escape (c :: cs) = escapeChar c ++ escape cs := List.flatMap_cons

theorem escape_plain {cs : List Char} (h : Plain cs) : escape cs = cs := by
  induction cs with
  | nil => rfl
  | cons c cs ih =>
    obtain ⟨hc, hcs⟩ := List.forall_mem_cons.mp h
    rw [escape_cons, escapeChar_plain hc, ih hcs]
    rfl

theorem not_mem_quote_of_plain {cs : List Char} (h : Plain cs) : quote ∉ cs :=
  fun hmem => ((plainChar_iff quote).mp (h quote hmem)).2.2.1 rfl

/-- Printable ASCII. -/
def Printable (cs : List Char) : Prop := ∀ c ∈ cs, 32 ≤ c.toNat ∧ c.toNat < 127

instance (cs : List Char) : Decidable (Printable cs) :=
    List.decidableBAll (fun c : Char => 32 ≤ c.toNat ∧ c.toNat < 127) cs

theorem Plain.printable {cs : List Char} (h : Plain cs) : Printable cs := by
  intro c hc
  obtain ⟨hlow, hhigh, -⟩ := (plainChar_iff c).mp (h c hc)
  exact ⟨hlow, hhigh⟩

theorem plain_hexDigits (n : Nat) : Plain (Nat.toDigits 16 n) := by
  have hdigit : ∀ d < 16, plainChar (Nat.digitChar d) = true := by decide
  obtain ⟨ds, hlt, -, hds, -⟩ := exists_digits (show 2 ≤ 16 by decide) (by decide) n
  rw [hds]
  exact List.forall_mem_map.mpr fun d hd => hdigit d (hlt d hd)

theorem plain_append {cs ds : List Char} (hcs : Plain cs) (hds : Plain ds) : Plain (cs ++ ds) :=
  List.forall_mem_append.mpr ⟨hcs, hds⟩

theorem plain_formatHexPadded (width n : Nat) : Plain (formatHexPadded width n).toList := by
  have htext : (formatHexPadded width n).toList = "0x".toList ++ (Nat.toDigits 16 n).leftpad width '0' := by
    simp [formatHexPadded]
  have hpad : Plain (List.replicate (width - (Nat.toDigits 16 n).length) '0') := by
    intro c hc
    rw [(List.mem_replicate.mp hc).2]
    decide
  rw [htext]
  exact plain_append (by decide) (plain_append hpad (plain_hexDigits n))

theorem encodeString_plain {s : String} (h : Plain s.toList) : encodeString s = quote :: (s.toList ++ [quote]) := by
  rw [encodeString, escape_plain h]

theorem printable_unicodeEscape (n : Nat) : Printable (unicodeEscape n) := by
  have hdigit : ∀ d < 16, 32 ≤ (Nat.digitChar d).toNat ∧ (Nat.digitChar d).toNat < 127 := by decide
  have hmod (k : Nat) : k % 16 < 16 := Nat.mod_lt k (by decide)
  rw [unicodeEscape, hex4]
  refine List.forall_mem_cons.mpr ⟨by decide, List.forall_mem_cons.mpr ⟨by decide, ?_⟩⟩
  intro c hc
  simp only [List.mem_cons, List.not_mem_nil, or_false] at hc
  rcases hc with rfl | rfl | rfl | rfl <;> exact hdigit _ (hmod _)

theorem printable_escape (cs : List Char) : Printable (escape cs) := by
  intro d hd
  obtain ⟨c, -, hmem⟩ := List.mem_flatMap.mp hd
  rw [escapeChar] at hmem
  cases hfind : shortEscapes.find? (fun entry => entry.2 = c) with
  | some entry =>
    have hletters : shortEscapes.all (fun entry => decide (Printable [backslash, entry.1])) = true := by decide
    rw [hfind] at hmem
    exact of_decide_eq_true (List.all_eq_true.mp hletters entry (List.mem_of_find?_eq_some hfind)) d hmem
  | none =>
    rw [hfind] at hmem
    dsimp only at hmem
    split at hmem
    · rename_i hprintable
      rw [List.mem_singleton.mp hmem]
      exact hprintable
    · split at hmem
      · exact printable_unicodeEscape _ d hmem
      · rcases List.mem_append.mp hmem with hmem | hmem
        · exact printable_unicodeEscape _ d hmem
        · exact printable_unicodeEscape _ d hmem

theorem cut_escape_backslashes (n : Nat) (cs : List Char) :
    (escape (List.replicate n backslash ++ cs)).takeWhile (· ≠ quote) =
      List.replicate (2 * n) backslash ++ (escape cs).takeWhile (· ≠ quote) := by
  induction n with
  | zero => rfl
  | succ n ih =>
    have hbackslash : escapeChar backslash = [backslash, backslash] := by decide
    have hcut (rest : List Char) : (backslash :: backslash :: rest).takeWhile (· ≠ quote) =
        backslash :: backslash :: rest.takeWhile (· ≠ quote) := by
      rw [List.takeWhile_cons_of_pos (by decide), List.takeWhile_cons_of_pos (by decide)]
    rw [List.replicate_succ, List.cons_append, escape_cons, hbackslash, List.cons_append,
      List.singleton_append, hcut, ih]
    rfl

/-- No string is its own written form, cut at the first quote, behind some backslashes. -/
theorem ne_backslashes_cut (n : Nat) (cs : List Char) (hn : 0 < n) :
    cs ≠ List.replicate n backslash ++ (escape cs).takeWhile (· ≠ quote) := by
  induction hlength : cs.length using Nat.strongRecOn generalizing n cs with
  | ind k ih =>
    intro heq
    have hshorter : ((escape cs).takeWhile (· ≠ quote)).length < k := by
      have hsplit := congrArg List.length heq
      rw [List.length_append, List.length_replicate] at hsplit
      omega
    have hagain : (escape cs).takeWhile (· ≠ quote) =
        List.replicate (2 * n) backslash ++ (escape ((escape cs).takeWhile (· ≠ quote))).takeWhile (· ≠ quote) := by
      rw [← cut_escape_backslashes n ((escape cs).takeWhile (· ≠ quote)), ← heq]
    exact ih _ hshorter (2 * n) _ (by omega) rfl hagain

/-- A written string, cut at its first quote, is the string itself only if nothing in it was escaped. -/
theorem cut_escape_eq_iff (cs : List Char) : (escape cs).takeWhile (· ≠ quote) = cs ↔ Plain cs := by
  constructor
  · induction cs with
    | nil => exact fun _ => nofun
    | cons c cs ih =>
      intro heq
      cases hc : plainChar c with
      | true =>
        have hquote : c ≠ quote := ((plainChar_iff c).mp hc).2.2.1
        rw [escape_cons, escapeChar_plain hc, List.singleton_append,
          List.takeWhile_cons_of_pos (by simp [hquote])] at heq
        exact List.forall_mem_cons.mpr ⟨hc, ih (List.cons.inj heq).2⟩
      | false =>
        obtain ⟨d, rest, hescape, hbackslash⟩ := escapeChar_not_plain hc
        rw [escape_cons, hescape, List.cons_append, List.takeWhile_cons_of_pos (by decide)] at heq
        obtain ⟨hhead, htail⟩ := List.cons.inj heq
        obtain ⟨rfl, rfl⟩ := hbackslash hhead.symm
        rw [List.cons_append, List.takeWhile_cons_of_pos (by decide)] at htail
        exact absurd htail.symm (ne_backslashes_cut 1 cs (by decide))
  · intro hplain
    rw [escape_plain hplain]
    exact List.takeWhile_eq_self_iff.mpr fun c hc => by simp [((plainChar_iff c).mp (hplain c hc)).2.2.1]

end strings

section numbers

/-- What follows an integer does not continue it. -/
def Stops (rest : List Char) : Prop := ∀ c ∈ rest.head?, c.isDigit = false ∧ c ≠ '.' ∧ c ≠ 'e' ∧ c ≠ 'E'

theorem stops_cons {c : Char} (h : c.isDigit = false ∧ c ≠ '.' ∧ c ≠ 'e' ∧ c ≠ 'E') (rest : List Char) :
    Stops (c :: rest) := by
  intro d hd
  cases hd
  exact h

theorem isDigit_of_mem_digits {n : Nat} {c : Char} (h : c ∈ Nat.toDigits 10 n) : c.isDigit = true :=
  Nat.isDigit_of_mem_toDigits (by decide) (by decide) h

/-- No decimal text of a positive number starts with a zero. -/
theorem head_digits_ne_zero {n : Nat} (h : 0 < n) : (Nat.toDigits 10 n).head? ≠ some '0' := by
  have hdigits : ∀ d < 10, 0 < d → [Nat.digitChar d].head? ≠ some '0' := by decide
  induction n using Nat.strongRecOn with
  | ind n ih =>
    by_cases hsmall : n < 10
    · rw [Nat.toDigits_of_lt_base hsmall]
      exact hdigits n hsmall h
    · rw [Nat.toDigits_of_base_le (by decide) (by omega), List.head?_append_of_ne_nil _ Nat.toDigits_ne_nil]
      exact ih (n / 10) (by omega) (by omega)

theorem span_digits (n : Nat) {rest : List Char} (h : Stops rest) :
    (Nat.toDigits 10 n ++ rest).takeWhile Char.isDigit = Nat.toDigits 10 n ∧
      (Nat.toDigits 10 n ++ rest).dropWhile Char.isDigit = rest := by
  have hall : ∀ c ∈ Nat.toDigits 10 n, c.isDigit = true := fun c hc => isDigit_of_mem_digits hc
  rw [List.takeWhile_append_of_pos hall, List.dropWhile_append_of_pos hall]
  cases rest with
  | nil => exact ⟨List.append_nil _, rfl⟩
  | cons c rest =>
    have hc := (h c rfl).1
    rw [List.takeWhile_cons_of_neg (by simp [hc]), List.dropWhile_cons_of_neg (by simp [hc])]
    exact ⟨List.append_nil _, rfl⟩

/-- The digits of a number, read after its sign. -/
theorem ofDigits_encode (n : Nat) {rest : List Char} (h : Stops rest) (negative : Bool) :
    (let digits := (Nat.toDigits 10 n ++ rest).takeWhile Char.isDigit
     let rest := (Nat.toDigits 10 n ++ rest).dropWhile Char.isDigit
     if digits = [] ∨ (digits.head? = some '0' ∧ digits ≠ ['0']) then none
     else if rest.head? = some '.' ∨ rest.head? = some 'e' ∨ rest.head? = some 'E' then none
     else some ((if negative then -(Nat.ofDigitChars 10 digits 0 : Int) else (Nat.ofDigitChars 10 digits 0 : Int)),
       rest))
      = some ((if negative then -(n : Int) else n), rest) := by
  obtain ⟨htake, hdrop⟩ := span_digits n h
  have hzeros : ¬ (Nat.toDigits 10 n = [] ∨ ((Nat.toDigits 10 n).head? = some '0' ∧ Nat.toDigits 10 n ≠ ['0'])) := by
    rintro (hnil | ⟨hzero, hmore⟩)
    · exact Nat.toDigits_ne_nil hnil
    · rcases Nat.eq_zero_or_pos n with hn | hn
      · rw [hn] at hmore
        exact hmore rfl
      · exact head_digits_ne_zero hn hzero
  have hstops : ¬ (rest.head? = some '.' ∨ rest.head? = some 'e' ∨ rest.head? = some 'E') := by
    rintro (hc | hc | hc)
    · exact (h _ hc).2.1 rfl
    · exact (h _ hc).2.2.1 rfl
    · exact (h _ hc).2.2.2 rfl
  simp only [htake, hdrop]
  rw [if_neg hzeros, if_neg hstops, Nat.ofDigitChars_ten_toDigits]

theorem readInt_encode (n : Int) {rest : List Char} (h : Stops rest) :
    readInt (encodeInt n ++ rest) = some (n, rest) := by
  by_cases hn : n < 0
  · have hsplit : encodeInt n ++ rest = '-' :: (Nat.toDigits 10 n.natAbs ++ rest) := by
      rw [encodeInt, if_pos hn]
      rfl
    rw [hsplit]
    refine (ofDigits_encode n.natAbs h true).trans (congrArg (fun m => some (m, rest)) ?_)
    rw [if_pos rfl]
    omega
  · have hsplit : encodeInt n ++ rest = Nat.toDigits 10 n.natAbs ++ rest := by
      rw [encodeInt, if_neg hn, List.nil_append]
    have hhead : (Nat.toDigits 10 n.natAbs ++ rest).head? ≠ some '-' := by
      rw [List.head?_append_of_ne_nil _ Nat.toDigits_ne_nil]
      intro hminus
      have hdigit := isDigit_of_mem_digits (List.mem_of_mem_head? hminus)
      exact absurd hdigit (by decide)
    rw [hsplit, readInt]
    simp only [hhead, if_false]
    refine (ofDigits_encode n.natAbs h false).trans (congrArg (fun m => some (m, rest)) ?_)
    rw [if_neg (by decide)]
    omega

end numbers

section values

theorem next_self {c : Char} (h : jsonSpace c = false) (rest : List Char) : next c (c :: rest) = some rest := by
  rw [next, skipSpace, List.dropWhile_cons_of_neg (by simp [h])]
  exact if_pos rfl

theorem next_other {c d : Char} (h : jsonSpace d = false) (hne : d ≠ c) (rest : List Char) :
    next c (d :: rest) = none := by
  rw [next, skipSpace, List.dropWhile_cons_of_neg (by simp [h])]
  exact if_neg hne

theorem skipSpace_cons {c : Char} (h : jsonSpace c = false) (rest : List Char) : skipSpace (c :: rest) = c :: rest :=
  List.dropWhile_cons_of_neg (by simp [h])

mutual
/-- No floats, and no key twice in one object. -/
def WellFormed : Json → Prop
  | .float _ => False
  | .arr items => WellFormedItems items
  | .obj fields => (fields.map Prod.fst).Nodup ∧ WellFormedFields fields
  | _ => True

def WellFormedItems : List Json → Prop
  | [] => True
  | x :: rest => WellFormed x ∧ WellFormedItems rest

def WellFormedFields : List (String × Json) → Prop
  | [] => True
  | (_, x) :: rest => WellFormed x ∧ WellFormedFields rest
end

mutual
/-- No floats. -/
def FloatFree : Json → Prop
  | .float _ => False
  | .arr items => FloatFreeItems items
  | .obj fields => FloatFreeFields fields
  | _ => True

def FloatFreeItems : List Json → Prop
  | [] => True
  | x :: rest => FloatFree x ∧ FloatFreeItems rest

def FloatFreeFields : List (String × Json) → Prop
  | [] => True
  | (_, x) :: rest => FloatFree x ∧ FloatFreeFields rest
end

/-- The object a reader makes of these fields: the last value of a key stands in the first one's place. -/
def keepLast (fields : List (String × Json)) : List (String × Json) :=
  (fields.foldl (fun d field => d.set field.1 field.2) Dict.empty).entries

mutual
/-- A value as it is read back. -/
def normalize : Json → Json
  | .arr items => .arr (normalizeItems items)
  | .obj fields => .obj (keepLast (normalizeFields fields))
  | x => x

def normalizeItems : List Json → List Json
  | [] => []
  | x :: rest => normalize x :: normalizeItems rest

def normalizeFields : List (String × Json) → List (String × Json)
  | [] => []
  | (k, x) :: rest => (k, normalize x) :: normalizeFields rest
end

theorem keepLast_of_nodup {fields : List (String × Json)} (h : (fields.map Prod.fst).Nodup) :
    keepLast fields = fields :=
  Dict.entries_foldl_set fields Dict.empty h

mutual
theorem WellFormed.floatFree : (x : Json) → WellFormed x → FloatFree x
  | .null, _ | .bool _, _ | .int _, _ | .str _, _ => trivial
  | .float _, h => h
  | .arr items, h => WellFormedItems.floatFree items h
  | .obj fields, h => WellFormedFields.floatFree fields h.2

theorem WellFormedItems.floatFree : (items : List Json) → WellFormedItems items → FloatFreeItems items
  | [], _ => trivial
  | x :: rest, h => ⟨WellFormed.floatFree x h.1, WellFormedItems.floatFree rest h.2⟩

theorem WellFormedFields.floatFree : (fields : List (String × Json)) → WellFormedFields fields → FloatFreeFields fields
  | [], _ => trivial
  | (_, x) :: rest, h => ⟨WellFormed.floatFree x h.1, WellFormedFields.floatFree rest h.2⟩
end

mutual
theorem WellFormed.normalize_eq : (x : Json) → WellFormed x → normalize x = x
  | .null, _ | .bool _, _ | .int _, _ | .str _, _ => rfl
  | .float _, h => h.elim
  | .arr items, h => by rw [normalize, WellFormedItems.normalize_eq items h]
  | .obj fields, h => by rw [normalize, WellFormedFields.normalize_eq fields h.2, keepLast_of_nodup h.1]

theorem WellFormedItems.normalize_eq : (items : List Json) → WellFormedItems items → normalizeItems items = items
  | [], _ => rfl
  | x :: rest, h => by rw [normalizeItems, WellFormed.normalize_eq x h.1, WellFormedItems.normalize_eq rest h.2]

theorem WellFormedFields.normalize_eq :
    (fields : List (String × Json)) → WellFormedFields fields → normalizeFields fields = fields
  | [], _ => rfl
  | (_, x) :: rest, h => by
    rw [normalizeFields, WellFormed.normalize_eq x h.1, WellFormedFields.normalize_eq rest h.2]
end

/-- The first character of an integer is its sign or a digit. -/
theorem encodeInt_head (n : Int) : ∃ c rest, encodeInt n = c :: rest ∧ (c = '-' ∨ c.isDigit = true) := by
  by_cases hn : n < 0
  · exact ⟨'-', Nat.toDigits 10 n.natAbs, by rw [encodeInt, if_pos hn]; rfl, .inl rfl⟩
  · obtain ⟨c, digits, hdigits⟩ := List.exists_cons_of_ne_nil (Nat.toDigits_ne_nil (n := n.natAbs) (b := 10))
    have hmem : c ∈ Nat.toDigits 10 n.natAbs := by
      rw [hdigits]
      exact List.mem_cons_self ..
    exact ⟨c, digits, by rw [encodeInt, if_neg hn, List.nil_append, hdigits], .inr (isDigit_of_mem_digits hmem)⟩

theorem mem_encodeInt {n : Int} {c : Char} (h : c ∈ encodeInt n) : c = '-' ∨ c.isDigit = true := by
  rw [encodeInt] at h
  rcases List.mem_append.mp h with hsign | hdigit
  · split at hsign
    · exact .inl (List.mem_singleton.mp hsign)
    · exact absurd hsign List.not_mem_nil
  · exact .inr (isDigit_of_mem_digits hdigit)

/-- A written value starts with a character that is neither blank nor a delimiter. -/
theorem encode_head {x : Json} (h : FloatFree x) : ∃ c rest, encode x = c :: rest ∧ jsonSpace c = false ∧ c ≠ ']' := by
  cases x with
  | null => exact ⟨_, _, rfl, by decide, by decide⟩
  | bool b => cases b <;> exact ⟨_, _, rfl, by decide, by decide⟩
  | float x => exact h.elim
  | str s => exact ⟨_, _, rfl, by decide, by decide⟩
  | arr items => exact ⟨_, _, rfl, by decide, by decide⟩
  | obj fields => exact ⟨_, _, rfl, by decide, by decide⟩
  | int n =>
    obtain ⟨c, rest, hc, hhead⟩ := encodeInt_head n
    rw [encode, hc]
    refine ⟨c, rest, rfl, ?_, ?_⟩
    · rcases hhead with rfl | hdigit
      · decide
      · have hspace : c ≠ ' ' := by
          rintro rfl
          exact absurd hdigit (by decide)
        simp only [Char.isDigit, Bool.and_eq_true, decide_eq_true_eq, UInt32.le_iff_toNat_le] at hdigit
        have hlow : 48 ≤ c.toNat := hdigit.1
        simp only [jsonSpace, hspace, decide_false, Bool.false_or, Bool.or_eq_false_iff, decide_eq_false_iff_not]
        omega
    · rintro rfl
      rcases hhead with h | h <;> exact absurd h (by decide)

theorem encodeItems_cons (x : Json) {items : List Json} (h : items ≠ []) :
    encodeItems (x :: items) = encode x ++ ',' :: encodeItems items := by
  rw [encodeItems]
  exact fun hnil => absurd hnil h

theorem encodeFields_cons (k : String) (x : Json) {fields : List (String × Json)} (h : fields ≠ []) :
    encodeFields ((k, x) :: fields) = encodeString k ++ ':' :: (encode x ++ ',' :: encodeFields fields) := by
  rw [encodeFields]
  exact fun hnil => absurd hnil h

theorem encodeItems_head {items : List Json} (hne : items ≠ []) (h : FloatFreeItems items) :
    ∃ c rest, encodeItems items = c :: rest ∧ jsonSpace c = false ∧ c ≠ ']' := by
  cases items with
  | nil => exact absurd rfl hne
  | cons x items =>
    obtain ⟨c, rest, hc, hhead⟩ := encode_head h.1
    cases items with
    | nil => exact ⟨c, rest, by rw [encodeItems, hc], hhead⟩
    | cons y items => exact ⟨c, _, by rw [encodeItems_cons x (List.cons_ne_nil y items), hc]; rfl, hhead⟩

theorem encodeFields_head {fields : List (String × Json)} (hne : fields ≠ []) :
    ∃ rest, encodeFields fields = quote :: rest := by
  cases fields with
  | nil => exact absurd rfl hne
  | cons field fields =>
    obtain ⟨k, x⟩ := field
    cases fields with
    | nil => exact ⟨_, by rw [encodeFields, encodeString]; rfl⟩
    | cons other fields => exact ⟨_, by rw [encodeFields_cons k x (List.cons_ne_nil other fields), encodeString]; rfl⟩

theorem readValue_string (s : String) (rest : List Char) (fuel : Nat) :
    readValue (fuel + 1) (encodeString s ++ rest) = some (.str s, rest) := by
  rw [encodeString, List.cons_append, List.append_assoc, readValue.eq_def]
  dsimp only [List.cons_append, List.nil_append]
  rw [if_pos rfl, readString_escape, Option.map_some, String.ofList_toList]

theorem readKey_encode (k : String) (rest : List Char) :
    (next quote (encodeString k ++ rest)).bind readString = some (k.toList, rest) := by
  rw [encodeString, List.cons_append, List.append_assoc, next_self (by decide)]
  exact readString_escape k.toList rest

theorem readValue_int (n : Int) {rest : List Char} (h : Stops rest) (fuel : Nat) :
    readValue (fuel + 1) (encodeInt n ++ rest) = some (.int n, rest) := by
  obtain ⟨c, digits, hc, hhead⟩ := encodeInt_head n
  have hread := readInt_encode n h
  rw [hc, List.cons_append] at hread ⊢
  have hother : c ≠ quote ∧ c ≠ '{' ∧ c ≠ '[' ∧ c ≠ 'n' ∧ c ≠ 't' ∧ c ≠ 'f' := by
    refine ⟨?_, ?_, ?_, ?_, ?_, ?_⟩ <;> rintro rfl <;> rcases hhead with h | h <;> exact absurd h (by decide)
  rw [readValue.eq_def]
  dsimp only
  rw [if_neg hother.1, if_neg hother.2.1, if_neg hother.2.2.1, if_neg hother.2.2.2.1, if_neg hother.2.2.2.2.1,
    if_neg hother.2.2.2.2.2, hread]
  rfl

mutual
/-- A written value is read back, whatever follows that does not continue a number. -/
theorem readValue_encode : (x : Json) → FloatFree x → (rest : List Char) → Stops rest → (fuel : Nat) →
    (encode x).length ≤ fuel → readValue fuel (encode x ++ rest) = some (normalize x, rest)
  | .null, _, rest, _, fuel, hfuel => by
    obtain ⟨fuel, rfl⟩ : ∃ k, fuel = k + 1 := ⟨fuel - 1, by simp only [encode, List.length_cons] at hfuel; omega⟩
    rw [encode, List.cons_append, readValue.eq_def]
    dsimp only
    rw [if_neg (by decide), if_neg (by decide), if_neg (by decide), if_pos rfl, List.dropPrefix?_append_of_beq rest rfl]
    rfl
  | .bool true, _, rest, _, fuel, hfuel => by
    obtain ⟨fuel, rfl⟩ : ∃ k, fuel = k + 1 := ⟨fuel - 1, by simp only [encode, List.length_cons] at hfuel; omega⟩
    rw [encode, List.cons_append, readValue.eq_def]
    dsimp only
    rw [if_neg (by decide), if_neg (by decide), if_neg (by decide), if_neg (by decide), if_pos rfl,
      List.dropPrefix?_append_of_beq rest rfl]
    rfl
  | .bool false, _, rest, _, fuel, hfuel => by
    obtain ⟨fuel, rfl⟩ : ∃ k, fuel = k + 1 := ⟨fuel - 1, by simp only [encode, List.length_cons] at hfuel; omega⟩
    rw [encode, List.cons_append, readValue.eq_def]
    dsimp only
    rw [if_neg (by decide), if_neg (by decide), if_neg (by decide), if_neg (by decide), if_neg (by decide),
      if_pos rfl, List.dropPrefix?_append_of_beq rest rfl]
    rfl
  | .float x, h, _, _, _, _ => h.elim
  | .int n, _, rest, hrest, fuel, hfuel => by
    obtain ⟨c, digits, hc, -⟩ := encodeInt_head n
    obtain ⟨fuel, rfl⟩ : ∃ k, fuel = k + 1 := ⟨fuel - 1, by simp only [encode, hc, List.length_cons] at hfuel; omega⟩
    exact readValue_int n hrest fuel
  | .str s, _, rest, _, fuel, hfuel => by
    obtain ⟨fuel, rfl⟩ : ∃ k, fuel = k + 1 :=
      ⟨fuel - 1, by simp only [encode, encodeString, List.length_cons] at hfuel; omega⟩
    exact readValue_string s rest fuel
  | .arr [], _, rest, _, fuel, hfuel => by
    obtain ⟨fuel, rfl⟩ : ∃ k, fuel = k + 1 := ⟨fuel - 1, by simp only [encode, List.length_cons] at hfuel; omega⟩
    rw [encode, encodeItems, readValue.eq_def]
    rfl
  | .arr (x :: items), h, rest, _, fuel, hfuel => by
    rw [encode, List.length_cons, List.length_append, List.length_singleton] at hfuel
    obtain ⟨fuel, rfl⟩ : ∃ k, fuel = k + 1 := ⟨fuel - 1, by omega⟩
    have hitems := readItems_encode (x :: items) (List.cons_ne_nil x items) h rest fuel (by omega)
    obtain ⟨c, more, hc, hspace, hbracket⟩ := encodeItems_head (List.cons_ne_nil x items) h
    rw [encode, List.cons_append, List.append_assoc, readValue.eq_def]
    dsimp only [List.cons_append, List.nil_append]
    rw [if_neg (by decide), if_neg (by decide), if_pos rfl]
    rw [hc, List.cons_append] at hitems ⊢
    rw [next_other hspace hbracket, skipSpace_cons hspace, hitems]
    rfl
  | .obj [], _, rest, _, fuel, hfuel => by
    obtain ⟨fuel, rfl⟩ : ∃ k, fuel = k + 1 := ⟨fuel - 1, by simp only [encode, List.length_cons] at hfuel; omega⟩
    rw [encode, encodeFields, readValue.eq_def]
    rfl
  | .obj (field :: fields), h, rest, _, fuel, hfuel => by
    rw [encode, List.length_cons, List.length_append, List.length_singleton] at hfuel
    obtain ⟨fuel, rfl⟩ : ∃ k, fuel = k + 1 := ⟨fuel - 1, by omega⟩
    have hfields := readFields_encode (field :: fields) (List.cons_ne_nil field fields) h rest fuel (by omega)
    obtain ⟨more, hquote⟩ := encodeFields_head (List.cons_ne_nil field fields)
    rw [encode, List.cons_append, List.append_assoc, readValue.eq_def]
    dsimp only [List.cons_append, List.nil_append]
    rw [if_neg (by decide), if_pos rfl]
    rw [hquote, List.cons_append] at hfields ⊢
    rw [next_other (by decide) (by decide), skipSpace_cons (by decide), hfields]
    rfl

theorem readItems_encode : (items : List Json) → items ≠ [] → FloatFreeItems items → (rest : List Char) →
    (fuel : Nat) → (encodeItems items).length < fuel →
    readItems fuel (encodeItems items ++ ']' :: rest) = some (normalizeItems items, rest)
  | [], hne, _, _, _, _ => absurd rfl hne
  | [x], _, h, rest, fuel, hfuel => by
    obtain ⟨fuel, rfl⟩ : ∃ k, fuel = k + 1 := ⟨fuel - 1, by omega⟩
    have hx := readValue_encode x h.1 (']' :: rest)
      (stops_cons (by decide) _) fuel (by rw [encodeItems] at hfuel; omega)
    rw [readItems, encodeItems, hx]
    dsimp only
    rw [next_other (by decide) (by decide), next_self (by decide)]
    rfl
  | x :: y :: items, _, h, rest, fuel, hfuel => by
    obtain ⟨fuel, rfl⟩ : ∃ k, fuel = k + 1 := ⟨fuel - 1, by omega⟩
    have hlength : (encodeItems (x :: y :: items)).length =
      (encode x).length + ((encodeItems (y :: items)).length + 1) := by
      rw [encodeItems_cons x (List.cons_ne_nil y items), List.length_append, List.length_cons]
    have hx := readValue_encode x h.1 (',' :: (encodeItems (y :: items) ++ ']' :: rest)) (stops_cons (by decide) _) fuel
      (by omega)
    have hitems := readItems_encode (y :: items) (by nofun) h.2 rest fuel (by omega)
    obtain ⟨c, more, hc, hspace, -⟩ := encodeItems_head (List.cons_ne_nil y items) h.2
    rw [readItems, encodeItems_cons x (List.cons_ne_nil y items), List.append_assoc, List.cons_append, hx]
    dsimp only
    rw [next_self (by decide)]
    dsimp only
    rw [hc, List.cons_append] at hitems ⊢
    rw [skipSpace_cons hspace, hitems]
    rfl

theorem readFields_encode : (fields : List (String × Json)) → fields ≠ [] → FloatFreeFields fields →
    (rest : List Char) → (fuel : Nat) → (encodeFields fields).length < fuel →
    readFields fuel (encodeFields fields ++ '}' :: rest) = some (normalizeFields fields, rest)
  | [], hne, _, _, _, _ => absurd rfl hne
  | [(k, x)], _, h, rest, fuel, hfuel => by
    obtain ⟨fuel, rfl⟩ : ∃ k, fuel = k + 1 := ⟨fuel - 1, by omega⟩
    have hlength : (encodeFields [(k, x)]).length = (encodeString k).length + ((encode x).length + 1) := by
      rw [encodeFields, List.length_append, List.length_cons]
    have hx := readValue_encode x h.1 ('}' :: rest) (stops_cons (by decide) _) fuel (by omega)
    obtain ⟨c, more, hc, hspace, -⟩ := encode_head h.1
    rw [readFields, encodeFields, List.append_assoc, List.cons_append, readKey_encode]
    dsimp only
    rw [next_self (by decide), Option.bind_some]
    rw [hc, List.cons_append] at hx ⊢
    rw [skipSpace_cons hspace, hx]
    dsimp only
    rw [next_other (by decide) (by decide), next_self (by decide), Option.map_some, String.ofList_toList]
    rfl
  | (k, x) :: field :: fields, _, h, rest, fuel, hfuel => by
    obtain ⟨fuel, rfl⟩ : ∃ k, fuel = k + 1 := ⟨fuel - 1, by omega⟩
    have hne := List.cons_ne_nil field fields
    have hlength : (encodeFields ((k, x) :: field :: fields)).length =
        (encodeString k).length + ((encode x).length + ((encodeFields (field :: fields)).length + 1) + 1) := by
      rw [encodeFields_cons k x hne, List.length_append, List.length_cons, List.length_append, List.length_cons]
    have hx := readValue_encode x h.1 (',' :: (encodeFields (field :: fields) ++ '}' :: rest))
      (stops_cons (by decide) _) fuel (by omega)
    have hfields := readFields_encode (field :: fields) hne h.2 rest fuel (by omega)
    obtain ⟨c, more, hc, hspace, -⟩ := encode_head h.1
    obtain ⟨others, hquote⟩ := encodeFields_head hne
    rw [readFields, encodeFields_cons k x hne, List.append_assoc, List.cons_append, List.append_assoc, List.cons_append,
      readKey_encode]
    dsimp only
    rw [next_self (by decide), Option.bind_some]
    rw [hc, List.cons_append] at hx ⊢
    rw [skipSpace_cons hspace, hx]
    dsimp only
    rw [next_self (by decide)]
    dsimp only
    rw [hquote, List.cons_append] at hfields ⊢
    rw [skipSpace_cons (by decide), hfields, Option.map_some, String.ofList_toList]
    rfl
end

theorem printable_append {cs ds : List Char} (hcs : Printable cs) (hds : Printable ds) : Printable (cs ++ ds) :=
  List.forall_mem_append.mpr ⟨hcs, hds⟩

theorem printable_cons {c : Char} {cs : List Char} (hc : 32 ≤ c.toNat ∧ c.toNat < 127) (hcs : Printable cs) :
    Printable (c :: cs) := List.forall_mem_cons.mpr ⟨hc, hcs⟩

theorem printable_encodeString (s : String) : Printable (encodeString s) :=
  printable_cons (by decide) (printable_append (printable_escape s.toList) (printable_cons (by decide) nofun))

theorem printable_encodeInt (n : Int) : Printable (encodeInt n) := by
  intro c hc
  rcases mem_encodeInt hc with rfl | hdigit
  · decide
  · simp only [Char.isDigit, Bool.and_eq_true, decide_eq_true_eq, UInt32.le_iff_toNat_le] at hdigit
    have hlow : 48 ≤ c.toNat := hdigit.1
    have hhigh : c.toNat ≤ 57 := hdigit.2
    omega

mutual
/-- A written value is printable ASCII. -/
theorem printable_encode : (x : Json) → FloatFree x → Printable (encode x)
  | .null, _ => by decide
  | .bool true, _ => by decide
  | .bool false, _ => by decide
  | .float _, h => h.elim
  | .int n, _ => printable_encodeInt n
  | .str s, _ => printable_encodeString s
  | .arr items, h =>
    printable_cons (by decide) (printable_append (printable_encodeItems items h) (printable_cons (by decide) nofun))
  | .obj fields, h =>
    printable_cons (by decide) (printable_append (printable_encodeFields fields h) (printable_cons (by decide) nofun))

theorem printable_encodeItems : (items : List Json) → FloatFreeItems items → Printable (encodeItems items)
  | [], _ => nofun
  | [x], h => printable_encode x h.1
  | x :: y :: items, h => by
    rw [encodeItems_cons x (List.cons_ne_nil y items)]
    exact printable_append (printable_encode x h.1)
      (printable_cons (by decide) (printable_encodeItems (y :: items) h.2))

theorem printable_encodeFields : (fields : List (String × Json)) → FloatFreeFields fields →
    Printable (encodeFields fields)
  | [], _ => nofun
  | [(k, x)], h => printable_append (printable_encodeString k) (printable_cons (by decide) (printable_encode x h.1))
  | (k, x) :: field :: fields, h => by
    rw [encodeFields_cons k x (List.cons_ne_nil field fields)]
    exact printable_append (printable_encodeString k) (printable_cons (by decide)
      (printable_append (printable_encode x h.1)
        (printable_cons (by decide) (printable_encodeFields (field :: fields) h.2))))
end

theorem stops_of_space {blanks : List Char} (hblanks : ∀ c ∈ blanks, jsonSpace c = true) : Stops blanks := by
  intro c hc
  have hspace := hblanks c (List.mem_of_mem_head? hc)
  simp only [jsonSpace, Bool.or_eq_true, decide_eq_true_eq] at hspace
  refine ⟨?_, ?_, ?_, ?_⟩
  · rw [Bool.eq_false_iff]
    intro hdigit
    simp only [Char.isDigit, Bool.and_eq_true, decide_eq_true_eq, UInt32.le_iff_toNat_le] at hdigit
    have hlow : 48 ≤ c.toNat := hdigit.1
    rcases hspace with ((rfl | h) | h) | h
    · exact absurd hlow (by decide)
    all_goals omega
  all_goals
    rintro rfl
    exact absurd hspace (by decide)

/-- A written value is read back with its repeated keys merged; blanks after it are skipped. -/
theorem decode_encode_normalize {x : Json} (h : FloatFree x) {blanks : List Char}
    (hblanks : ∀ c ∈ blanks, jsonSpace c = true) : decode (encode x ++ blanks) = some (normalize x) := by
  obtain ⟨c, rest, hc, hspace, -⟩ := encode_head h
  have hread := readValue_encode x h blanks (stops_of_space hblanks) ((encode x ++ blanks).length + 1)
    (by rw [List.length_append]; omega)
  have hskip : skipSpace (encode x ++ blanks) = encode x ++ blanks := by
    rw [hc, List.cons_append, skipSpace_cons hspace]
  have hend : skipSpace blanks = [] := List.dropWhile_eq_nil_iff.mpr hblanks
  rw [decode, hskip, hread]
  exact if_pos hend

/-- A well-formed value is read back as it is. -/
theorem decode_encode {x : Json} (h : WellFormed x) {blanks : List Char} (hblanks : ∀ c ∈ blanks, jsonSpace c = true) :
    decode (encode x ++ blanks) = some x := by
  rw [decode_encode_normalize h.floatFree hblanks, h.normalize_eq]

end values
end DynvarSync.Lib.JsonText
