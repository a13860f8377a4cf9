import Mathlib.Data.List.Basic
import Mathlib.Tactic.IntervalCases

/-! Text conversions of Python's standard library: `int(text, base)` for the
bases the program uses, hexadecimal formatting, and `bytes.fromhex`. -/
namespace DynvarSync.Lib.PyText

/-- Code points of the decimal zeros; each starts a run of ten digits. -/
def decimalZeros : List Nat :=
  [0x660, 0x6f0, 0x7c0, 0x966, 0x9e6, 0xa66, 0xae6, 0xb66, 0xbe6, 0xc66, 0xce6, 0xd66, 0xde6,
   0xe50, 0xed0, 0xf20, 0x1040, 0x1090, 0x17e0, 0x1810, 0x1946, 0x19d0, 0x1a80, 0x1a90, 0x1b50,
   0x1bb0, 0x1c40, 0x1c50, 0xa620, 0xa8d0, 0xa900, 0xa9d0, 0xa9f0, 0xaa50, 0xabf0, 0xff10,
   0x104a0, 0x10d30, 0x11066, 0x110f0, 0x11136, 0x111d0, 0x112f0, 0x11450, 0x114d0, 0x11650,
   0x116c0, 0x11730, 0x118e0, 0x11950, 0x11c50, 0x11d50, 0x11da0, 0x16a60, 0x16ac0, 0x16b50,
   0x1d7ce, 0x1d7d8, 0x1d7e2, 0x1d7ec, 0x1d7f6, 0x1e140, 0x1e2f0, 0x1e950, 0x1fbf0]

def wideSpaces : List Nat :=
  [0x85, 0xa0, 0x1680, 0x2000, 0x2001, 0x2002, 0x2003, 0x2004, 0x2005, 0x2006, 0x2007, 0x2008,
   0x2009, 0x200a, 0x2028, 0x2029, 0x202f, 0x205f, 0x3000]

def asciiSpace (c : Char) : Bool := c = ' ' || (9 ≤ c.toNat && c.toNat ≤ 13)

/-- `str.isspace` also counts the four separators below the blank. -/
def textSpace (c : Char) : Bool :=
  asciiSpace c || (0x1c ≤ c.toNat && c.toNat ≤ 0x1f) || wideSpaces.contains c.toNat

/-- Before parsing, wide blanks and decimal digits become their ASCII forms. -/
def toAscii (c : Char) : Char :=
  if c.toNat < 127 then c
  else if wideSpaces.contains c.toNat then ' '
  else match decimalZeros.find? (fun z => z ≤ c.toNat && c.toNat ≤ z + 9) with
    | some z => Nat.digitChar (c.toNat - z)
    | none => '?'

def stripWith (space : Char → Bool) (cs : List Char) : List Char :=
  ((cs.dropWhile space).reverse.dropWhile space).reverse

def digitOf (c : Char) : Option Nat :=
  if 48 ≤ c.toNat ∧ c.toNat ≤ 57 then some (c.toNat - 48)
  else if 97 ≤ c.toNat ∧ c.toNat ≤ 102 then some (c.toNat - 87)
  else if 65 ≤ c.toNat ∧ c.toNat ≤ 70 then some (c.toNat - 55)
  else none

def digitIn (base : Nat) (c : Char) : Option Nat := (digitOf c).filter (· < base)

/-- Digits after the first; one underscore may stand between two digits. -/
def scanDigits (base : Nat) : Nat → List Char → Option Nat
  | acc, [] => some acc
  | acc, '_' :: c :: rest => (digitIn base c).bind fun d => scanDigits base (acc * base + d) rest
  | acc, c :: rest => (digitIn base c).bind fun d => scanDigits base (acc * base + d) rest

def readDigits (base : Nat) : List Char → Option Nat
  | [] => none
  | c :: rest => (digitIn base c).bind fun d => scanDigits base d rest

/-- The interpreter refuses decimal texts of more than 4300 digits. -/
def maxStrDigits : Nat := 4300

def readDecimal (cs : List Char) : Option Nat :=
  if maxStrDigits < (cs.filter (· ≠ '_')).length then none else readDigits 10 cs

/-- Base 0 allows leading zeros only in a zero. -/
def readPlain (cs : List Char) : Option Nat :=
  (readDecimal cs).filter fun n => cs.head? ≠ some '0' || n = 0

def readPrefixed (base : Nat) : List Char → Option Nat
  | '_' :: rest => readDigits base rest
  | cs => readDigits base cs

def readAuto : List Char → Option Nat
  | '0' :: x :: rest =>
    if x = 'x' ∨ x = 'X' then readPrefixed 16 rest
    else if x = 'o' ∨ x = 'O' then readPrefixed 8 rest
    else if x = 'b' ∨ x = 'B' then readPrefixed 2 rest
    else readPlain ('0' :: x :: rest)
  | cs => readPlain cs

def readSigned (read : List Char → Option Nat) : List Char → Option Int
  | '-' :: rest => (read rest).map fun n => -(n : Int)
  | '+' :: rest => (read rest).map fun n => (n : Int)
  | cs => (read cs).map fun n => (n : Int)

/-- `int(text, 0)`; `none` is the ValueError. -/
def intAuto (text : String) : Option Int :=
  readSigned readAuto (stripWith asciiSpace (text.toList.map toAscii))

/-- `int(text)`, in base ten. -/
def intDecimal (text : String) : Option Int :=
  readSigned readDecimal (stripWith asciiSpace (text.toList.map toAscii))

/-- `f"0x{n:x}"`, the sign after the prefix. -/
def formatHex (n : Int) : String :=
  "0x" ++ String.ofList ((if n < 0 then ['-'] else []) ++ Nat.toDigits 16 n.natAbs)

/-- `"0x%0<width>llx"`, zero padded. -/
def formatHexPadded (width n : Nat) : String :=
  "0x" ++ String.ofList ((Nat.toDigits 16 n).leftpad width '0')

/-- `bytes.fromhex`: blanks only between bytes. -/
def fromHexChars : List Char → Option (List UInt8)
  | [] => some []
  | [c] => if asciiSpace c then some [] else none
  | c :: d :: rest =>
    if asciiSpace c then fromHexChars (d :: rest)
    else do
      let high ← digitOf c
      let low ← digitOf d
      let tail ← fromHexChars rest
      pure (UInt8.ofNat (16 * high + low) :: tail)

def fromHex (text : String) : Option (List UInt8) := fromHexChars text.toList

def hexPair (b : UInt8) : List Char := [Nat.digitChar (b.toNat / 16), Nat.digitChar (b.toNat % 16)]

def toHex (bytes : List UInt8) : String := String.ofList (bytes.flatMap hexPair)

/-- `int.from_bytes(data, "little", signed=False)`. -/
def fromLittleEndian : List UInt8 → Nat
  | [] => 0
  | b :: rest => b.toNat + 256 * fromLittleEndian rest

theorem stripWith_of_forall (space : Char → Bool) (cs : List Char) (h : ∀ c ∈ cs, space c = false) :
    stripWith space cs = cs := by
  have hdrop (l : List Char) (hl : ∀ c ∈ l, space c = false) : l.dropWhile space = l := by
    cases l with
    | nil => rfl
    | cons c rest => rw [List.dropWhile_cons_of_neg (by simp [hl c])]
  rw [stripWith, hdrop cs h, hdrop cs.reverse (by simpa using h), List.reverse_reverse]

theorem map_toAscii_of_forall (cs : List Char) (h : ∀ c ∈ cs, c.toNat < 127) :
    cs.map toAscii = cs := by
  conv_rhs => rw [← List.map_id cs]
  exact List.map_congr_left fun c hc => by simp [toAscii, h c hc]

private theorem digitChar_facts (d : Nat) (h : d < 16) :
    digitIn 16 (Nat.digitChar d) = some d ∧ digitOf (Nat.digitChar d) = some d ∧
      Nat.digitChar d ≠ '_' ∧ (Nat.digitChar d).toNat < 127 ∧ asciiSpace (Nat.digitChar d) = false := by
  interval_cases d <;> decide

private theorem scanDigits_cons (base acc : Nat) (c : Char) (rest : List Char) (h : c ≠ '_') :
    scanDigits base acc (c :: rest) =
      (digitIn base c).bind fun d => scanDigits base (acc * base + d) rest := by
  cases rest <;> simp [scanDigits, h]

/-- Reading back the characters of a digit list gives the value it denotes. -/
theorem scanDigits_digits (acc : Nat) (ds : List Nat) (h : ∀ d ∈ ds, d < 16) :
    scanDigits 16 acc (ds.map Nat.digitChar) = some (ds.foldl (fun a d => a * 16 + d) acc) := by
  induction ds generalizing acc with
  | nil => rfl
  | cons d ds ih =>
    obtain ⟨hd, _, hu, _⟩ := digitChar_facts d (h d (by simp))
    rw [List.map_cons, scanDigits_cons _ _ _ _ hu, hd, Option.bind_some,
      ih _ fun d hd => h d (by simp [hd]), List.foldl_cons]

/-- The text of a number is the characters of its digits. -/
theorem exists_digits {base : Nat} (hlow : 2 ≤ base) (hhigh : base ≤ 16) (n : Nat) :
    ∃ ds : List Nat, (∀ d ∈ ds, d < base) ∧ ds ≠ [] ∧ Nat.toDigits base n = ds.map Nat.digitChar ∧
      ds.foldl (fun a d => a * base + d) 0 = n := by
  induction n using Nat.strong_induction_on with
  | _ n ih =>
    by_cases h : n < base
    · exact ⟨[n], by simpa using h, by simp, Nat.toDigits_of_lt_base h, by simp⟩
    · obtain ⟨ds, hlt, _, hds, hv⟩ := ih (n / base) (Nat.div_lt_self (by omega) (by omega))
      have hmod : n % base < base := Nat.mod_lt n (by omega)
      refine ⟨ds ++ [n % base], ?_, by simp, ?_, ?_⟩
      · intro d hd
        rcases List.mem_append.mp hd with hd | hd
        · exact hlt d hd
        · rw [List.mem_singleton.mp hd]
          exact hmod
      · rw [Nat.toDigits_of_base_le (by omega) (by omega), hds, List.map_append]
        rfl
      · rw [List.foldl_append, hv]
        simp only [List.foldl_cons, List.foldl_nil]
        rw [Nat.mul_comm]
        exact Nat.div_add_mod n base

private theorem exists_padded_digits (width n : Nat) :
    ∃ ds : List Nat, (∀ d ∈ ds, d < 16) ∧ ds ≠ [] ∧
      (Nat.toDigits 16 n).leftpad width '0' = ds.map Nat.digitChar ∧
      ds.foldl (fun a d => a * 16 + d) 0 = n := by
  obtain ⟨ds, hlt, hne, hds, hv⟩ := exists_digits (show 2 ≤ 16 by decide) (by decide) n
  have hzero (k : Nat) : (List.replicate k 0).foldl (fun a d => a * 16 + d) 0 = 0 := by
    induction k with
    | zero => rfl
    | succ k ih => simpa [List.replicate_succ] using ih
  refine ⟨List.replicate (width - ds.length) 0 ++ ds, ?_, by simp [hne], ?_, ?_⟩
  · intro d hd
    rcases List.mem_append.mp hd with hd | hd
    · rw [List.eq_of_mem_replicate hd]
      decide
    · exact hlt d hd
  · simp [List.leftpad, hds, Nat.digitChar]
  · rw [List.foldl_append, hzero, hv]

private theorem intAuto_digits (ds : List Nat) (hlt : ∀ d ∈ ds, d < 16) (hne : ds ≠ []) :
    intAuto ("0x" ++ String.ofList (ds.map Nat.digitChar)) =
      some ((ds.foldl (fun a d => a * 16 + d) 0 : Nat) : Int) := by
  have hmem : ∀ c ∈ '0' :: 'x' :: ds.map Nat.digitChar, c.toNat < 127 ∧ asciiSpace c = false := by
    intro c hc
    simp only [List.mem_cons, List.mem_map] at hc
    rcases hc with rfl | rfl | ⟨d, hd, rfl⟩
    · decide
    · decide
    · exact (digitChar_facts d (hlt d hd)).2.2.2
  have htext : ("0x" ++ String.ofList (ds.map Nat.digitChar)).toList = '0' :: 'x' :: ds.map Nat.digitChar := by
    simp
  rw [intAuto, htext, map_toAscii_of_forall _ fun c hc => (hmem c hc).1,
    stripWith_of_forall _ _ fun c hc => (hmem c hc).2]
  cases ds with
  | nil => exact absurd rfl hne
  | cons d ds =>
    obtain ⟨hd, _, hu, _⟩ := digitChar_facts d (hlt d (by simp))
    have hscan := scanDigits_digits d ds fun d hd => hlt d (by simp [hd])
    simp [readSigned, readAuto, readPrefixed, readDigits, hu, hd, hscan]

/-- The debugger's zero padded register text reads back as its number. -/
theorem intAuto_formatHexPadded (width n : Nat) :
    intAuto (formatHexPadded width n) = some (n : Int) := by
  obtain ⟨ds, hlt, hne, hds, hv⟩ := exists_padded_digits width n
  rw [formatHexPadded, hds, intAuto_digits ds hlt hne, hv]

theorem intAuto_formatHex (n : Nat) : intAuto (formatHex n) = some (n : Int) := by
  obtain ⟨ds, hlt, hne, hds, hv⟩ := exists_digits (show 2 ≤ 16 by decide) (by decide) n
  have hn : ¬ (n : Int) < 0 := by omega
  rw [formatHex, if_neg hn, List.nil_append, Int.natAbs_natCast, hds, intAuto_digits ds hlt hne, hv]

theorem formatHex_ne_empty (n : Int) : formatHex n ≠ "" := by
  intro h
  simpa [formatHex] using congrArg String.toList h

theorem formatHexPadded_ne_empty (width n : Nat) : formatHexPadded width n ≠ "" := by
  intro h
  simpa [formatHexPadded] using congrArg String.toList h

theorem formatHex_injective {m n : Nat} (h : formatHex m = formatHex n) : m = n := by
  have hm := intAuto_formatHex m
  rw [h, intAuto_formatHex] at hm
  exact_mod_cast (Option.some.inj hm).symm

private theorem fromHexChars_pair (c d : Char) (rest : List Char) (hc : asciiSpace c = false)
    (x y : Nat) (hx : digitOf c = some x) (hy : digitOf d = some y) :
    fromHexChars (c :: d :: rest) =
      (fromHexChars rest).map fun tail => UInt8.ofNat (16 * x + y) :: tail := by
  rw [fromHexChars, hc]
  cases h : fromHexChars rest <;> simp [hx, hy]

/-- The extension's `bytes_hex` text decodes to the bytes it was written from. -/
theorem fromHex_toHex (bytes : List UInt8) : fromHex (toHex bytes) = some bytes := by
  rw [fromHex, toHex, String.toList_ofList]
  induction bytes with
  | nil => rfl
  | cons b bytes ih =>
    have hb := b.toNat_lt
    obtain ⟨_, hx, _, _, hs⟩ := digitChar_facts (b.toNat / 16) (by omega)
    obtain ⟨_, hy, _⟩ := digitChar_facts (b.toNat % 16) (by omega)
    rw [List.flatMap_cons, hexPair, List.cons_append, List.cons_append, List.nil_append,
      fromHexChars_pair _ _ _ hs _ _ hx hy, ih, Nat.div_add_mod]
    simp

end DynvarSync.Lib.PyText
