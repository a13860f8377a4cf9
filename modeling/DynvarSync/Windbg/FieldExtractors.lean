import DynvarSync.Lib.CText
import DynvarSync.Lib.JsonText

/-! How the extension reads a request: it takes the first occurrence of a quoted field
name in the line, and what follows the next colon. -/
namespace DynvarSync.Windbg
open Lib PyText CText JsonText

/-- `DVS_REGISTER_NAME_MAX`. -/
def registerNameMax : Nat := 16

/-- `DVS_MAX_REGISTER_VALUES`. -/
def maxRegisterValues : Nat := 32

/-- The quoted field name, in a buffer of 64 bytes. -/
def fieldPattern (field : String) : List Char := (quote :: (field.toList ++ [quote])).take 63

/-- The text from the first field of this name's value on. -/
def fieldValue (json : List Char) (field : String) : Option (List Char) :=
  (strstr (fieldPattern field) json).bind fun pos =>
    (strchr ':' (pos.drop (fieldPattern field).length)).map fun colon => colon.tail.dropWhile asciiSpace

/-- The text fits a buffer with its terminator. -/
def fit (outSize : Nat) (text : List Char) : Option (List Char) := if outSize ≤ text.length then none else some text

theorem fit_inv {outSize : Nat} {text out : List Char} (h : fit outSize text = some out) :
    out = text ∧ text.length < outSize := by
  rw [fit] at h
  split at h
  · cases h
  · cases h
    exact ⟨rfl, by omega⟩

def extractJsonStringField (json : List Char) (field : String) (outSize : Nat) : Option (List Char) :=
  match fieldValue json field with
  | some (c :: start) => if c = quote ∧ quote ∈ start then fit outSize (start.takeWhile (· ≠ quote)) else none
  | _ => none

def extractJsonUnsignedField (json : List Char) (field : String) : Option Nat :=
    (fieldValue json field).bind scanUnsigned

def extractJsonU64StringField (json : List Char) (field : String) : Option Nat :=
  (extractJsonStringField json field 64).bind scanHex

/-- The quoted names up to the closing bracket, in lower case. -/
def scanRegisterNames (names : List (List Char)) (array : List Char) : Option (List (List Char)) :=
  if array = [] ∨ array.head? = some ']' then some names
  else match h : array.dropWhile (fun c => c ≠ ']' ∧ c ≠ quote) with
    | [] => none
    | c :: start =>
      if c = ']' then some names
      else if quote ∉ start then none
      else
        let name := start.takeWhile (· ≠ quote)
        if name = [] ∨ registerNameMax ≤ name.length ∨ maxRegisterValues ≤ names.length then none
        else scanRegisterNames (names ++ [name.map Char.toLower]) (start.drop (name.length + 1))
  termination_by array.length
  decreasing_by
    have hshorter := (List.dropWhile_suffix (l := array) (fun c => decide (c ≠ ']' ∧ c ≠ quote))).length_le
    rw [h, List.length_cons] at hshorter
    rw [List.length_drop]
    omega

def parseRegisterList (json : List Char) : Option (List (List Char)) :=
  ((strstr (fieldPattern "registers") json).bind (strchr '[')).bind fun array =>
    (scanRegisterNames [] array.tail).filter (· ≠ [])

/-- A piece of a line in which the field's name is not found. -/
def Inert (field : String) (piece : List Char) : Prop := quote ∉ piece ∧ piece ≠ field.toList

instance (field : String) (piece : List Char) : Decidable (Inert field piece) := by
  unfold Inert
  infer_instance

/-- A field name as the program has them. -/
structure FieldName (field : String) : Prop where
  short : field.toList.length ≤ 61
  unquoted : quote ∉ field.toList
  word : ∀ c ∈ field.toList.head?, c ≠ ':'

section lookup
variable {field : String} {pieces : List (List Char)}

theorem fieldPattern_eq (h : FieldName field) : fieldPattern field = quote :: (field.toList ++ [quote]) :=
  List.take_of_length_le (by rw [List.length_cons, List.length_append, List.length_singleton]; have := h.short; omega)

theorem strstr_field (h : FieldName field) (hne : pieces ≠ []) (hpieces : ∀ piece ∈ pieces, Inert field piece)
    (rest : List Char) : strstr (fieldPattern field) (joined quote pieces (field.toList ++ quote :: rest)) =
      some (quote :: (field.toList ++ quote :: rest)) := by
  rw [fieldPattern_eq h]
  exact strstr_joined h.unquoted hne hpieces rest

/-- The value is found behind the first piece that is the field's name. -/
theorem fieldValue_joined (h : FieldName field) (hne : pieces ≠ []) (hpieces : ∀ piece ∈ pieces, Inert field piece)
    {gap : List Char} (hgap : ':' ∉ gap) (value : List Char) :
    fieldValue (joined quote pieces (field.toList ++ quote :: (gap ++ ':' :: value))) field =
      some (value.dropWhile asciiSpace) := by
  have hpos : (quote :: (field.toList ++ quote :: (gap ++ ':' :: value))).drop (fieldPattern field).length =
      gap ++ ':' :: value := by
    have hsplit : quote :: (field.toList ++ quote :: (gap ++ ':' :: value)) =
        quote :: (field.toList ++ [quote]) ++ (gap ++ ':' :: value) := by
      rw [List.cons_append, List.append_assoc, List.singleton_append]
    rw [fieldPattern_eq h, hsplit]
    exact List.drop_left
  rw [fieldValue, strstr_field h hne hpieces, Option.bind_some, hpos, strchr_skip hgap]
  rfl

/-- A quoted value is cut at its first quote. -/
theorem extractString_joined (h : FieldName field) (hne : pieces ≠ []) (hpieces : ∀ piece ∈ pieces, Inert field piece)
    {gap : List Char} (hgap : ':' ∉ gap) (outSize : Nat) (raw more : List Char) :
    extractJsonStringField
        (joined quote pieces (field.toList ++ quote :: (gap ++ ':' :: quote :: (raw ++ quote :: more)))) field outSize =
      fit outSize (raw.takeWhile (· ≠ quote)) := by
  have hquote : quote ∈ raw ++ quote :: more := List.mem_append_right _ (List.mem_cons_self ..)
  rw [extractJsonStringField, fieldValue_joined h hne hpieces hgap,
    List.dropWhile_cons_of_neg (by decide)]
  dsimp only
  rw [if_pos ⟨rfl, hquote⟩, takeWhile_delimited]

theorem extractString_pieces (h : FieldName field) (hpieces : ∀ piece ∈ pieces, Inert field piece) (hne : pieces ≠ [])
    (outSize : Nat) (raw : List Char) (more : List (List Char)) (rest : List Char) :
    extractJsonStringField (joined quote (pieces ++ ([field.toList, [':'], raw] ++ more)) rest) field outSize =
      fit outSize (raw.takeWhile (· ≠ quote)) := by
  have hgap : ':' ∉ ([] : List Char) := List.not_mem_nil
  rw [joined_append]
  exact extractString_joined h hne hpieces hgap outSize raw (joined quote more rest)

/-- A number as a field's value, with the comma after it. -/
def numberPiece (n : Int) : List Char := ':' :: (encodeInt n ++ [','])

theorem quote_not_mem_encodeInt (n : Int) : quote ∉ encodeInt n := by
  intro hmem
  rcases mem_encodeInt hmem with h | h <;> exact absurd h (by decide)

theorem inert_number (h : FieldName field) (n : Int) : Inert field (numberPiece n) := by
  constructor
  · intro hmem
    rcases List.mem_cons.mp hmem with hmem | hmem
    · exact absurd hmem (by decide)
    · rcases List.mem_append.mp hmem with hmem | hmem
      · exact quote_not_mem_encodeInt n hmem
      · exact absurd (List.mem_singleton.mp hmem) (by decide)
  · intro heq
    exact h.word ':' (by rw [← heq]; rfl) rfl

/-- A number is read up to its comma. -/
theorem extractUnsigned_pieces (h : FieldName field) (hpieces : ∀ piece ∈ pieces, Inert field piece)
    (hne : pieces ≠ []) (n : Int) (more : List (List Char)) (rest : List Char) :
    extractJsonUnsignedField (joined quote (pieces ++ ([field.toList, numberPiece n] ++ more)) rest) field =
      scanUnsigned (encodeInt n ++ ',' :: quote :: joined quote more rest) := by
  have hgap : ':' ∉ ([] : List Char) := List.not_mem_nil
  have hvalue : (encodeInt n ++ ',' :: quote :: joined quote more rest).dropWhile asciiSpace =
      encodeInt n ++ ',' :: quote :: joined quote more rest := by
    obtain ⟨c, digits, hc, hhead⟩ := encodeInt_head n
    have hspace : asciiSpace c = false := by
      rcases hhead with rfl | hdigit
      · decide
      · exact asciiSpace_of_isDigit hdigit
    rw [hc, List.cons_append, List.dropWhile_cons_of_neg (by rw [hspace]; decide)]
  have hfound := fieldValue_joined h hne hpieces hgap (encodeInt n ++ ',' :: quote :: joined quote more rest)
  have htext : joined quote ([field.toList, numberPiece n] ++ more) rest =
      field.toList ++ quote :: ([] ++ ':' :: (encodeInt n ++ ',' :: quote :: joined quote more rest)) := by
    simp only [numberPiece, joined_cons, List.nil_append, List.cons_append, List.append_assoc]
  rw [joined_append, htext, extractJsonUnsignedField, hfound, hvalue, Option.bind_some]

theorem scanUnsigned_encodeInt {n : Int} (hlow : 0 ≤ n) (hhigh : n < 2 ^ 32) (rest : List Char) :
    scanUnsigned (encodeInt n ++ ',' :: rest) = some n.toNat := by
  have hdigits : encodeInt n = Nat.toDigits 10 n.toNat := by
    rw [encodeInt, if_neg (by omega), List.nil_append]
    congr 1
    omega
  rw [hdigits]
  exact scanUnsigned_toDigits (by omega) (by rintro c ⟨⟩; decide)

end lookup
end DynvarSync.Windbg
