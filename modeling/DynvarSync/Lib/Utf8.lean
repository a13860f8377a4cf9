import Mathlib.Data.List.Basic
import Mathlib.Tactic.Cases

/-! UTF-8 texts as lists of bytes, and where a text can be cut. -/
namespace DynvarSync.Lib.Utf8

/-- The bytes of a text. -/
def bytes (text : List Char) : List UInt8 := text.flatMap String.utf8EncodeChar

/-- The text of some bytes, where they are UTF-8. -/
def decode? (bs : List UInt8) : Option (List Char) := (String.fromUTF8? ⟨bs.toArray⟩).map String.toList

theorem bytes_cons (c : Char) (text : List Char) : bytes (c :: text) = String.utf8EncodeChar c ++ bytes text :=
  List.flatMap_cons

theorem bytes_append (text more : List Char) : bytes (text ++ more) = bytes text ++ bytes more := List.flatMap_append

theorem utf8EncodeChar_ascii {c : Char} (h : c.toNat < 128) : String.utf8EncodeChar c = [UInt8.ofNat c.toNat] := by
  have hle : c.val.toNat ≤ 0x7f := Nat.le_of_lt_succ h
  rw [String.utf8EncodeChar, if_pos hle]
  rfl

/-- The bytes of a character beyond ASCII are beyond ASCII. -/
theorem utf8EncodeChar_wide {c : Char} (h : 128 ≤ c.toNat) : ∀ b ∈ String.utf8EncodeChar c, 128 ≤ b.toNat := by
  have hlow : ¬ c.val.toNat ≤ 0x7f := Nat.not_le.mpr h
  have hbyte : ∀ n, 128 ≤ n → n < 256 → 128 ≤ (UInt8.ofNat n).toNat := by
    intro n hn hsmall
    rwa [UInt8.toNat_ofNat_of_lt' hsmall]
  intro b hb
  rw [String.utf8EncodeChar, if_neg hlow] at hb
  split at hb
  · simp only [List.mem_cons, List.not_mem_nil, or_false] at hb
    rcases hb with rfl | rfl
    all_goals exact hbyte _ (by omega) (by omega)
  · split at hb
    · simp only [List.mem_cons, List.not_mem_nil, or_false] at hb
      rcases hb with rfl | rfl | rfl
      all_goals exact hbyte _ (by omega) (by omega)
    · simp only [List.mem_cons, List.not_mem_nil, or_false] at hb
      rcases hb with rfl | rfl | rfl | rfl
      all_goals exact hbyte _ (by omega) (by omega)

/-- No character's bytes begin another's. -/
theorem utf8EncodeChar_append_inj {c d : Char} {xs ys : List UInt8}
    (h : String.utf8EncodeChar c ++ xs = String.utf8EncodeChar d ++ ys) : c = d ∧ xs = ys := by
  have hread (c : Char) (xs : List UInt8) :
      ByteArray.utf8DecodeChar? (String.utf8EncodeChar c ++ xs).toByteArray 0 = some c := by
    rw [List.toByteArray_append]
    exact ByteArray.utf8DecodeChar?_utf8EncodeChar_append
  have hc : c = d := Option.some.inj ((hread c xs).symm.trans (h ▸ hread d ys))
  rw [hc] at h
  exact ⟨hc, List.append_cancel_left h⟩

/-- Bytes of a text that begin with another text's bytes are those of its continuation. -/
theorem bytes_eq_append {text first : List Char} {bs : List UInt8} (h : bytes text = bytes first ++ bs) :
    ∃ more, text = first ++ more ∧ bytes more = bs := by
  induction first generalizing text with
  | nil => exact ⟨text, rfl, h⟩
  | cons c first ih =>
    rw [bytes_cons, List.append_assoc] at h
    cases text with
    | nil => exact absurd h.symm (List.append_ne_nil_of_left_ne_nil String.utf8EncodeChar_ne_nil _)
    | cons d text =>
      rw [bytes_cons] at h
      obtain ⟨rfl, hmore⟩ := utf8EncodeChar_append_inj h
      obtain ⟨more, rfl, hbs⟩ := ih hmore
      exact ⟨more, rfl, hbs⟩

theorem bytes_injective {text other : List Char} (h : bytes text = bytes other) : text = other := by
  rw [← List.append_nil (bytes other)] at h
  obtain ⟨more, rfl, hmore⟩ := bytes_eq_append h
  cases more with
  | nil => exact List.append_nil other
  | cons c more =>
    rw [bytes_cons] at hmore
    exact absurd hmore (List.append_ne_nil_of_left_ne_nil String.utf8EncodeChar_ne_nil _)

theorem decode?_eq_some_iff (bs : List UInt8) (text : List Char) : decode? bs = some text ↔ bytes text = bs := by
  have hutf8 : text.utf8Encode = (bytes text).toByteArray := rfl
  have harray : (⟨bs.toArray⟩ : ByteArray) = bs.toByteArray := by
    rw [← List.data_toByteArray]
  rw [decode?, String.fromUTF8?, harray]
  constructor
  · intro h
    split at h
    · rename_i hvalid
      have htext : (String.fromUTF8 bs.toByteArray hvalid).toList = text := Option.some.inj h
      have hsame : (bytes text).toByteArray = bs.toByteArray := by
        rw [← hutf8, ← htext, String.utf8Encode_toList]
        rfl
      have hdata := congrArg ByteArray.data hsame
      rw [List.data_toByteArray, List.data_toByteArray] at hdata
      exact List.toArray_inj hdata
    · cases h
  · rintro rfl
    have hvalid : (bytes text).toByteArray.IsValidUTF8 := hutf8 ▸ ByteArray.isValidUTF8_utf8Encode
    have hstring : String.fromUTF8 (bytes text).toByteArray hvalid = String.ofList text := by
      rw [← String.toByteArray_inj]
      rfl
    rw [dif_pos hvalid, hstring, Option.map_some, String.toList_ofList]

end DynvarSync.Lib.Utf8
