import DynvarSync.Lib.JsonText

/-! JSON texts put together piece by piece: rules for the texts that are read as a given
value, whoever wrote them. -/
namespace DynvarSync.Lib.JsonText
open PyText

/-- The characters between the quotes of a string that is read as this text. -/
def Spells (s body : List Char) : Prop := ∀ rest, readString (body ++ quote :: rest) = some (s, rest)

/-- A text that is read as a value, up to what follows it. -/
structure Writes (x : Json) (text : List Char) : Prop where
  head : ∃ c rest, text = c :: rest ∧ jsonSpace c = false
  read : ∀ rest, Stops rest → ∀ fuel, text.length ≤ fuel → readValue fuel (text ++ rest) = some (x, rest)

/-- The fields of an object that is not empty, as they are read. -/
inductive WritesFields : List (String × Json) → List Char → Prop
  | last {k : String} {x : Json} {text : List Char} (value : Writes x text) :
      WritesFields [(k, x)] (encodeString k ++ ':' :: text)
  | more {k : String} {x : Json} {text : List Char} {fields : List (String × Json)} {texts : List Char}
      (value : Writes x text) (rest : WritesFields fields texts) :
      WritesFields ((k, x) :: fields) (encodeString k ++ ':' :: (text ++ ',' :: texts))

theorem writes_encode {x : Json} (h : WellFormed x) : Writes x (encode x) where
  head := by
    obtain ⟨c, rest, hc, hspace, -⟩ := encode_head h.floatFree
    exact ⟨c, rest, hc, hspace⟩
  read rest hrest fuel hfuel := by
    rw [readValue_encode x h.floatFree rest hrest fuel hfuel, h.normalize_eq]

theorem writes_string {s : String} {body : List Char} (h : Spells s.toList body) :
    Writes (.str s) (quote :: (body ++ [quote])) where
  head := ⟨quote, body ++ [quote], rfl, by decide⟩
  read rest _ fuel hfuel := by
    obtain ⟨fuel, rfl⟩ : ∃ k, fuel = k + 1 := ⟨fuel - 1, by rw [List.length_cons] at hfuel; omega⟩
    rw [List.cons_append, List.append_assoc, List.singleton_append, readValue.eq_def]
    dsimp only
    rw [if_pos rfl, h rest, Option.map_some, String.ofList_toList]

/-- One field and what follows its value, where that is another field. -/
theorem readFields_field {k : String} {x : Json} {text : List Char} (h : Writes x text) (more : List Char) {fuel : Nat}
    (hfuel : text.length ≤ fuel) :
    readFields (fuel + 1) (encodeString k ++ ':' :: (text ++ ',' :: more)) =
      (readFields fuel (skipSpace more)).map fun p => ((k, x) :: p.1, p.2) := by
  obtain ⟨c, others, hc, hspace⟩ := h.head
  have hread := h.read (',' :: more) (stops_cons (by decide) _) fuel hfuel
  rw [readFields, readKey_encode]
  dsimp only
  rw [next_self (by decide), Option.bind_some]
  rw [hc, List.cons_append] at hread ⊢
  rw [skipSpace_cons hspace, hread]
  dsimp only
  rw [next_self (by decide), String.ofList_toList]

/-- The last field of an object. -/
theorem readFields_last {k : String} {x : Json} {text : List Char} (h : Writes x text) (rest : List Char) {fuel : Nat}
    (hfuel : text.length ≤ fuel) :
    readFields (fuel + 1) (encodeString k ++ ':' :: (text ++ '}' :: rest)) = some ([(k, x)], rest) := by
  obtain ⟨c, others, hc, hspace⟩ := h.head
  have hread := h.read ('}' :: rest) (stops_cons (by decide) _) fuel hfuel
  rw [readFields, readKey_encode]
  dsimp only
  rw [next_self (by decide), Option.bind_some]
  rw [hc, List.cons_append] at hread ⊢
  rw [skipSpace_cons hspace, hread]
  dsimp only
  rw [next_other (by decide) (by decide), next_self (by decide), String.ofList_toList, Option.map_some]

theorem WritesFields.head {fields : List (String × Json)} {text : List Char} (h : WritesFields fields text) :
    ∃ rest, text = quote :: rest := by
  cases h with
  | last value => exact ⟨_, rfl⟩
  | more value rest => exact ⟨_, rfl⟩

theorem WritesFields.read {fields : List (String × Json)} {text : List Char} (h : WritesFields fields text)
    (rest : List Char) (fuel : Nat) (hfuel : text.length < fuel) :
    readFields fuel (text ++ '}' :: rest) = some (fields, rest) := by
  induction h generalizing fuel with
  | last value =>
    rename_i k x text
    rw [List.length_append, List.length_cons] at hfuel
    obtain ⟨fuel, rfl⟩ : ∃ n, fuel = n + 1 := ⟨fuel - 1, by omega⟩
    rw [List.append_assoc, List.cons_append]
    exact readFields_last value rest (by omega)
  | more value more ih =>
    rename_i k x text fields texts
    rw [List.length_append, List.length_cons, List.length_append, List.length_cons] at hfuel
    obtain ⟨fuel, rfl⟩ : ∃ n, fuel = n + 1 := ⟨fuel - 1, by omega⟩
    obtain ⟨others, hquote⟩ := more.head
    have hmore := ih fuel (by omega)
    rw [List.append_assoc, List.cons_append, List.append_assoc, List.cons_append, readFields_field value _ (by omega)]
    rw [hquote, List.cons_append] at hmore ⊢
    rw [skipSpace_cons (by decide), hmore]
    rfl

/-- Some fields that are read, before others. -/
theorem WritesFields.read_before {fields : List (String × Json)} {text : List Char} (h : WritesFields fields text)
    (more : List Char) (fuel : Nat) (hfuel : text.length < fuel) :
    readFields fuel (text ++ ',' :: more) =
      (readFields (fuel - fields.length) (skipSpace more)).map fun p => (fields ++ p.1, p.2) := by
  induction h generalizing fuel with
  | last value =>
    rename_i k x text
    rw [List.length_append, List.length_cons] at hfuel
    obtain ⟨fuel, rfl⟩ : ∃ n, fuel = n + 1 := ⟨fuel - 1, by omega⟩
    rw [List.append_assoc, List.cons_append, readFields_field value more (by omega)]
    rfl
  | more value rest ih =>
    rename_i k x text fields texts
    rw [List.length_append, List.length_cons, List.length_append, List.length_cons] at hfuel
    obtain ⟨fuel, rfl⟩ : ∃ n, fuel = n + 1 := ⟨fuel - 1, by omega⟩
    obtain ⟨others, hquote⟩ := rest.head
    have hmore := ih fuel (by omega)
    have hcount : fuel + 1 - ((k, x) :: fields).length = fuel - fields.length := by
      rw [List.length_cons, Nat.add_sub_add_right]
    rw [List.append_assoc, List.cons_append, List.append_assoc, List.cons_append,
      readFields_field value _ (by omega), hcount]
    rw [hquote, List.cons_append] at hmore ⊢
    rw [skipSpace_cons (by decide), hmore, Option.map_map]
    rfl

theorem writes_obj {fields : List (String × Json)} {text : List Char} (h : WritesFields fields text)
    (hkeys : (fields.map Prod.fst).Nodup) : Writes (.obj fields) ('{' :: (text ++ ['}'])) where
  head := ⟨'{', text ++ ['}'], rfl, by decide⟩
  read rest _ fuel hfuel := by
    rw [List.length_cons, List.length_append, List.length_singleton] at hfuel
    obtain ⟨fuel, rfl⟩ : ∃ k, fuel = k + 1 := ⟨fuel - 1, by omega⟩
    obtain ⟨more, hquote⟩ := h.head
    have hread := h.read rest fuel (by omega)
    rw [List.cons_append, List.append_assoc, List.singleton_append, readValue.eq_def]
    dsimp only
    rw [if_neg (by decide), if_pos rfl]
    rw [hquote, List.cons_append] at hread ⊢
    rw [next_other (by decide) (by decide), skipSpace_cons (by decide), hread]
    exact congrArg (fun fields => some (Json.obj fields, rest)) (keepLast_of_nodup hkeys)

/-- A text that is read as a value is read as a message, blanks behind it skipped. -/
theorem Writes.decode {x : Json} {text : List Char} (h : Writes x text) {blanks : List Char}
    (hblanks : ∀ c ∈ blanks, jsonSpace c = true) : decode (text ++ blanks) = some x := by
  obtain ⟨c, rest, hc, hspace⟩ := h.head
  have hread := h.read blanks (stops_of_space hblanks) ((text ++ blanks).length + 1)
    (by rw [List.length_append]; omega)
  have hskip : skipSpace (text ++ blanks) = text ++ blanks := by
    rw [hc, List.cons_append, skipSpace_cons hspace]
  have hend : skipSpace blanks = [] := List.dropWhile_eq_nil_iff.mpr hblanks
  rw [JsonText.decode, hskip, hread]
  exact if_pos hend

/-- An object whose first fields are known. -/
theorem decode_before {fields : List (String × Json)} {text more : List Char} (h : WritesFields fields text) {x : Json}
    (hx : decode ('{' :: (text ++ ',' :: more)) = some x) :
    ∃ fuel others rest, readFields fuel (skipSpace more) = some (others, rest) ∧
      x = .obj (keepLast (fields ++ others)) := by
  obtain ⟨quoted, hquote⟩ := h.head
  have hread := h.read_before more ((text ++ ',' :: more).length + 1) (by rw [List.length_append]; omega)
  rw [decode, skipSpace_cons (by decide), List.length_cons, readValue.eq_def] at hx
  dsimp only at hx
  rw [if_neg (by decide), if_pos rfl] at hx
  rw [hquote, List.cons_append] at hread hx
  rw [next_other (by decide) (by decide), skipSpace_cons (by decide), hread] at hx
  split at hx
  · rename_i y rest heq
    split at hx
    · cases hx
      obtain ⟨p, hp, hy⟩ := Option.map_eq_some_iff.mp heq
      obtain ⟨q, hq, rfl⟩ := Option.map_eq_some_iff.mp hp
      exact ⟨_, q.1, q.2, hq, (congrArg Prod.fst hy).symm⟩
    · cases hx
  · cases hx

end DynvarSync.Lib.JsonText
