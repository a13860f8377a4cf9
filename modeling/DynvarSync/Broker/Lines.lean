import DynvarSync.Broker.Broker

/-! Which lines a reader survives: a valid message, or an answer of
`invalid_message` with nothing else changed, unless decoding or a set lookup raises. -/
namespace DynvarSync.Broker
open Lib PyText Ida

theorem memberIn_error {α : Type} {text : α → String} {supported : List α} {value : Json} {error : LineError}
    (h : memberIn text supported value = .error error) : error = .unhashable ∧ isHashable value = false := by
  unfold memberIn at h
  split at h
  · cases h
  · rename_i hhash
    exact ⟨(Except.error.inj h).symm, by simpa using hhash⟩

theorem memberIn_hashable {α : Type} {text : α → String} {supported : List α} {value : Json} {found : Option α}
    (h : memberIn text supported value = .ok found) : isHashable value = true := by
  unfold memberIn at h
  split at h
  · assumption
  · cases h

theorem memberIn_none {α : Type} {text : α → String} {supported : List α} {value : Json}
    (h : memberIn text supported value = .ok none) : ∀ a ∈ supported, value ≠ .str (text a) := by
  intro a ha hvalue
  unfold memberIn at h
  split at h
  · have hnone := List.find?_eq_none.mp (Except.ok.inj h) a ha
    rw [hvalue, Json.eqStr_str] at hnone
    exact hnone (decide_eq_true rfl)
  · cases h

theorem mem_supportedMessageTypes (type : MessageType) : type ∈ supportedMessageTypes := by cases type <;> decide

theorem mem_supportedRoles (role : Role) : role ∈ supportedRoles := by cases role <;> decide

/-- An envelope that gets so far has a type, and after a supported type a role, that can be looked up. -/
def EnvelopeHashable (fields : Payload) : Prop :=
  checkProtocolVersion fields = true → (fields.get "id").isInt = true →
    isHashable (fields.get "type") = true ∧
      ((∃ type ∈ supportedMessageTypes, fields.get "type" = .str (typeText type)) →
        isHashable (fields.get "role") = true)

/-- The checks accept, raise a protocol error, or meet an array or object where a text is looked up. -/
theorem validateMessageShape_cases (fields : Payload) :
    (∃ message, validateMessageShape fields = .ok message ∧ EnvelopeHashable fields) ∨
      (∃ text, validateMessageShape fields = .error (.protocol text) ∧ EnvelopeHashable fields) ∨
        validateMessageShape fields = .error .unhashable ∧ ¬ EnvelopeHashable fields := by
  unfold validateMessageShape
  by_cases hversion : checkProtocolVersion fields = true
  · rw [dif_pos hversion]
    by_cases hid : (fields.get "id").isInt = true
    · rw [dif_pos hid]
      split
      · rename_i error htype
        obtain ⟨rfl, hhash⟩ := memberIn_error htype
        refine .inr (.inr ⟨rfl, fun h => ?_⟩)
        rw [(h hversion hid).1] at hhash
        cases hhash
      · rename_i htype
        refine .inr (.inl ⟨_, rfl, fun _ _ => ⟨memberIn_hashable htype, ?_⟩⟩)
        rintro ⟨type, ht, heq⟩
        exact absurd heq (memberIn_none htype type ht)
      · rename_i type htype
        have hsupported : ∃ type ∈ supportedMessageTypes, fields.get "type" = .str (typeText type) :=
          ⟨type, mem_supportedMessageTypes type, memberIn_some htype⟩
        split
        · rename_i error hrole
          obtain ⟨rfl, hhash⟩ := memberIn_error hrole
          refine .inr (.inr ⟨rfl, fun h => ?_⟩)
          rw [(h hversion hid).2 hsupported] at hhash
          cases hhash
        · rename_i hrole
          exact .inr (.inl ⟨_, rfl, fun _ _ => ⟨memberIn_hashable htype, fun _ => memberIn_hashable hrole⟩⟩)
        · rename_i role hrole
          have hhashable : EnvelopeHashable fields := fun _ _ =>
            ⟨memberIn_hashable htype, fun _ => memberIn_hashable hrole⟩
          split
          · exact .inr (.inl ⟨_, rfl, hhashable⟩)
          · exact .inl ⟨_, rfl, hhashable⟩
    · rw [dif_neg hid]
      exact .inr (.inl ⟨_, rfl, fun _ h => absurd h hid⟩)
  · rw [dif_neg hversion]
    exact .inr (.inl ⟨_, rfl, fun h => absurd h hversion⟩)

/-- The line is UTF-8, and the envelope it may hold can be looked up. -/
def LineReadable (loads : JsonLoads) (line : List UInt8) : Prop :=
  (lineText line).isSome = true ∧ ∀ fields, decodeJsonlLine loads line = .ok fields → EnvelopeHashable fields

theorem decodeJsonlLine_cases (loads : JsonLoads) (line : List UInt8) :
    (∃ fields, decodeJsonlLine loads line = .ok fields ∧ (lineText line).isSome = true) ∨
      (∃ text, decodeJsonlLine loads line = .error (.protocol text) ∧ (lineText line).isSome = true) ∨
        decodeJsonlLine loads line = .error .undecodable ∧ (lineText line).isSome = false := by
  unfold decodeJsonlLine
  cases lineText line with
  | none => exact .inr (.inr ⟨rfl, rfl⟩)
  | some text =>
    dsimp only
    split
    · exact .inr (.inl ⟨_, rfl, rfl⟩)
    · cases loads text with
      | error reason => exact .inr (.inl ⟨_, rfl, rfl⟩)
      | ok message =>
        dsimp only
        cases message.asObj with
        | none => exact .inr (.inl ⟨_, rfl, rfl⟩)
        | some fields => exact .inl ⟨fields, rfl, rfl⟩

/-- A line is read or refused with a protocol error exactly when it is readable. -/
theorem readMessage_decided_iff (loads : JsonLoads) (line : List UInt8) :
    ((∃ message, readMessage loads line = .ok message) ∨ ∃ text, readMessage loads line = .error (.protocol text)) ↔
      LineReadable loads line := by
  unfold readMessage LineReadable
  rcases decodeJsonlLine_cases loads line with ⟨fields, hdecode, htext⟩ | ⟨text, hdecode, htext⟩ | ⟨hdecode, htext⟩
  · rw [hdecode, htext]
    have hone : (∀ fields', (Except.ok fields : Except LineError Payload) = .ok fields' → EnvelopeHashable fields') ↔
        EnvelopeHashable fields := ⟨fun h => h fields rfl, fun h _ he => Except.ok.inj he ▸ h⟩
    rw [hone]
    dsimp only
    rcases validateMessageShape_cases fields with ⟨message, hok, hhash⟩ | ⟨text, herror, hhash⟩ | ⟨herror, hhash⟩
    · exact iff_of_true (.inl ⟨message, hok⟩) ⟨rfl, hhash⟩
    · exact iff_of_true (.inr ⟨text, herror⟩) ⟨rfl, hhash⟩
    · rw [herror]
      exact iff_of_false (by simp) fun h => hhash h.2
  · rw [hdecode, htext]
    exact iff_of_true (.inr ⟨text, rfl⟩) ⟨rfl, nofun⟩
  · rw [hdecode, htext]
    exact iff_of_false (by simp) (by simp)

/-- What a reader owes to a line: a well-shaped envelope or a protocol error, and a line that is no
message is answered with `invalid_message`, its session, the registry and the rest of the buffer kept. -/
structure LineHandled (loads : JsonLoads) (line : List UInt8) : Prop where
  decided : (∃ message, readMessage loads line = .ok message ∧ (message.fields.get "protocol").eqInt 1 = true ∧
      (message.fields.get "id").isInt = true ∧
      (∃ type ∈ supportedMessageTypes, message.fields.get "type" = .str (typeText type)) ∧
      (∃ role ∈ supportedRoles, message.fields.get "role" = .str role.text) ∧
      ∃ payload, message.fields.get "payload" = .obj payload) ∨
    ∃ text, readMessage loads line = .error (.protocol text)
  answered : (∀ message, readMessage loads line ≠ .ok message) →
    ∀ (s : State) (number : Nat) (connection : Connection) (rest : List UInt8), ∃ text,
      s.handleLine loads number connection line rest =
        { state := s.putConnection number { connection with buffer := rest }
          sent := [(number, createError "invalid_message" text (.int 0))] }

/-- A nonblank line is handled without losing the connection exactly when it is UTF-8 and, once its
object has protocol 1 and an integer id, its type, and for a supported type its role, is no array or object. -/
theorem line_handled_iff (loads : JsonLoads) (line : List UInt8) (hline : isBlankLine line = false) :
    LineHandled loads line ↔ LineReadable loads line := by
  rw [← readMessage_decided_iff]
  constructor
  · rintro ⟨⟨message, hmessage, _⟩ | herror, _⟩
    · exact .inl ⟨message, hmessage⟩
    · exact .inr herror
  · intro h
    refine ⟨h.imp (fun ⟨message, hmessage⟩ => ⟨message, hmessage, message.version, message.numbered,
      ⟨message.type, mem_supportedMessageTypes _, message.typed⟩, ⟨message.role, mem_supportedRoles _, message.sender⟩,
      message.payload, message.body⟩) id, fun hnone s number connection rest => ?_⟩
    obtain ⟨text, htext⟩ := h.resolve_left fun ⟨message, hmessage⟩ => hnone message hmessage
    refine ⟨text, ?_⟩
    rw [State.handleLine, hline, htext]
    rfl

theorem line_handled_iff_malformed : LineHandled (fun _ => .error "Expecting value") [120] :=
  (line_handled_iff (fun _ => .error "Expecting value") [120] (by decide)).mpr
    ⟨by decide, fun fields h => by cases h⟩

/-- A byte that is no UTF-8 escapes the reader as a `UnicodeDecodeError`. -/
theorem undecodable_line_not_handled :
    ¬ ∀ (loads : JsonLoads) (line : List UInt8), isBlankLine line = false → LineHandled loads line := by
  intro h
  have hread : readMessage (fun _ => .error "Expecting value") [255] = .error .undecodable := rfl
  rcases (h (fun _ => .error "Expecting value") [255] (by decide)).decided with ⟨message, hmessage, _⟩ | ⟨text, htext⟩
  · rw [hread] at hmessage
    cases hmessage
  · rw [hread] at htext
    cases htext

end DynvarSync.Broker
