import Mathlib.Data.List.Basic

/-! Streams of lines that each end in one separator: the complete lines of a stream,
the incomplete tail after them, and how both grow with the stream. -/
namespace DynvarSync.Lib.Framing

variable {α : Type} [DecidableEq α] (sep : α)

/-- The complete lines, separators removed. -/
def lines : List α → List (List α)
  | [] => []
  | b :: rest =>
    if b = sep then [] :: lines rest
    else match lines rest with
      | [] => []
      | line :: more => (b :: line) :: more

/-- What follows the last separator. -/
def tail : List α → List α
  | [] => []
  | b :: rest => if b ≠ sep ∧ lines sep rest = [] then b :: tail rest else tail rest

variable {sep}

theorem lines_eq_nil {s : List α} (h : sep ∉ s) : lines sep s = [] ∧ tail sep s = s := by
  induction s with
  | nil => exact ⟨rfl, rfl⟩
  | cons b rest ih =>
    obtain ⟨hb, hrest⟩ := not_or.mp (mt List.mem_cons.mpr h)
    obtain ⟨hlines, htail⟩ := ih hrest
    rw [lines, tail, if_neg (Ne.symm hb), hlines, htail, if_pos ⟨Ne.symm hb, rfl⟩]
    exact ⟨rfl, rfl⟩

/-- The first line is taken off together with its separator. -/
theorem lines_cons {body : List α} (hbody : sep ∉ body) (rest : List α) :
    lines sep (body ++ sep :: rest) = body :: lines sep rest ∧ tail sep (body ++ sep :: rest) = tail sep rest := by
  induction body with
  | nil =>
    rw [List.nil_append, lines, tail, if_pos rfl, if_neg (fun h => h.1 rfl)]
    exact ⟨rfl, rfl⟩
  | cons b body ih =>
    obtain ⟨hb, hbody⟩ := not_or.mp (mt List.mem_cons.mpr hbody)
    obtain ⟨hlines, htail⟩ := ih hbody
    rw [List.cons_append, lines, tail, if_neg (Ne.symm hb), hlines, htail, if_neg (fun h => List.cons_ne_nil _ _ h.2)]
    exact ⟨rfl, rfl⟩

/-- A stream is a line and the rest of it, or has no separator. -/
theorem first_line (sep : α) (s : List α) : sep ∉ s ∨ ∃ body rest, sep ∉ body ∧ s = body ++ sep :: rest := by
  induction s with
  | nil => exact .inl List.not_mem_nil
  | cons b s ih =>
    by_cases hb : b = sep
    · exact .inr ⟨[], s, List.not_mem_nil, by rw [hb, List.nil_append]⟩
    · rcases ih with hno | ⟨body, rest, hbody, rfl⟩
      · exact .inl (List.not_mem_cons_of_ne_of_not_mem (Ne.symm hb) hno)
      · exact .inr ⟨b :: body, rest, List.not_mem_cons_of_ne_of_not_mem (Ne.symm hb) hbody, rfl⟩

theorem not_mem_tail (s : List α) : sep ∉ tail sep s := by
  induction s with
  | nil => exact List.not_mem_nil
  | cons b rest ih =>
    rw [tail]
    split
    · rename_i h
      exact List.not_mem_cons_of_ne_of_not_mem (Ne.symm h.1) ih
    · exact ih

/-- Every line takes at least its separator. -/
theorem length_lines_le (s : List α) : (lines sep s).length ≤ s.length := by
  induction s with
  | nil => exact Nat.le_refl 0
  | cons b rest ih =>
    rw [lines]
    split
    · exact Nat.succ_le_succ ih
    · cases hlines : lines sep rest with
      | nil => exact Nat.zero_le _
      | cons line more =>
        rw [hlines] at ih
        exact Nat.le_succ_of_le ih

/-- More bytes only continue the incomplete tail. -/
theorem lines_append (sep : α) (s more : List α) :
    lines sep (s ++ more) = lines sep s ++ lines sep (tail sep s ++ more) ∧
      tail sep (s ++ more) = tail sep (tail sep s ++ more) := by
  induction hn : s.length using Nat.strongRecOn generalizing s with
  | ind n ih =>
    rcases first_line sep s with hno | ⟨body, rest, hbody, rfl⟩
    · obtain ⟨hlines, htail⟩ := lines_eq_nil hno
      rw [hlines, htail]
      exact ⟨rfl, rfl⟩
    · have hlength : rest.length < n := by
        rw [← hn, List.length_append, List.length_cons]
        omega
      obtain ⟨hlines, htail⟩ := ih rest.length hlength rest rfl
      obtain ⟨hfirst, hkept⟩ := lines_cons hbody rest
      obtain ⟨hfirst', hkept'⟩ := lines_cons hbody (rest ++ more)
      rw [List.append_assoc, List.cons_append, hfirst', hkept', hlines, htail, hfirst, hkept]
      exact ⟨rfl, rfl⟩

/-- Written line by line, a stream has the written lines. -/
theorem lines_flatMap {β : Type} (body : β → List α) {cut : List α} (hcut : sep ∉ cut) (written : List β)
    (hbody : ∀ b ∈ written, sep ∉ body b) :
    lines sep ((written.flatMap fun b => body b ++ [sep]) ++ cut) = written.map body := by
  induction written with
  | nil => exact (lines_eq_nil hcut).1
  | cons b written ih =>
    obtain ⟨hb, hrest⟩ := List.forall_mem_cons.mp hbody
    rw [List.flatMap_cons, List.append_assoc, List.append_assoc, List.singleton_append, (lines_cons hb _).1, ih hrest,
      List.map_cons]

theorem tail_flatMap {β : Type} (body : β → List α) {cut : List α} (hcut : sep ∉ cut) (written : List β)
    (hbody : ∀ b ∈ written, sep ∉ body b) : tail sep ((written.flatMap fun b => body b ++ [sep]) ++ cut) = cut := by
  induction written with
  | nil => exact (lines_eq_nil hcut).2
  | cons b written ih =>
    obtain ⟨hb, hrest⟩ := List.forall_mem_cons.mp hbody
    rw [List.flatMap_cons, List.append_assoc, List.append_assoc, List.singleton_append, (lines_cons hb _).2, ih hrest]

/-- A prefix of a stream has a prefix of its lines. -/
theorem lines_prefix {s stream : List α} (h : s <+: stream) : lines sep s <+: lines sep stream := by
  obtain ⟨more, rfl⟩ := h
  exact ⟨_, (lines_append sep s more).1.symm⟩

/-- Where neither a line nor the tail of a stream is longer than the limit, no incomplete tail of
a prefix reaches the limit before more bytes come. -/
theorem tail_lt_of_more {s more : List α} (limit : Nat) (hmore : more ≠ [])
    (hlines : ∀ line ∈ lines sep (s ++ more), line.length < limit) (htail : (tail sep (s ++ more)).length ≤ limit) :
    (tail sep s).length < limit := by
  obtain ⟨hall, hrest⟩ := lines_append sep s more
  rw [hall] at hlines
  rw [hrest] at htail
  rcases first_line sep more with hno | ⟨body, rest, hbody, rfl⟩
  · have hwhole : sep ∉ tail sep s ++ more := by
      rw [List.mem_append]
      exact not_or.mpr ⟨not_mem_tail s, hno⟩
    have hpositive := List.length_pos_of_ne_nil hmore
    rw [(lines_eq_nil hwhole).2, List.length_append] at htail
    omega
  · have hwhole : sep ∉ tail sep s ++ body := by
      rw [List.mem_append]
      exact not_or.mpr ⟨not_mem_tail s, hbody⟩
    have hfirst := hlines (tail sep s ++ body) (List.mem_append_right _ (by
      rw [← List.append_assoc, (lines_cons hwhole rest).1]
      exact List.mem_cons_self ..))
    rw [List.length_append] at hfirst
    omega

end DynvarSync.Lib.Framing
