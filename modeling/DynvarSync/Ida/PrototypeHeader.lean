import DynvarSync.Ida.Prototype
import Mathlib.Data.List.Infix
import Mathlib.Data.List.TakeWhile

/-! What the header reader makes of a printed parameter list: the declarations in order, up to
where the last line it reads is cut. -/
namespace DynvarSync.Ida
open Lib PyText

section strip

/-- A prefix, stripped, is one of the stripped text. -/
theorem strip_prefix {cs ds : List Char} (h : cs <+: ds) : strip cs <+: strip ds := by
  obtain ⟨more, rfl⟩ := h
  rw [strip, strip, stripWith, stripWith, List.reverse_prefix]
  by_cases hblank : cs.dropWhile textSpace = []
  · rw [hblank]
    exact List.nil_suffix
  · have hdrop : (cs ++ more).dropWhile textSpace = cs.dropWhile textSpace ++ more := by
      rw [List.dropWhile_append, if_neg (by rwa [List.isEmpty_iff])]
    rw [hdrop, List.reverse_append]
    rw [List.dropWhile_append]
    split
    · exact List.suffix_refl _
    · exact (List.dropWhile_suffix _).trans (List.suffix_append _ _)

theorem mem_strip {c : Char} {cs : List Char} (h : c ∈ cs) (hc : textSpace c = false) : c ∈ strip cs := by
  have hdrop (xs : List Char) (hx : c ∈ xs) : c ∈ xs.dropWhile textSpace := by
    rw [← List.takeWhile_append_dropWhile (p := textSpace) (l := xs)] at hx
    rcases List.mem_append.mp hx with htaken | hleft
    · rw [List.mem_takeWhile_imp htaken] at hc
      cases hc
    · exact hleft
  exact List.mem_reverse.mpr (hdrop _ (List.mem_reverse.mpr (hdrop cs h)))

end strip

section split

/-- The depth of brackets after a text; `none` at a comma outside them or a bracket that closes nothing. -/
def nests : Nat → List Char → Option Nat
  | depth, [] => some depth
  | depth, c :: rest =>
    if c ∈ openers then nests (depth + 1) rest
    else if c ∈ closers then (if depth = 0 then none else nests (depth - 1) rest)
    else if c = ',' ∧ depth = 0 then none
    else nests depth rest

theorem nests_append (depth : Nat) (text more : List Char) :
    nests depth (text ++ more) = (nests depth text).bind fun d => nests d more := by
  induction text generalizing depth with
  | nil => rfl
  | cons c text ih =>
    rw [List.cons_append, nests, nests]
    split
    · exact ih (depth + 1)
    · split
      · split
        · rfl
        · exact ih (depth - 1)
      · split
        · rfl
        · exact ih depth

/-- A text without a comma outside brackets is read into one part. -/
theorem splitFrom_nests {depth d : Nat} {text : List Char} (h : nests depth text = some d) (part more : List Char) :
    splitFrom depth part (text ++ more) = splitFrom d (part ++ text) more := by
  induction text generalizing depth part with
  | nil =>
    rw [nests, Option.some.injEq] at h
    rw [h, List.nil_append, List.append_nil]
  | cons c text ih =>
    have hpart : part ++ c :: text = part ++ [c] ++ text := by rw [List.append_assoc, List.singleton_append]
    rw [nests] at h
    rw [List.cons_append, splitFrom, hpart]
    split at h
    · rename_i hopen
      rw [if_pos hopen]
      exact ih h _
    · rename_i hopen
      rw [if_neg hopen]
      split at h
      · rename_i hclose
        rw [if_pos hclose]
        split at h
        · cases h
        · exact ih h _
      · rename_i hclose
        rw [if_neg hclose]
        split at h
        · cases h
        · rename_i hcomma
          rw [if_neg hcomma]
          exact ih h _

/-- The last part, which is left out when it is blank. -/
def lastPart (cut : List Char) : List (List Char) := if strip cut = [] then [] else [strip cut]

theorem splitFrom_end {depth d : Nat} {text : List Char} (h : nests depth text = some d) (part : List Char) :
    splitFrom depth part text = lastPart (part ++ text) := by
  have hsplit := splitFrom_nests h part []
  rw [List.append_nil] at hsplit
  rw [hsplit, splitFrom, lastPart]

/-- Where a list of texts without outer commas is cut, the texts before the cut are read in full. -/
theorem splitArgs_prefix {raws : List (List Char)} (h : ∀ raw ∈ raws, nests 0 raw = some 0) {text : List Char}
    (hbegins : text <+: [','].intercalate raws) :
    ∃ k cut, splitArgs text = (raws.take k).map strip ++ lastPart cut := by
  induction raws generalizing text with
  | nil =>
    rw [List.intercalate_nil, List.prefix_nil] at hbegins
    exact ⟨0, [], by rw [hbegins]; rfl⟩
  | cons raw raws ih =>
    obtain ⟨hraw, hmore⟩ := List.forall_mem_cons.mp h
    have hcut (htext : text <+: raw) : ∃ k cut, splitArgs text = ((raw :: raws).take k).map strip ++ lastPart cut := by
      obtain ⟨rest, rfl⟩ := htext
      rw [nests_append] at hraw
      obtain ⟨d, hd, -⟩ := Option.bind_eq_some_iff.mp hraw
      exact ⟨0, text, splitFrom_end hd []⟩
    cases raws with
    | nil =>
      rw [List.intercalate_singleton] at hbegins
      exact hcut hbegins
    | cons other raws =>
      rw [List.intercalate_cons_cons, List.append_assoc, List.singleton_append] at hbegins
      rcases List.prefix_or_prefix_of_prefix hbegins (List.prefix_append raw _) with htext | ⟨tail, rfl⟩
      · exact hcut htext
      · rw [List.prefix_append_right_inj] at hbegins
        rcases List.prefix_cons_iff.mp hbegins with rfl | ⟨rest, rfl, hrest⟩
        · exact hcut (by rw [List.append_nil])
        · obtain ⟨k, cut, hparts⟩ := ih hmore hrest
          refine ⟨k + 1, cut, ?_⟩
          have hcomma : ',' ∉ openers ∧ ',' ∉ closers := by decide
          rw [splitArgs, splitFrom_nests hraw, List.nil_append, splitFrom, if_neg hcomma.1, if_neg hcomma.2,
            if_pos ⟨rfl, rfl⟩, List.take_succ_cons, List.map_cons, List.cons_append, ← hparts]
          rfl

end split

section header

/-- A line as it is joined to the others. -/
def strippedLine (line : String) : List Char := strip (stripIdaTags line)

def joinedLines (lines : List String) : List Char := [' '].intercalate (lines.map strippedLine)

def ClosesHeader (line : String) : Prop := ')' ∈ stripIdaTags line

theorem headerParts_prefix (lines rest : List String) (h : ∃ line ∈ lines, ClosesHeader line) :
    headerParts (lines ++ rest) <+: lines.map strippedLine ∧
      ∃ part ∈ headerParts (lines ++ rest), ')' ∈ part := by
  induction lines with
  | nil =>
    obtain ⟨line, hline, -⟩ := h
    exact absurd hline List.not_mem_nil
  | cons line lines ih =>
    rw [List.cons_append, headerParts, List.map_cons]
    by_cases hclose : ')' ∈ stripIdaTags line
    · rw [if_pos hclose]
      exact ⟨List.cons_prefix_cons.mpr ⟨rfl, List.nil_prefix⟩,
        strip (stripIdaTags line), List.mem_singleton_self _, mem_strip hclose (by decide)⟩
    · rw [if_neg hclose]
      obtain ⟨other, hother, hcloses⟩ := h
      have hmore : ∃ line ∈ lines, ClosesHeader line := by
        rcases List.mem_cons.mp hother with rfl | hother
        · exact absurd hcloses hclose
        · exact ⟨other, hother, hcloses⟩
      obtain ⟨hbegins, part, hpart, hmem⟩ := ih hmore
      exact ⟨List.cons_prefix_cons.mpr ⟨rfl, hbegins⟩, part, List.mem_cons_of_mem _ hpart, hmem⟩

theorem intercalate_prefix {sep : List Char} {xs ys : List (List Char)} (h : xs <+: ys) :
    sep.intercalate xs <+: sep.intercalate ys := by
  induction xs generalizing ys with
  | nil => exact List.nil_prefix
  | cons x xs ih =>
    obtain ⟨more, rfl⟩ := h
    rcases xs with _ | ⟨x', xs⟩
    · rw [List.intercalate_singleton, List.singleton_append]
      cases more with
      | nil =>
        rw [List.intercalate_singleton]
      | cons y more =>
        rw [List.intercalate_cons_cons, List.append_assoc]
        exact List.prefix_append _ _
    · rw [List.cons_append, List.cons_append, List.intercalate_cons_cons, List.intercalate_cons_cons]
      exact (List.prefix_append_right_inj _).mpr (ih (List.prefix_append (x' :: xs) more))

theorem mem_intercalate {c : Char} {sep part : List Char} {parts : List (List Char)} (hpart : part ∈ parts)
    (hc : c ∈ part) : c ∈ sep.intercalate parts := by
  induction parts with
  | nil => exact absurd hpart List.not_mem_nil
  | cons first parts ih =>
    cases parts with
    | nil =>
      rw [List.intercalate_singleton]
      exact List.mem_singleton.mp hpart ▸ hc
    | cons other parts =>
      rw [List.intercalate_cons_cons, List.append_assoc]
      rcases List.mem_cons.mp hpart with rfl | hpart
      · exact List.mem_append_left _ hc
      · exact List.mem_append_right _ (List.mem_append_right _ (ih hpart))

/-- The group ends before the last closing parenthesis. -/
theorem parenthesized_eq {before rest : List Char} (hbefore : '(' ∉ before) (hclose : ')' ∈ rest) :
    ∃ inner after, parenthesized (before ++ '(' :: rest) = some inner ∧ rest = inner ++ ')' :: after := by
  have hopen : (before ++ '(' :: rest).dropWhile (· ≠ '(') = '(' :: rest := by
    have hall : ∀ c ∈ before, decide (c ≠ '(') = true := fun c hc => decide_eq_true fun heq => hbefore (heq ▸ hc)
    rw [List.dropWhile_append_of_pos hall, List.dropWhile_cons_of_neg (by decide)]
  have hlast : rest.reverse.dropWhile (· ≠ ')') ≠ [] := by
    intro hnil
    have hall := List.dropWhile_eq_nil_iff.mp hnil ')' (List.mem_reverse.mpr hclose)
    exact absurd hall (by decide)
  obtain ⟨c, inner, hinner⟩ := List.exists_cons_of_ne_nil hlast
  have hc : c = ')' := by
    have hhead := List.head_dropWhile_not (fun c : Char => decide (c ≠ ')')) hlast
    simp only [hinner, List.head_cons, decide_eq_false_iff_not, ne_eq, not_not] at hhead
    exact hhead
  refine ⟨inner.reverse, (rest.reverse.takeWhile (· ≠ ')')).reverse, ?_, ?_⟩
  · rw [parenthesized, hopen]
    dsimp only
    rw [hinner]
  · have hsplit := List.takeWhile_append_dropWhile (p := fun c : Char => decide (c ≠ ')')) (l := rest.reverse)
    rw [hinner, hc] at hsplit
    have hreverse := congrArg List.reverse hsplit
    rw [List.reverse_append, List.reverse_cons, List.reverse_reverse, List.append_assoc,
      List.singleton_append] at hreverse
    exact hreverse.symm

end header

section printed

/-- A parameter by its name, empty where it has none, and its declaration as it is printed. -/
structure Parameter where
  name : String
  decl : List Char

/-- The declarations of some parameters between parentheses, each balanced, with blanks around them and broken into
lines anywhere; more lines may follow. An empty list is printed as nothing, or as one unnamed parameter declared
void. -/
def PrintsHeader (lines : List String) (params : List Parameter) : Prop :=
  ∃ header rest before group after raws, lines = header ++ rest ∧
    joinedLines header = before ++ '(' :: (group ++ ')' :: after) ∧ '(' ∉ before ∧ ')' ∉ before ∧ ')' ∉ after ∧
    strip group = [','].intercalate raws ∧ raws.map strip = params.map Parameter.decl ∧
    ∀ raw ∈ raws, nests 0 raw = some 0

theorem mem_strip_sub {c : Char} {cs : List Char} (h : c ∈ strip cs) : c ∈ cs := by
  have hback := List.mem_reverse.mp h
  exact (List.dropWhile_suffix _).subset (List.mem_reverse.mp ((List.dropWhile_suffix _).subset hback))

theorem exists_of_mem_intercalate {c : Char} {sep : List Char} {parts : List (List Char)}
    (hc : c ∈ sep.intercalate parts)
    (hsep : c ∉ sep) : ∃ part ∈ parts, c ∈ part := by
  induction parts with
  | nil => exact absurd hc List.not_mem_nil
  | cons first parts ih =>
    cases parts with
    | nil =>
      rw [List.intercalate_singleton] at hc
      exact ⟨first, List.mem_singleton_self first, hc⟩
    | cons other parts =>
      rw [List.intercalate_cons_cons, List.append_assoc] at hc
      rcases List.mem_append.mp hc with hc | hc
      · exact ⟨first, List.mem_cons_self .., hc⟩
      · obtain ⟨part, hpart, hmem⟩ := ih ((List.mem_append.mp hc).resolve_left hsep)
        exact ⟨part, List.mem_cons_of_mem _ hpart, hmem⟩

/-- A prefix with a closing parenthesis goes beyond the opening one. -/
theorem opened_of_prefix {before text tail : List Char} (hbefore : ')' ∉ before) (h : text <+: before ++ '(' :: tail)
    (hclose : ')' ∈ text) : ∃ read, text = before ++ '(' :: read ∧ read <+: tail ∧ ')' ∈ read := by
  rcases List.prefix_or_prefix_of_prefix h (List.prefix_append before _) with hshort | ⟨more, rfl⟩
  · exact absurd (hshort.subset hclose) hbefore
  · rw [List.prefix_append_right_inj] at h
    have hmore := (List.mem_append.mp hclose).resolve_left hbefore
    rcases List.prefix_cons_iff.mp h with rfl | ⟨read, rfl, hread⟩
    · exact absurd hmore List.not_mem_nil
    · exact ⟨read, rfl, hread, (List.mem_cons.mp hmore).resolve_left (by decide)⟩

/-- A group that ends before a closing parenthesis is within the parameters. -/
theorem group_of_prefix {inner group after after' : List Char} (hafter : ')' ∉ after)
    (h : inner ++ ')' :: after' <+: group ++ ')' :: after) : inner <+: group := by
  have hinner : inner <+: group ++ ')' :: after := (List.prefix_append inner _).trans h
  rcases List.prefix_or_prefix_of_prefix hinner (List.prefix_append group _) with hshort | ⟨more, rfl⟩
  · exact hshort
  · rw [List.append_assoc, List.prefix_append_right_inj] at h
    cases more with
    | nil => rw [List.append_nil]
    | cons c more =>
      have htail := (List.cons_prefix_cons.mp h).2
      exact absurd (htail.subset (List.mem_append_right _ (List.mem_cons_self ..))) hafter

/-- The declarations read from a header are the parameters' own, the last one perhaps cut. -/
theorem headerDecls_prefix {lines : List String} {params : List Parameter} (h : PrintsHeader lines params) :
    ∃ k cut, headerDecls lines = (params.take k).map Parameter.decl ++ cut ∧ cut.length ≤ 1 := by
  obtain ⟨header, rest, before, group, after, raws, rfl, hjoined, hopen, hclose, hafter, hgroup, hdecls, hnests⟩ := h
  have hcloses : ∃ line ∈ header, ClosesHeader line := by
    have hmem : ')' ∈ joinedLines header := by
      rw [hjoined]
      simp
    obtain ⟨part, hpart, hc⟩ := exists_of_mem_intercalate hmem (by decide)
    obtain ⟨line, hline, rfl⟩ := List.mem_map.mp hpart
    exact ⟨line, hline, mem_strip_sub hc⟩
  obtain ⟨hparts, part, hpart, hmem⟩ := headerParts_prefix header rest hcloses
  have htext : headerText (header ++ rest) <+: before ++ '(' :: (group ++ ')' :: after) := by
    rw [← hjoined]
    exact intercalate_prefix hparts
  obtain ⟨read, hread, hbegins, hin⟩ := opened_of_prefix hclose htext (mem_intercalate hpart hmem)
  obtain ⟨inner, after', hinner, hsplit⟩ := parenthesized_eq hopen hin
  have hgroupBegins : inner <+: group := group_of_prefix hafter (hsplit ▸ hbegins)
  have hstrip := strip_prefix hgroupBegins
  rw [hgroup] at hstrip
  rw [headerDecls, hread, hinner]
  dsimp only
  split
  · exact ⟨0, [], rfl, Nat.zero_le 1⟩
  · obtain ⟨k, cut, hsplits⟩ := splitArgs_prefix hnests hstrip
    refine ⟨k, lastPart cut, ?_, ?_⟩
    · rw [hsplits, List.map_take, hdecls, List.map_take]
    · rw [lastPart]
      split
      · exact Nat.zero_le 1
      · exact Nat.le_refl 1

end printed
end DynvarSync.Ida
