import DynvarSync.Ida.PrototypeHeader
import DynvarSync.Ida.DistinctArguments

/-! The argument indexes a prototype gives, and when they are the positions of the parameters in
the full list: a parameter whose name is not read moves every later one. -/
namespace DynvarSync.Ida
open Lib PyText

/-- What a decompiled function tells of its parameters: the names in its type details, and the declarations its
pseudocode prints. -/
structure Describes (cfunc : Cfunc) (params : List Parameter) : Prop where
  details : ∀ names, cfunc.details = some names → names = params.map Parameter.name
  pseudocode : ∀ lines, cfunc.pseudocode = some lines → PrintsHeader lines params

/-- Every variable the prototype makes an argument has the position of the parameter with its name. -/
def PositionsKept (params : List Parameter) (lvars : List Lvar) (detections : Detections) : Prop :=
  ∀ l detection, detections.get? l = some detection → detection.reason = "function prototype" →
    ∃ lvar i, lvars[l]? = some lvar ∧ detection.argIndex = some i ∧
      (params[i]?.map Parameter.name) = some lvar.name

section shown
variable (cfunc : Cfunc)

/-- The name that is read for a parameter, empty where none is. -/
def shownName (p : Parameter) : String :=
  if prototypeArgNamesFromTinfo cfunc ≠ [] then p.name else extractDeclName p.decl

/-- The names in the order of the parameters, with the empty ones. -/
def shownNames : List String :=
  if prototypeArgNamesFromTinfo cfunc ≠ [] then cfunc.details.getD []
  else (headerDecls (cfunc.pseudocode.getD [])).map extractDeclName

theorem prototypeArgNames_eq : prototypeArgNames cfunc = (shownNames cfunc).filter (· ≠ "") := by
  rw [prototypeArgNames, shownNames]
  split
  · rfl
  · rfl

variable {cfunc} {params : List Parameter}

/-- The parameters before one that is read are read by their own names or declarations. -/
theorem Describes.take_shownNames (h : Describes cfunc params) {q : Nat} (hq : q < (shownNames cfunc).length) :
    (shownNames cfunc).take q = (params.take q).map (shownName cfunc) := by
  rw [shownNames] at hq ⊢
  split at hq
  · rename_i htinfo
    rw [if_pos htinfo]
    cases hdetails : cfunc.details with
    | none =>
      rw [hdetails] at hq
      exact absurd hq (Nat.not_lt_zero q)
    | some names =>
      rw [Option.getD_some, h.details names hdetails, ← List.map_take]
      exact List.map_congr_left fun p _ => (if_pos htinfo).symm
  · rename_i htinfo
    rw [if_neg htinfo]
    cases hlines : cfunc.pseudocode with
    | none =>
      rw [hlines] at hq
      exact absurd hq (Nat.not_lt_zero q)
    | some lines =>
      obtain ⟨k, cut, hdecls, hcut⟩ := headerDecls_prefix (h.pseudocode lines hlines)
      rw [hlines, Option.getD_some, hdecls, List.length_map, List.length_append, List.length_map] at hq
      have hk : q ≤ (params.take k).length := by omega
      have htake : (params.take k).take q = params.take q := by
        rw [List.take_take, Nat.min_eq_left (hk.trans (List.length_take_le k params))]
      rw [Option.getD_some, hdecls, ← List.map_take, List.take_append_of_le_length (by rwa [List.length_map]),
        ← List.map_take, htake, List.map_map]
      exact List.map_congr_left fun p _ => (if_neg htinfo).symm

end shown

section positions
variable (cfunc : Cfunc) (lvars : List Lvar) (params : List Parameter)

/-- A variable that only the prototype can make an argument, the last of its name. -/
def PrototypeDecides (l : Nat) (name : String) : Prop :=
  (l : Int) ∉ cfunc.argidx ∧ (lvars[l]?.map Lvar.isArgVar) = some false ∧
    LastAt (lvars.map Lvar.name) name l ∧ name ≠ ""

/-- The number of parameters before a position whose names are not read. -/
def unreadBefore (q : Nat) : Nat := ((params.take q).filter fun p => shownName cfunc p = "").length

/-- All names before this one are read, and it is its parameter's. -/
def InPlace (name : String) (q : Nat) : Prop :=
  unreadBefore cfunc params q = 0 ∧ (params[q]?.map Parameter.name) = some name

/-- Names before this one are not read, and the parameter as many places before has it. -/
def MovedOnto (name : String) (q : Nat) : Prop :=
  0 < unreadBefore cfunc params q ∧ (params[q - unreadBefore cfunc params q]?.map Parameter.name) = some name

theorem prototypeOnly_iff_decides (l i : Nat) :
    PrototypeOnly cfunc lvars l i ↔
      ∃ name q, PrototypeDecides cfunc lvars l name ∧ FirstAt (shownNames cfunc) name q ∧
        i = (((shownNames cfunc).take q).filter (· ≠ "")).length := by
  have hfilter (name : String) (hname : name ≠ "") :=
    firstAt_filter (p := fun read => decide (read ≠ "")) (decide_eq_true hname) (shownNames cfunc) i
  simp only [PrototypeOnly, PrototypeDecides, NamedAt, prototypeArgNames_eq]
  constructor
  · rintro ⟨hargidx, hflag, name, hlast, hfirst⟩
    have hname : name ≠ "" := of_decide_eq_true (List.mem_filter.mp hfirst.mem).2
    obtain ⟨q, hq, hi⟩ := (hfilter name hname).mp hfirst
    exact ⟨name, q, ⟨hargidx, hflag, hlast, hname⟩, hq, hi⟩
  · rintro ⟨name, q, ⟨hargidx, hflag, hlast, hname⟩, hq, hi⟩
    exact ⟨hargidx, hflag, name, hlast, (hfilter name hname).mpr ⟨q, hq, hi⟩⟩

/-- The prototype's detections are those of the variables only it tells. -/
theorem detectArguments_prototype (wideAlnum : Char → Bool) (l : Nat) (detection : ArgumentDetection) :
    ((detectArguments wideAlnum cfunc lvars).get? l = some detection ∧ detection.reason = "function prototype") ↔
      ∃ i, PrototypeOnly cfunc lvars l i ∧
        detection = { isArg := true, argIndex := some i, reason := "function prototype" } := by
  have hnone : ¬ ∃ detection, (signalled cfunc lvars).get? l = some detection ∧
    detection.reason = "function prototype" := by
    have hother : "cfunc.argidx" ≠ "function prototype" ∧ "lvar.is_arg_var()" ≠ "function prototype" := by decide
    rintro ⟨detection, hget, hreason⟩
    rcases (flagPass_get? _ lvars l detection).mp hget with hargidx | ⟨j, -, rfl⟩
    · obtain ⟨-, i, -, rfl⟩ := (argidxPass_get? lvars cfunc.argidx l detection).mp hargidx
      exact hother.1 hreason
    · exact hother.2 hreason
  constructor
  · rintro ⟨hget, hreason⟩
    rcases (fallbackPass_get? _ _ l detection).2 hget with hold | ⟨hfallback, -⟩
    · rcases (prototypePass_get? lvars _ _ l detection).mp hold with hsignal | ⟨hfree, i, hnamed, rfl⟩
      · exact absurd ⟨detection, hsignal, hreason⟩ hnone
      · exact ⟨i, (prototypeOnly_iff cfunc lvars l i).mpr ⟨hfree, hnamed⟩, rfl⟩
    · obtain ⟨i, candidate, -, -, rfl⟩ := detectAbi_get? lvars wideAlnum hfallback
      have hfirst := congrArg (fun s => s.toList.head?) hreason
      simp at hfirst
  · rintro ⟨i, honly, rfl⟩
    obtain ⟨hfree, hnamed⟩ := (prototypeOnly_iff cfunc lvars l i).mp honly
    exact ⟨(fallbackPass_get? _ _ l _).1 ((prototypePass_get? lvars _ _ l _).mpr (.inr ⟨hfree, i, hnamed, rfl⟩)), rfl⟩

variable {cfunc} {params}

/-- The index of a name that is read is its position less the names that are not read before it. -/
theorem Describes.index_eq (h : Describes cfunc params) {name : String} {q : Nat}
    (hq : FirstAt (shownNames cfunc) name q) :
    (((shownNames cfunc).take q).filter (· ≠ "")).length = q - unreadBefore cfunc params q := by
  have htake := h.take_shownNames hq.lt
  have hlength : ((shownNames cfunc).take q).length = q := List.length_take_of_le hq.lt.le
  have hunread : (((shownNames cfunc).take q).filter (· = "")).length = unreadBefore cfunc params q := by
    rw [htake, List.filter_map, List.length_map]
    rfl
  have hsplit := List.length_eq_length_filter_add (l := (shownNames cfunc).take q) (fun name => decide (name = ""))
  have hrest : (((shownNames cfunc).take q).filter fun name => !decide (name = "")) =
      ((shownNames cfunc).take q).filter (· ≠ "") := List.filter_congr fun name _ => by simp
  rw [hrest] at hsplit
  omega

end positions

/-- The prototype keeps the parameters' positions exactly when each name that only it tells is read in its place, or was
moved onto a parameter of that name. -/
theorem prototype_positions_kept_iff (wideAlnum : Char → Bool) (lvars : List Lvar) {cfunc : Cfunc}
    {params : List Parameter}
    (h : Describes cfunc params) :
    PositionsKept params lvars (detectArguments wideAlnum cfunc lvars) ↔
      ∀ l name q, PrototypeDecides cfunc lvars l name → FirstAt (shownNames cfunc) name q →
        InPlace cfunc params name q ∨ MovedOnto cfunc params name q := by
  have hplace {name : String} {q : Nat} :
      (params[q - unreadBefore cfunc params q]?.map Parameter.name) = some name ↔
        InPlace cfunc params name q ∨ MovedOnto cfunc params name q := by
    rcases Nat.eq_zero_or_pos (unreadBefore cfunc params q) with hzero | hpos
    · rw [InPlace, MovedOnto, hzero, Nat.sub_zero]
      exact ⟨fun hname => .inl ⟨rfl, hname⟩, fun hor => hor.elim And.right fun hmoved => absurd hmoved.1
        (Nat.lt_irrefl 0)⟩
    · exact ⟨fun hname => .inr ⟨hpos, hname⟩,
        fun hor => hor.elim (fun hin => absurd hin.1 (Nat.pos_iff_ne_zero.mp hpos)) And.right⟩
  constructor
  · intro hkept l name q hdecides hfirst
    have honly := (prototypeOnly_iff_decides cfunc lvars l _).mpr ⟨name, q, hdecides, hfirst, rfl⟩
    obtain ⟨hget, hreason⟩ := (detectArguments_prototype cfunc lvars wideAlnum l _).mpr ⟨_, honly, rfl⟩
    obtain ⟨lvar, i, hlvar, hi, hname⟩ := hkept l _ hget hreason
    have hlast := hdecides.2.2.1.1
    rw [List.getElem?_map, hlvar, Option.map_some, Option.some.injEq] at hlast
    rw [← Option.some.inj hi, h.index_eq hfirst, hlast] at hname
    exact hplace.mp hname
  · intro hplaces l detection hget hreason
    obtain ⟨i, honly, rfl⟩ := (detectArguments_prototype cfunc lvars wideAlnum l detection).mp ⟨hget, hreason⟩
    obtain ⟨name, q, hdecides, hfirst, rfl⟩ := (prototypeOnly_iff_decides cfunc lvars l i).mp honly
    have hlast := hdecides.2.2.1.1
    rw [List.getElem?_map, Option.map_eq_some_iff] at hlast
    obtain ⟨lvar, hlvar, rfl⟩ := hlast
    refine ⟨lvar, _, hlvar, rfl, ?_⟩
    rw [h.index_eq hfirst]
    exact hplace.mpr (hplaces l lvar.name q hdecides hfirst)

theorem prototype_positions_kept_iff_two_lines :
    PositionsKept [⟨"a", "int a".toList⟩, ⟨"b", "char *b".toList⟩] [{ name := "b" }]
      (detectArguments (fun _ => false) { pseudocode := some ["int f(int a,", "  char *b)"] } [{ name := "b" }]) := by
  have hheader : Describes { pseudocode := some ["int f(int a,", "  char *b)"] }
      [⟨"a", "int a".toList⟩, ⟨"b", "char *b".toList⟩] := by
    refine ⟨fun names hnames => absurd hnames.symm (Option.some_ne_none names), fun lines hlines => ?_⟩
    rw [← Option.some.inj hlines]
    exact ⟨_, [], "int f".toList, "int a, char *b".toList, [], ["int a".toList, " char *b".toList],
      (List.append_nil _).symm, by decide, by decide, by decide, by decide, by decide, by decide, by decide⟩
  have hshown : shownNames { pseudocode := some ["int f(int a,", "  char *b)"] } = ["a", "b"] := by decide +kernel
  have hbefore : "b" ∉ ["a"] := by decide
  have hsecond : FirstAt ["a", "b"] "b" 1 := firstAt_length hbefore []
  refine (prototype_positions_kept_iff (fun _ => false) [{ name := "b" }] hheader).mpr fun l name q
    hdecides hfirst => ?_
  have hlast : LastAt ["b"] name l := hdecides.2.2.1
  obtain rfl : name = "b" := List.mem_singleton.mp (List.mem_of_getElem? hlast.1)
  rw [hshown] at hfirst
  obtain rfl : q = 1 := hfirst.unique hsecond
  exact .inl ⟨by decide +kernel, rfl⟩

/-- The name of a pointer to a function is not read, and the next parameter takes its place. -/
theorem function_pointer_shifts :
    ¬ ∀ (wideAlnum : Char → Bool) (lvars : List Lvar) (cfunc : Cfunc) (params : List Parameter),
    Describes cfunc params →
      PositionsKept params lvars (detectArguments wideAlnum cfunc lvars) := by
  intro h
  have hheader : Describes { pseudocode := some ["int f(void (*cb)(int), int b)"] }
      [⟨"cb", "void (*cb)(int)".toList⟩, ⟨"b", "int b".toList⟩] := by
    refine ⟨fun names hnames => absurd hnames.symm (Option.some_ne_none names), fun lines hlines => ?_⟩
    rw [← Option.some.inj hlines]
    exact ⟨_, [], "int f".toList, "void (*cb)(int), int b".toList, [], ["void (*cb)(int)".toList, " int b".toList],
      (List.append_nil _).symm, by decide, by decide, by decide, by decide, by decide, by decide, by decide⟩
  obtain ⟨lvar, i, hlvar, hi, hname⟩ := h (fun _ => false) [{ name := "b" }] _ _ hheader 0
    { isArg := true, argIndex := some 0, reason := "function prototype" } (by decide +kernel) rfl
  rw [← Option.some.inj hi, ← Option.some.inj hlvar] at hname
  exact absurd hname (by decide)

end DynvarSync.Ida
