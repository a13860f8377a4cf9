import DynvarSync.Ida.NativePlaces
import DynvarSync.Ida.StackDefinition

/-! Runs of the machine through one block: what the instructions decoded from an
address on leave of a stack slot. -/
namespace DynvarSync.Ida
open Lib Windbg

/-- Instructions decoded and executed one after the other from an address, newest first. -/
inductive StraightRun (processor : Processor) (step : DecodedInstruction → Machine → Machine → Prop) (first : Int)
    (m₀ : Machine) : List (Int × Machine) → Int → Machine → Prop
  | start : StraightRun processor step first m₀ [] first m₀
  | execute {executed : List (Int × Machine)} {ea : Int} {insn : DecodedInstruction} {m m' : Machine} :
      StraightRun processor step first m₀ executed ea m → processor.decodeInstruction ea = some insn → 0 < insn.size →
      step insn m m' → StraightRun processor step first m₀ ((ea, m') :: executed) (ea + insn.size) m'

/-- An instruction changes bytes of the slot only where an operand declares a write. -/
def DeclaresSlotWrites (step : DecodedInstruction → Machine → Machine → Prop) (base : Int) (slot : FrameSlot) : Prop :=
  ∀ insn m m' writes, step insn m m' → insn.operands.bind NativeOperand.stackWrites = some writes →
    ∀ k, slot.start ≤ k → k < slot.targetEnd → m'.memory (base + k).toNat ≠ m.memory (base + k).toNat →
      ∃ write ∈ writes, write.1 ≤ k ∧ k < write.1 + write.2

/-- The slot holds the same bytes. -/
def SameSlot (base : Int) (slot : FrameSlot) (m m' : Machine) : Prop :=
  ∀ k, slot.start ≤ k → k < slot.targetEnd → m'.memory (base + k).toNat = m.memory (base + k).toNat

section straight
variable {processor : Processor} {step : DecodedInstruction → Machine → Machine → Prop} {first : Int} {m₀ : Machine}

theorem StraightRun.ascends {executed : List (Int × Machine)} {ea : Int} {m : Machine}
    (h : StraightRun processor step first m₀ executed ea m) : first ≤ ea ∧ ∀ e ∈ executed, e.1 < ea := by
  induction h with
  | start => exact ⟨le_refl _, nofun⟩
  | execute _ _ hsize _ ih =>
    obtain ⟨hfirst, hbelow⟩ := ih
    refine ⟨by omega, List.forall_mem_cons.mpr ⟨by omega, fun e he => ?_⟩⟩
    have := hbelow e he
    omega

/-- What follows one of the executed instructions is a straight run from the next one. -/
theorem StraightRun.after {later earlier : List (Int × Machine)} {last : Int × Machine} {ea : Int} {m : Machine}
    (h : StraightRun processor step first m₀ (later ++ last :: earlier) ea m) :
    ∃ insn, processor.decodeInstruction last.1 = some insn ∧ 0 < insn.size ∧
      StraightRun processor step (last.1 + insn.size) last.2 later ea m := by
  induction later generalizing ea m with
  | nil =>
    cases h with
    | execute _ hdecode hsize _ => exact ⟨_, hdecode, hsize, .start⟩
  | cons e later ih =>
    cases h with
    | execute hrun hdecode hsize hstep =>
      obtain ⟨insn, hlast, hpositive, hafter⟩ := ih hrun
      exact ⟨insn, hlast, hpositive, .execute hafter hdecode hsize hstep⟩

/-- A straight run either has not begun or has executed its first address. -/
theorem StraightRun.begun {executed : List (Int × Machine)} {ea : Int} {m : Machine}
    (h : StraightRun processor step first m₀ executed ea m) : ea = first ∨ ∃ e ∈ executed, e.1 = first := by
  induction h with
  | start => exact .inl rfl
  | execute _ _ _ _ ih =>
    rcases ih with rfl | ⟨e, he, heq⟩
    · exact .inr ⟨_, List.mem_cons_self .., rfl⟩
    · exact .inr ⟨e, List.mem_cons_of_mem _ he, heq⟩

/-- Two straight runs from one address decode the same instructions: one has passed the place of the other. -/
theorem StraightRun.meets {n₀ : Machine} {executed other : List (Int × Machine)} {ea place : Int} {m n : Machine}
    (h : StraightRun processor step first m₀ executed ea m)
    (hother : StraightRun processor step first n₀ other place n) :
    (∃ e ∈ executed, e.1 = place) ∨ ea = place ∨ ∃ e ∈ other, e.1 = ea := by
  induction h with
  | start =>
    rcases hother.begun with rfl | hpassed
    · exact .inr (.inl rfl)
    · exact .inr (.inr hpassed)
  | @execute executed ea insn m m' hrun hdecode _ _ ih =>
    rcases ih with ⟨e, he, heq⟩ | rfl | ⟨e, he, rfl⟩
    · exact .inl ⟨e, List.mem_cons_of_mem _ he, heq⟩
    · exact .inl ⟨_, List.mem_cons_self .., rfl⟩
    · obtain ⟨later, earlier, rfl⟩ := List.append_of_mem he
      obtain ⟨insn', hdecode', _, hafter⟩ := hother.after
      rw [hdecode] at hdecode'
      cases hdecode'
      rcases hafter.begun with rfl | ⟨e', he', heq⟩
      · exact .inr (.inl rfl)
      · exact .inr (.inr ⟨e', List.mem_append_left _ he', heq⟩)

theorem StraightRun.passes {n₀ : Machine} {executed other : List (Int × Machine)} {ea place : Int} {m n : Machine}
    (h : StraightRun processor step first m₀ executed ea m)
    (hother : StraightRun processor step first n₀ other place n) (hlt : place < ea) : ∃ e ∈ executed, e.1 = place := by
  rcases h.meets hother with hpassed | rfl | ⟨e, he, rfl⟩
  · exact hpassed
  · exact absurd hlt (lt_irrefl _)
  · have := hother.ascends.2 e he
    omega

variable {base : Int} {slot : FrameSlot}

theorem SameSlot.of_spares (hstep : DeclaresSlotWrites step base slot) {insn : DecodedInstruction} {m m' : Machine}
    (h : step insn m m') (hspares : processor.nativeDecoder.Spares slot insn) : SameSlot base slot m m' := by
  intro k hlow hhigh
  by_contra hchanged
  obtain ⟨hknown, hclear⟩ := hspares
  change (nativeStackWrites insn).1 = true at hknown
  change ∀ write ∈ (nativeStackWrites insn).2, slot.overlappedBy write = false at hclear
  rw [nativeStackWrites] at hknown hclear
  cases hwrites : insn.operands.bind NativeOperand.stackWrites with
  | none =>
    rw [hwrites] at hknown
    cases hknown
  | some writes =>
    rw [hwrites] at hclear
    obtain ⟨write, hwrite, hstart, hend⟩ := hstep insn m m' writes h hwrites k hlow hhigh hchanged
    have hmiss := hclear write hwrite
    rw [FrameSlot.overlappedBy, Bool.and_eq_false_iff, decide_eq_false_iff_not, decide_eq_false_iff_not] at hmiss
    omega

/-- As long as the walk accepts, the run that it follows keeps the slot. -/
theorem StraightRun.keeps (hstep : DeclaresSlotWrites step base slot) (hwidth : 1 ≤ slot.width) {currentEa : Int}
    {budget : Nat} (hwalk : processor.nativeDecoder.walk currentEa slot budget first false = true)
    {executed : List (Int × Machine)} {ea : Int} {m : Machine}
    (h : StraightRun processor step first m₀ executed ea m) (hbefore : ∀ e ∈ executed, e.1 < currentEa) :
    (∃ left, processor.nativeDecoder.walk currentEa slot left ea false = true) ∧ SameSlot base slot m₀ m := by
  induction h with
  | start => exact ⟨⟨budget, hwalk⟩, fun _ _ _ => rfl⟩
  | execute _ hdecode _ hexec ih =>
    obtain ⟨hhere, hrest⟩ := List.forall_mem_cons.mp hbefore
    obtain ⟨⟨left, hleft⟩, hsame⟩ := ih hrest
    cases left with
    | zero => cases hleft
    | succ left =>
      rw [NativeDecoder.walk_succ _ _ _ hwidth] at hleft
      rcases hleft with ⟨hend, _⟩ | ⟨_, insn, hinsn, _, hspares, hnext⟩
      · exact absurd hhere (Int.not_lt.mpr hend)
      · obtain rfl := Option.some.inj (hdecode.symm.trans hinsn)
        refine ⟨⟨left, hnext⟩, fun k hlow hhigh => ?_⟩
        exact (SameSlot.of_spares hstep hexec hspares k hlow hhigh).trans (hsame k hlow hhigh)

end straight

section passes
variable {processor : Processor} {step : DecodedInstruction → Machine → Machine → Prop} {rawBlocks : List RawBlock}

/-- The first element with a property splits a list where it splits a prefix that has such an element. -/
theorem split_within {α : Type} {p : α → Prop} {front rest later earlier : List α} {last : α}
    (h : front ++ rest = later ++ last :: earlier) (hlater : ∀ e ∈ later, ¬ p e) (hfront : ∃ e ∈ front, p e) :
    ∃ between, front = later ++ last :: between := by
  induction later generalizing front with
  | nil =>
    obtain ⟨e, he, _⟩ := hfront
    cases front with
    | nil => cases he
    | cons x front =>
      obtain ⟨rfl, _⟩ := List.cons.inj h
      exact ⟨front, rfl⟩
  | cons y later ih =>
    obtain ⟨e, he, hp⟩ := hfront
    cases front with
    | nil => cases he
    | cons x front =>
      obtain ⟨rfl, htail⟩ := List.cons.inj h
      obtain ⟨hx, hlater⟩ := List.forall_mem_cons.mp hlater
      rcases List.mem_cons.mp he with rfl | he
      · exact absurd hp hx
      · obtain ⟨between, rfl⟩ := ih htail hlater ⟨e, he, hp⟩
        exact ⟨between, rfl⟩

/-- Inside a block a run has come straight from the block's start. -/
theorem NativeRun.lastPass (hnodup : (rawBlocks.map RawBlock.id).Nodup) {executed : List (Int × Machine)}
    {place : Int × Int} {m : Machine} (h : NativeRun processor step rawBlocks executed place m) {raw : RawBlock}
    (hraw : raw ∈ rawBlocks) (hid : raw.id = place.1) (hinside : place.2 < raw.endEa) :
    ∃ m₀ pass before, executed = pass ++ before ∧ StraightRun processor step raw.startEa m₀ pass place.2 m := by
  induction h with
  | @start other m hother =>
    obtain rfl := List.inj_on_of_nodup_map hnodup hraw hother hid
    exact ⟨m, [], [], rfl, .start⟩
  | @execute executed other ea insn m m' _ hother hlt hdecode hsize _ hexec ih =>
    obtain rfl := List.inj_on_of_nodup_map hnodup hraw hother hid
    obtain ⟨m₀, pass, before, rfl, hpass⟩ := ih rfl hlt
    exact ⟨m₀, (ea, m') :: pass, before, rfl, .execute hpass hdecode hsize hexec⟩
  | @undecoded executed other ea m m' _ hother _ _ _ =>
    obtain rfl := List.inj_on_of_nodup_map hnodup hraw hother hid
    exact absurd hinside (lt_irrefl _)
  | @enter executed other next m _ _ hnext _ _ =>
    obtain rfl := List.inj_on_of_nodup_map hnodup hraw hnext hid
    exact ⟨m, [], executed, rfl, .start⟩

/-- Every executed address was reached straight from the start of its block. -/
theorem NativeRun.reached (hnodup : (rawBlocks.map RawBlock.id).Nodup) {executed : List (Int × Machine)}
    {place : Int × Int} {m : Machine} (h : NativeRun processor step rawBlocks executed place m) :
    ∀ e ∈ executed, ∃ raw ∈ rawBlocks, e.1 < raw.endEa ∧
      ∃ m₀ pass m, StraightRun processor step raw.startEa m₀ pass e.1 m := by
  induction h with
  | start => exact nofun
  | execute hrun hraw hlt _ _ _ _ ih =>
    obtain ⟨m₀, pass, _, _, hpass⟩ := hrun.lastPass hnodup hraw rfl hlt
    exact List.forall_mem_cons.mpr ⟨⟨_, hraw, hlt, m₀, pass, _, hpass⟩, ih⟩
  | undecoded _ hrun hraw hlt _ ih =>
    obtain ⟨m₀, pass, _, _, hpass⟩ := hrun.lastPass hnodup hraw rfl hlt
    exact List.forall_mem_cons.mpr ⟨⟨_, hraw, hlt, m₀, pass, _, hpass⟩, ih⟩
  | enter _ _ _ _ ih => exact ih

/-- Of an address of the block, executed before the place the run stands at, the last execution is in the pass the
run is making. -/
theorem NativeRun.straightSince (hnodup : (rawBlocks.map RawBlock.id).Nodup)
    (hapart : rawBlocks.Pairwise RawBlock.Apart) {raw : RawBlock} (hraw : raw ∈ rawBlocks) {currentEa : Int}
    (hinside : currentEa < raw.endEa) {later earlier : List (Int × Machine)} {last : Int × Machine} {m : Machine}
    (h : NativeRun processor step rawBlocks (later ++ last :: earlier) (raw.id, currentEa) m)
    (hstart : raw.startEa ≤ last.1) (hbefore : last.1 < currentEa) (hlater : ∀ e ∈ later, e.1 ≠ last.1) :
    ∃ insn, processor.decodeInstruction last.1 = some insn ∧ (∀ e ∈ later, e.1 < currentEa) ∧
      StraightRun processor step (last.1 + insn.size) last.2 later currentEa m := by
  obtain ⟨m₀, pass, before, hsplit, hpass⟩ := h.lastPass hnodup hraw rfl hinside
  obtain ⟨other, hother, hend, _, _, _, hreached⟩ := h.reached hnodup last (List.mem_append_right _ (List.mem_cons_self ..))
  obtain rfl : other = raw :=
    RawBlock.eq_of_apart hapart hother hraw ⟨hreached.ascends.1, hend⟩ ⟨hstart, hbefore.trans hinside⟩
  obtain ⟨rest, rfl⟩ := split_within hsplit.symm hlater (hpass.passes hreached hbefore)
  obtain ⟨insn, hdecode, _, hafter⟩ := hpass.after
  exact ⟨insn, hdecode, hafter.ascends.2, hafter⟩

end passes
end DynvarSync.Ida
