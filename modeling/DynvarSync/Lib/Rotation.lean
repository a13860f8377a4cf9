import Mathlib.Data.Int.GCD
import Mathlib.Data.Nat.ModEq

/-! Rotating over a ring of positions, one window a turn. A cursor kept for one ring
reaches every position; a cursor that two rings share may not. -/
namespace DynvarSync.Lib.Rotation

theorem exists_distance {m e : Nat} (he : e < m) (p : Nat) : ∃ d < m, (p + d) % m = e := by
  have hp : p % m < m := Nat.mod_lt p (Nat.zero_lt_of_lt he)
  rcases Nat.le_total (p % m) e with hle | hle
  · refine ⟨e - p % m, by omega, ?_⟩
    rw [← Nat.mod_add_mod, Nat.add_sub_of_le hle, Nat.mod_eq_of_lt he]
  · rcases Nat.lt_or_eq_of_le hle with hlt | heq
    · refine ⟨m - p % m + e, by omega, ?_⟩
      rw [← Nat.mod_add_mod, ← Nat.add_assoc, Nat.add_sub_of_le hp.le, Nat.add_mod_left, Nat.mod_eq_of_lt he]
    · exact ⟨0, Nat.zero_lt_of_lt he, heq.symm⟩

section windows
variable {m : Nat} {pos len : Nat → Nat}

theorem window_at (hpos : ∀ k, pos (k + 1) = (pos k + len k) % m) (hlen : ∀ k, 0 < len k) (d : Nat) :
    ∃ k ≤ d, ∃ j < len k, (pos k + j) % m = (pos 0 + d) % m := by
  induction d with
  | zero => exact ⟨0, Nat.le_refl 0, 0, hlen 0, rfl⟩
  | succ d ih =>
    obtain ⟨k, hk, j, hj, heq⟩ := ih
    have hnext : (pos k + (j + 1)) % m = (pos 0 + (d + 1)) % m := Nat.ModEq.add_right 1 heq
    rcases Nat.lt_or_eq_of_le (Nat.succ_le_of_lt hj) with hmore | hlast
    · exact ⟨k, by omega, j + 1, hmore, hnext⟩
    · refine ⟨k + 1, by omega, 0, hlen (k + 1), ?_⟩
      rw [hpos, Nat.add_zero, Nat.mod_mod, ← hlast, ← hnext]

/-- Windows that follow one another around a ring reach every position within a round of turns. -/
theorem windows_reach (hpos : ∀ k, pos (k + 1) = (pos k + len k) % m) (hlen : ∀ k, 0 < len k) {e : Nat} (he : e < m) :
    ∃ k < m, ∃ j < len k, (pos k + j) % m = e := by
  obtain ⟨d, hd, hde⟩ := exists_distance he (pos 0)
  obtain ⟨k, hk, j, hj, heq⟩ := window_at hpos hlen d
  exact ⟨k, by omega, j, hj, heq.trans hde⟩

end windows

/-- The greatest number below `v` in the residue class of `x` modulo the greatest common divisor of `v` and `s`. -/
def greatest (v s x : Nat) : Nat := v - Nat.gcd v s + x % Nat.gcd v s

theorem le_greatest {v s x y : Nat} (hy : y < v) (hclass : y % Nat.gcd v s = x % Nat.gcd v s) : y ≤ greatest v s x := by
  have hv : Nat.gcd v s ∣ v := Nat.gcd_dvd_left v s
  obtain ⟨q, hq⟩ := hv
  have hy' := Nat.div_add_mod y (Nat.gcd v s)
  have hlt : y / Nat.gcd v s < q := Nat.div_lt_of_lt_mul (hq ▸ hy)
  have hmul : Nat.gcd v s * (y / Nat.gcd v s + 1) ≤ Nat.gcd v s * q := Nat.mul_le_mul_left _ hlt
  rw [Nat.mul_add, Nat.mul_one, ← hq] at hmul
  rw [greatest]
  omega

theorem exists_steps_to_greatest {v x : Nat} (s : Nat) (hx : x < v) :
    ∃ t, greatest v s x = x + t * Nat.gcd v s := by
  obtain ⟨q, hq⟩ := Nat.gcd_dvd_left v s
  have hx' := Nat.div_add_mod x (Nat.gcd v s)
  have hlt : x / Nat.gcd v s < q := Nat.div_lt_of_lt_mul (hq ▸ hx)
  obtain ⟨t, ht⟩ := Nat.exists_eq_add_of_le (Nat.succ_le_of_lt hlt)
  have hmul : Nat.gcd v s * q = Nat.gcd v s * (x / Nat.gcd v s) + Nat.gcd v s + t * Nat.gcd v s := by
    rw [ht, Nat.mul_add, Nat.succ_eq_add_one, Nat.mul_add, Nat.mul_one, Nat.mul_comm t]
  refine ⟨t, ?_⟩
  rw [greatest]
  omega

theorem greatest_lt {v s x : Nat} (hx : x < v) : greatest v s x < v := by
  have hv : 0 < v := Nat.zero_lt_of_lt hx
  have hmod := Nat.mod_lt x (Nat.gcd_pos_of_pos_left s hv)
  have hle := Nat.gcd_le_left s hv
  rw [greatest]
  omega

/-- Steps of `s` around a ring of `v` positions reach the greatest position of the residue class. -/
theorem reaches_greatest {v x : Nat} (s : Nat) (hx : x < v) : ∃ k < v, (x + k * s) % v = greatest v s x := by
  have hv : 0 < v := Nat.zero_lt_of_lt hx
  rcases Nat.lt_or_eq_of_le (Nat.gcd_le_left s hv) with hlt | heq
  · obtain ⟨t, ht⟩ := exists_steps_to_greatest s hx
    obtain ⟨i, -, hi⟩ := Nat.exists_mul_mod_eq_gcd (by rwa [Nat.gcd_comm] at hlt)
    rw [Nat.gcd_comm] at hi
    have hstep : i * s ≡ Nat.gcd v s [MOD v] := by
      rw [Nat.ModEq, Nat.mul_comm, hi, Nat.mod_eq_of_lt hlt]
    have hsteps : t * i % v * s ≡ t * Nat.gcd v s [MOD v] := by
      calc t * i % v * s ≡ t * i * s [MOD v] := (Nat.mod_modEq (t * i) v).mul_right s
        _ = t * (i * s) := Nat.mul_assoc t i s
        _ ≡ t * Nat.gcd v s [MOD v] := hstep.mul_left t
    refine ⟨t * i % v, Nat.mod_lt _ hv, ?_⟩
    rw [← Nat.mod_eq_of_lt (greatest_lt (s := s) hx), ht]
    exact hsteps.add_left x
  · refine ⟨0, hv, ?_⟩
    rw [Nat.zero_mul, Nat.add_zero, Nat.mod_eq_of_lt hx]
    rw [greatest, heq, Nat.sub_self, Nat.zero_add, Nat.mod_eq_of_lt hx]

/-- A cursor that turns by windows of `s` on a ring of `r` positions and is reduced to a ring of `v` positions
between its turns. -/
structure Shared (v r s : Nat) (cursor : Nat → Nat) : Prop where
  start : cursor 0 < v
  turn : ∀ k, cursor (k + 1) = (cursor k % r + min s r) % r % v

section shared
variable {v r s : Nat} {cursor : Nat → Nat}

theorem Shared.lt (h : Shared v r s cursor) (k : Nat) : cursor k < v := by
  cases k with
  | zero => exact h.start
  | succ k =>
    rw [h.turn]
    exact Nat.mod_lt _ (Nat.zero_lt_of_lt h.start)

/-- A turn that does not pass the end of its ring. -/
theorem Shared.turn_short (h : Shared v r s cursor) {k : Nat} (hshort : cursor k + s < r) :
    cursor (k + 1) = (cursor k + s) % v := by
  rw [h.turn, Nat.mod_eq_of_lt (by omega : cursor k < r), Nat.min_eq_left (by omega), Nat.mod_eq_of_lt hshort]

theorem Shared.turns_short (h : Shared v r s cursor) (k : Nat) (hshort : ∀ i < k, cursor i + s < r) :
    cursor k = (cursor 0 + k * s) % v := by
  induction k with
  | zero => rw [Nat.zero_mul, Nat.add_zero, Nat.mod_eq_of_lt h.start]
  | succ k ih =>
    rw [h.turn_short (hshort k (Nat.lt_succ_self k)), ih fun i hi => hshort i (Nat.lt_succ_of_lt hi), Nat.mod_add_mod,
      Nat.succ_mul, Nat.add_assoc]

/-- A residue class that stays short of the end of the ring is never left. -/
theorem Shared.class_of_short (h : Shared v r s cursor) (hshort : greatest v s (cursor 0) + s < r) (k : Nat) :
    cursor k % Nat.gcd v s = cursor 0 % Nat.gcd v s := by
  induction k with
  | zero => rfl
  | succ k ih =>
    have hle := le_greatest (h.lt k) ih
    rw [h.turn_short (by omega), Nat.mod_mod_of_dvd _ (Nat.gcd_dvd_left v s), Nat.add_mod,
      Nat.mod_eq_zero_of_dvd (Nat.gcd_dvd_right v s), Nat.add_zero, Nat.mod_mod, ih]

/-- From a turn that passes the end of the ring, the following ones reach what is left. -/
theorem Shared.after_end (h : Shared v r s cursor) (hs : 0 < s) (hsr : s < r) (hvr : v < r) {k : Nat}
    (hend : r ≤ cursor k + s) (i : Nat) (hi : cursor k + s - r + i * s < cursor k) :
    cursor (k + 1 + i) = cursor k + s - r + i * s := by
  have hlt := h.lt k
  induction i with
  | zero =>
    rw [Nat.add_zero, h.turn, Nat.mod_eq_of_lt (by omega : cursor k < r), Nat.min_eq_left hsr.le,
      Nat.mod_eq_sub_mod hend, Nat.mod_eq_of_lt (by omega : cursor k + s - r < r),
      Nat.mod_eq_of_lt (by omega), Nat.zero_mul,
      Nat.add_zero]
  | succ i ih =>
    rw [Nat.succ_mul] at hi ⊢
    have hbefore := ih (by omega)
    rw [← Nat.add_assoc, h.turn_short (by omega), hbefore, Nat.mod_eq_of_lt (by omega), Nat.add_assoc]

theorem Shared.reaches_after_end (h : Shared v r s cursor) (hs : 0 < s) (hsr : s < r) (hvr : v < r) {k : Nat}
    (hend : r ≤ cursor k + s) {e : Nat} (he : e < r) : ∃ i ≤ v, ∃ j < s, (cursor (k + i) % r + j) % r = e := by
  have hlt := h.lt k
  by_cases hhigh : cursor k ≤ e
  · refine ⟨0, Nat.zero_le v, e - cursor k, by omega, ?_⟩
    rw [Nat.add_zero, Nat.mod_eq_of_lt (hlt.trans hvr), Nat.add_sub_of_le hhigh, Nat.mod_eq_of_lt he]
  · by_cases hlow : e < cursor k + s - r
    · refine ⟨0, Nat.zero_le v, e + r - cursor k, by omega, ?_⟩
      rw [Nat.add_zero, Nat.mod_eq_of_lt (hlt.trans hvr), Nat.add_sub_of_le (by omega), Nat.add_mod_right,
        Nat.mod_eq_of_lt he]
    · have hsplit := Nat.div_add_mod (e - (cursor k + s - r)) s
      have hmod := Nat.mod_lt (e - (cursor k + s - r)) hs
      have hdiv : (e - (cursor k + s - r)) / s ≤ e - (cursor k + s - r) := Nat.div_le_self _ s
      rw [Nat.mul_comm] at hsplit
      have hturn : cursor k + s - r + (e - (cursor k + s - r)) / s * s < r := by omega
      have hat := h.after_end hs hsr hvr hend ((e - (cursor k + s - r)) / s) (by omega)
      refine ⟨1 + (e - (cursor k + s - r)) / s, by omega, (e - (cursor k + s - r)) % s, hmod, ?_⟩
      rw [← Nat.add_assoc, hat, Nat.mod_eq_of_lt hturn, Nat.mod_eq_of_lt (by omega)]
      omega

/-- A shared cursor reaches every position of its ring exactly when its residue class comes to the end of the ring. -/
theorem Shared.reaches_iff (h : Shared v r s cursor) (hs : 0 < s) (hr : 0 < r) {n : Nat} (hn : v + r ≤ n) :
    (∀ e < r, ∃ k < n, ∃ j < min s r, (cursor k % r + j) % r = e) ↔ r ≤ greatest v s (cursor 0) + s := by
  constructor
  · intro hall
    by_contra hshort
    obtain ⟨k, -, j, hj, heq⟩ := hall (r - 1) (by omega)
    have hle := le_greatest (h.lt k) (h.class_of_short (by omega) k)
    rw [Nat.mod_eq_of_lt (by omega : cursor k < r), Nat.mod_eq_of_lt (by omega)] at heq
    omega
  · intro hreach e he
    rcases Nat.lt_or_ge s r with hsr | hlong
    · rcases Nat.lt_or_ge v r with hvr | hrv
      · obtain ⟨k, hk, hend⟩ : ∃ k < v, r ≤ cursor k + s := by
          by_contra hnone
          obtain ⟨k, hk, heq⟩ := reaches_greatest s h.start
          have hshort : ∀ i < v, cursor i + s < r := by
            intro i hi
            by_contra hlong
            exact hnone ⟨i, hi, by omega⟩
          have hturns := h.turns_short k fun i hi => hshort i (by omega)
          have hgreatest := hshort k hk
          omega
        obtain ⟨i, hi, hwindow⟩ := h.reaches_after_end hs hsr hvr hend he
        exact ⟨k + i, by omega, by rwa [Nat.min_eq_left hsr.le]⟩
      · have hpos : ∀ k, cursor (k + 1) % r = (cursor k % r + min s r) % r := by
          intro k
          have hlt : (cursor k % r + min s r) % r < r := Nat.mod_lt _ hr
          rw [h.turn, Nat.mod_eq_of_lt (hlt.trans_le hrv), Nat.mod_mod]
        have hlen : ∀ _ : Nat, 0 < min s r := fun _ => Nat.lt_min.mpr ⟨hs, hr⟩
        obtain ⟨k, hk, hwindow⟩ := @windows_reach r (cursor · % r) (fun _ => min s r) hpos hlen e he
        exact ⟨k, by omega, hwindow⟩
    · obtain ⟨d, hd, hde⟩ := exists_distance he (cursor 0 % r)
      exact ⟨0, by omega, d, by rwa [Nat.min_eq_right hlong], hde⟩

end shared
end DynvarSync.Lib.Rotation
