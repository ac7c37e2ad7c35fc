import Mathlib.Data.List.Perm.Subperm
import Mathlib.Data.List.Nodup
import Mathlib.Data.Int.ModEq
import Mathlib.Tactic.Common
import Mathlib.Tactic.Ring

/-! # Cyclic ranges

`cyc P M s n` lists `n` addresses of the region `[P, P + M)`, starting at the position `s` and going
round at the end of the region. A ring buffer is a pair of adjacent cyclic ranges.

* `cyc_append`: adjacent cyclic ranges are one;
* `cyc_eq_range'`, `cyc_eq_wrap`: a cyclic range is one range, or two when it goes round;
* `cyc_perm`: a full turn is the whole region;
* `cyc_disjoint`: the two parts of at most one turn are disjoint. -/

namespace Rialto.Lib.Cyclic

/-- `n` addresses of `[P, P + M)` from position `s` on. -/
def cyc (P M s n : ℕ) : List ℕ := (List.range n).map fun i => P + (s + i) % M

variable {P M s n : ℕ}

@[simp] theorem length_cyc : (cyc P M s n).length = n := by simp [cyc]

theorem cyc_append (P M s a b : ℕ) : cyc P M s (a + b) = cyc P M s a ++ cyc P M (s + a) b := by
  unfold cyc
  rw [List.range_add, List.map_append, List.map_map]
  congr 1
  refine List.map_congr_left fun i _ => ?_
  simp only [Function.comp_apply]
  rw [Nat.add_assoc]

theorem take_cyc (P M s : ℕ) {a n : ℕ} (h : a ≤ n) : (cyc P M s n).take a = cyc P M s a := by
  obtain ⟨b, rfl⟩ := Nat.exists_eq_add_of_le h
  rw [cyc_append, List.take_append_of_le_length (by simp), List.take_of_length_le (by simp)]

theorem drop_cyc (P M s : ℕ) {a n : ℕ} (h : a ≤ n) :
    (cyc P M s n).drop a = cyc P M (s + a) (n - a) := by
  obtain ⟨b, rfl⟩ := Nat.exists_eq_add_of_le h
  rw [cyc_append, List.drop_append_of_le_length (by simp), List.drop_of_length_le (by simp),
    List.nil_append, Nat.add_sub_cancel_left]

theorem cyc_prefix (P M s : ℕ) {a n : ℕ} (h : a ≤ n) : cyc P M s a <+: cyc P M s n := by
  rw [← take_cyc P M s h]
  exact List.take_prefix _ _

theorem cyc_add_period (P M s n : ℕ) : cyc P M (s + M) n = cyc P M s n := by
  unfold cyc
  refine List.map_congr_left fun i _ => ?_
  rw [show s + M + i = s + i + M by ring, Nat.add_mod_right]

/-- A cyclic range that does not go round. -/
theorem cyc_eq_range' (h : s + n ≤ M) : cyc P M s n = List.range' (P + s) n := by
  refine List.ext_getElem (by simp) fun i h1 h2 => ?_
  simp only [length_cyc] at h1
  simp only [cyc, List.getElem_map, List.getElem_range, List.getElem_range', one_mul]
  rw [Nat.mod_eq_of_lt (by omega), Nat.add_assoc]

/-- A cyclic range that goes round. -/
theorem cyc_eq_wrap (hs : s ≤ M) (h : n ≤ M) (hw : M ≤ s + n) :
    cyc P M s n = List.range' (P + s) (M - s) ++ List.range' P (s + n - M) := by
  have h1 : n = (M - s) + (s + n - M) := by omega
  conv_lhs => rw [h1]
  rw [cyc_append, cyc_eq_range' (by omega), show s + (M - s) = 0 + M by omega, cyc_add_period,
    cyc_eq_range' (by omega), Nat.add_zero]

theorem cyc_nodup (h : n ≤ M) : (cyc P M s n).Nodup := by
  refine List.Nodup.map_on (fun i hi j hj hij => ?_) List.nodup_range
  rw [List.mem_range] at hi hj
  have hM : (s + i) % M = (s + j) % M := by omega
  have hmod : i ≡ j [MOD M] := Nat.ModEq.add_left_cancel' s hM
  exact Nat.ModEq.eq_of_lt_of_lt hmod (by omega) (by omega)

theorem mem_cyc_bounds {a : ℕ} (hM : 0 < M) (h : a ∈ cyc P M s n) : P ≤ a ∧ a < P + M := by
  simp only [cyc, List.mem_map, List.mem_range] at h
  obtain ⟨i, -, rfl⟩ := h
  have := Nat.mod_lt (s + i) hM
  omega

/-- **A full turn is the whole region.** -/
theorem cyc_perm (hM : 0 < M) : (cyc P M s M).Perm (List.range' P M) := by
  refine List.Subperm.perm_of_length_le ?_ (by simp)
  refine (cyc_nodup le_rfl).subperm fun a ha => ?_
  have := mem_cyc_bounds hM ha
  simp only [List.mem_range', one_mul]
  exact ⟨a - P, by omega, by omega⟩

/-- Two adjacent parts of at most one turn are disjoint. -/
theorem cyc_disjoint {a b : ℕ} (h : a + b ≤ M) :
    (cyc P M s a).Disjoint (cyc P M (s + a) b) := by
  have := cyc_nodup (P := P) (s := s) h
  rw [cyc_append] at this
  exact List.disjoint_of_nodup_append this

end Rialto.Lib.Cyclic
