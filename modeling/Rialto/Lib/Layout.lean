import Mathlib.Algebra.BigOperators.Group.List.Basic
import Mathlib.Algebra.GroupWithZero.Nat
import Mathlib.Algebra.Order.Group.Nat
import Mathlib.Algebra.Order.BigOperators.Group.List
import Mathlib.Tactic.Common

/-! # Blocks placed one behind the other

Blocks of the sizes `ns` are placed in this order from `0` on: block `k` starts where the first `k`
blocks end.

* `start_add_le`: a block ends before any later one starts.
* `start_add_le_sum`: a block ends within the sum of the sizes. -/

namespace Rialto.Lib.Layout

/-- Where block `k` starts. -/
def start (ns : List ℕ) (k : ℕ) : ℕ := (ns.take k).sum

theorem start_succ {ns : List ℕ} {k : ℕ} (h : k < ns.length) :
    start ns (k + 1) = start ns k + ns[k] :=
  List.sum_take_succ ns k h

theorem start_mono (ns : List ℕ) {i j : ℕ} (h : i ≤ j) : start ns i ≤ start ns j := by
  obtain ⟨d, rfl⟩ := Nat.exists_eq_add_of_le h
  unfold start
  rw [List.take_add, List.sum_append]
  omega

theorem start_le_sum (ns : List ℕ) (k : ℕ) : start ns k ≤ ns.sum := by
  have h : ns.sum = (ns.take k).sum + (ns.drop k).sum := by
    rw [← List.sum_append, List.take_append_drop]
  unfold start
  omega

/-- **Blocks do not overlap.** -/
theorem start_add_le {ns : List ℕ} {i j : ℕ} (hi : i < ns.length) (h : i < j) :
    start ns i + ns[i] ≤ start ns j := by
  have := start_mono ns (Nat.succ_le_of_lt h)
  rwa [Nat.succ_eq_add_one, start_succ hi] at this

theorem start_add_le_sum {ns : List ℕ} {i : ℕ} (hi : i < ns.length) :
    start ns i + ns[i] ≤ ns.sum := by
  have := start_le_sum ns (i + 1)
  rwa [start_succ hi] at this

theorem start_cons_succ (n : ℕ) (ns : List ℕ) (k : ℕ) :
    start (n :: ns) (k + 1) = n + start ns k := by
  simp [start]

theorem start_append_left {ns : List ℕ} (ms : List ℕ) {k : ℕ} (h : k ≤ ns.length) :
    start (ns ++ ms) k = start ns k := by
  unfold start
  rw [List.take_append_of_le_length h]

theorem start_append_right (ns ms : List ℕ) (k : ℕ) :
    start (ns ++ ms) (ns.length + k) = ns.sum + start ms k := by
  unfold start
  rw [List.take_length_add_append, List.sum_append]

end Rialto.Lib.Layout
