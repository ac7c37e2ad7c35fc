import Mathlib.Algebra.Group.Nat.Defs
import Mathlib.Tactic.Common

/-! # Little-endian numbers

`leBytes n v` are the low `n` bytes of `v`, least significant first, and `leValue` is the number
that bytes in this order spell; `leValue_leBytes` says that the first is read back by the second, up
to what fits. -/

namespace Rialto.Lib.Endian

/-- The low `n` bytes of a number, least significant first. -/
def leBytes : ℕ → ℕ → List UInt8
  | 0, _ => []
  | n + 1, v => UInt8.ofNat (v % 256) :: leBytes n (v / 256)

/-- The number that bytes spell, least significant first. -/
def leValue : List UInt8 → ℕ
  | [] => 0
  | b :: bs => b.toNat + 256 * leValue bs

@[simp] theorem length_leBytes (n v : ℕ) : (leBytes n v).length = n := by
  induction n generalizing v with
  | zero => rfl
  | succ n ih => simp [leBytes, ih]

theorem leValue_leBytes (n v : ℕ) : leValue (leBytes n v) = v % 256 ^ n := by
  induction n generalizing v with
  | zero => simp [leBytes, leValue, Nat.mod_one]
  | succ n ih =>
    have hbyte : (UInt8.ofNat (v % 256)).toNat = v % 256 := by simp
    rw [leBytes, leValue, ih, hbyte, Nat.pow_succ, Nat.mul_comm (256 ^ n) 256, Nat.mod_mul]

theorem leValue_leBytes_of_lt {n v : ℕ} (h : v < 256 ^ n) : leValue (leBytes n v) = v := by
  rw [leValue_leBytes, Nat.mod_eq_of_lt h]

end Rialto.Lib.Endian
