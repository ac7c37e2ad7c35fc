import Mathlib.Algebra.Group.Nat.Defs
import Mathlib.Tactic.Common

/-! # Unsigned machine words as natural numbers

The operators of `uint32_t` on representatives below `2 ^ 32`: the result is taken modulo `2 ^ 32`.
Each comes with the equation that removes the reduction when nothing overflows; `simp` with
`omega` as its discharger turns wrapping expressions into plain ones. -/

namespace Rialto.Lib.Word

/-- The number of values of a 32-bit word. -/
abbrev w32 : ℕ := 4294967296

def add32 (a b : ℕ) : ℕ := (a + b) % w32

def sub32 (a b : ℕ) : ℕ := (a + (w32 - b % w32)) % w32

def mul32 (a b : ℕ) : ℕ := (a * b) % w32

theorem add32_of_lt {a b : ℕ} (h : a + b < w32) : add32 a b = a + b := Nat.mod_eq_of_lt h

theorem sub32_of_le {a b : ℕ} (h : b ≤ a) (ha : a < w32) : sub32 a b = a - b := by
  unfold sub32
  have hb : b % w32 = b := Nat.mod_eq_of_lt (by omega)
  have : a + (w32 - b) = (a - b) + w32 := by omega
  rw [hb, this, Nat.add_mod_right, Nat.mod_eq_of_lt (by omega)]

theorem mul32_of_lt {a b : ℕ} (h : a * b < w32) : mul32 a b = a * b := Nat.mod_eq_of_lt h

end Rialto.Lib.Word
