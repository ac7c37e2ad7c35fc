import Mathlib.Data.ZMod.Basic
import Mathlib.Tactic.LinearCombination
import Mathlib.Tactic.Ring
import Rialto.Lib.Word

/-! # Machine words as residues

The operators of `uint32_t` are those of the ring of residues modulo `2 ^ 32`. An equation between
words that holds whatever overflows is an equation of residues (`eq_of_residue`), and those are
closed by `linear_combination`. -/

namespace Rialto.Lib.WordRing

open Rialto.Lib.Word

@[simp] theorem residue_add32 (a b : ℕ) : ((add32 a b : ℕ) : ZMod w32) = a + b := by
  unfold add32
  rw [ZMod.natCast_mod, Nat.cast_add]

@[simp] theorem residue_sub32 (a b : ℕ) : ((sub32 a b : ℕ) : ZMod w32) = a - b := by
  have hle : b % w32 ≤ w32 := Nat.le_of_lt (Nat.mod_lt _ (by decide))
  unfold sub32
  rw [ZMod.natCast_mod, Nat.cast_add, Nat.cast_sub hle, ZMod.natCast_self, ZMod.natCast_mod]
  ring

theorem add32_lt (a b : ℕ) : add32 a b < w32 := Nat.mod_lt _ (by decide)

theorem sub32_lt (a b : ℕ) : sub32 a b < w32 := Nat.mod_lt _ (by decide)

theorem mul32_lt (a b : ℕ) : mul32 a b < w32 := Nat.mod_lt _ (by decide)

/-- Words that are the same residue are the same. -/
theorem eq_of_residue {a b : ℕ} (ha : a < w32) (hb : b < w32) (h : (a : ZMod w32) = b) : a = b := by
  have hmod := (ZMod.natCast_eq_natCast_iff' a b w32).mp h
  rwa [Nat.mod_eq_of_lt ha, Nat.mod_eq_of_lt hb] at hmod

theorem residue_iff {a b : ℕ} (ha : a < w32) (hb : b < w32) : (a : ZMod w32) = b ↔ a = b :=
  ⟨eq_of_residue ha hb, fun h => by rw [h]⟩

end Rialto.Lib.WordRing
