import Mathlib.Data.List.Basic
import Mathlib.Tactic.Common

/-! # Two entries of a history

A history grows at its end. That `x` comes before `y` in it is `[x, y] <+ l`, the sublist relation;
`pair_sublist_snoc` says how a new entry can be the later one. -/

namespace Rialto.Lib.History

open scoped List

variable {α : Type*}

theorem pair_sublist_snoc {x y a : α} {l : List α} :
    [x, y] <+ l ++ [a] ↔ [x, y] <+ l ∨ x ∈ l ∧ y = a := by
  constructor
  · intro h
    obtain ⟨l₁, l₂, heq, h1, h2⟩ := List.sublist_append_iff.mp h
    match l₁, heq, h1 with
    | [], heq, _ =>
      have := h2.length_le
      rw [List.nil_append] at heq
      rw [← heq] at this
      simp at this
    | [_], heq, h1 =>
      cases heq
      exact Or.inr ⟨List.singleton_sublist.mp h1, by simpa using h2⟩
    | [_, _], heq, h1 =>
      cases heq
      exact Or.inl h1
    | _ :: _ :: _ :: _, heq, _ => cases heq
  · rintro (h | ⟨h, rfl⟩)
    · exact h.trans (List.sublist_append_left ..)
    · exact (List.singleton_sublist.mpr h).append (List.Sublist.refl _)

theorem mem_left_of_pair {x y : α} {l : List α} (h : [x, y] <+ l) : x ∈ l :=
  h.subset (List.mem_cons_self ..)

end Rialto.Lib.History
