import Mathlib.Data.List.Basic
import Mathlib.Tactic.Common

/-! # A first-in first-out queue with its history

A queue records everything that was ever pushed and popped besides its contents; the field
`conserved` says that nothing was lost, duplicated or reordered. -/

namespace Rialto.Lib.Queue

/-- A queue with its history. -/
structure Fifo (β : Type*) where
  pushed : List β
  popped : List β
  contents : List β
  conserved : popped ++ contents = pushed

namespace Fifo

variable {β : Type*}

/-- The empty queue. -/
def empty : Fifo β := ⟨[], [], [], rfl⟩

/-- Append `bs`. -/
def push (q : Fifo β) (bs : List β) : Fifo β where
  pushed := q.pushed ++ bs
  popped := q.popped
  contents := q.contents ++ bs
  conserved := by rw [← List.append_assoc, q.conserved]

/-- Remove the first `n` elements. -/
def pop (q : Fifo β) (n : ℕ) : Fifo β where
  pushed := q.pushed
  popped := q.popped ++ q.contents.take n
  contents := q.contents.drop n
  conserved := by rw [List.append_assoc, List.take_append_drop, q.conserved]

end Fifo

end Rialto.Lib.Queue
