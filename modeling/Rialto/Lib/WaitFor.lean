import Mathlib.Logic.Relation
import Mathlib.Order.WellFounded

/-! # Wait-for graphs

A thread waits for at most one other thread, so the graph is a partial function. There is a circular
wait when a thread is reached from itself.

* `Circular`: a circular wait;
* `Released`, `Released.of_none`, `Released.of_some`: the threads from which the chain of waits
  ends;
* `not_circular_of_released`: if that holds of all threads, there is no circular wait. -/

namespace Rialto.Lib.WaitFor

variable {T : Type*} {waits : T → Option T} {t u : T}

/-- A thread waits for itself, directly or through others. -/
def Circular (waits : T → Option T) : Prop :=
  ∃ t, Relation.TransGen (fun a b => waits a = some b) t t

/-- The chain of waits that begins at the thread comes to an end. -/
def Released (waits : T → Option T) (t : T) : Prop := Acc (fun b a => waits a = some b) t

theorem Released.of_none (h : waits t = none) : Released waits t := by
  refine Acc.intro t fun u hu => ?_
  rw [h] at hu
  cases hu

theorem Released.of_some (h : waits t = some u) (hu : Released waits u) : Released waits t := by
  refine Acc.intro t fun v hv => ?_
  rw [h] at hv
  cases hv
  exact hu

/-- A thread is released when whatever it may wait for is. -/
theorem Released.of_forall (h : ∀ u, waits t = some u → Released waits u) : Released waits t := by
  cases ht : waits t with
  | none => exact .of_none ht
  | some u => exact .of_some ht (h u ht)

/-- **If every chain of waits ends, there is no circular wait.** -/
theorem not_circular_of_released (h : ∀ t, Released waits t) : ¬Circular waits := by
  rintro ⟨t, ht⟩
  have hwf : WellFounded (Relation.TransGen fun b a => waits a = some b) :=
    WellFounded.transGen ⟨h⟩
  exact hwf.irrefl.irrefl t (Relation.transGen_swap.mpr ht)

/-- Two threads that wait for each other. -/
theorem circular_of_pair (h : waits t = some u) (h' : waits u = some t) : Circular waits :=
  ⟨t, .tail (.single h) h'⟩

end Rialto.Lib.WaitFor
