import Mathlib.Data.List.Induction
import Mathlib.Tactic.Common
import Mathlib.Tactic.SplitIfs

/-! # Runs of a guarded step function

A system is a partial step function `step : σ → α → Option σ`; `step s a = none` says that the
action `a` cannot be taken in `s`. A run takes the actions of a list one after the other, every step
meeting a side condition `ok : σ → α → Prop` on the state before it (`fun _ _ => True` for none).

* `Run.invariant`: what every step keeps, every run keeps.
* `Run.append`, `Run.split`: runs compose and can be cut at any point, so a statement about the end
  of every run is a statement about every state a run goes through.
* `Run.history`: the same for a property that also looks at the actions taken.
* `Run.unique`: the actions of a run determine where it ends.
* `Occurs`, `Occurs.rest`, `Run.occurs_ok`, `Occurs.compare`: the places in a run where an action
  is taken.
* `Run.always_iff`: a property that is kept by exactly the steps that meet a condition.
* `Run.mono`: a run under a stronger condition is a run under a weaker one.
* `runs`, `Run.of_runs`, `Run.exists_of_runs`: the executable form, used to exhibit concrete
  runs. -/

namespace Rialto.Lib.Runs

variable {σ α : Type*}

/-- A run from the first state to the second, every step meeting the condition `ok`. -/
inductive Run (step : σ → α → Option σ) (ok : σ → α → Prop) : σ → List α → σ → Prop
  | nil (s : σ) : Run step ok s [] s
  | cons {s s' t : σ} {a : α} {as : List α} (hok : ok s a) (hstep : step s a = some s')
      (rest : Run step ok s' as t) : Run step ok s (a :: as) t

variable {step : σ → α → Option σ} {ok : σ → α → Prop}

/-- **The invariant rule.** -/
theorem Run.invariant (inv : σ → Prop)
    (hinv : ∀ s a s', inv s → ok s a → step s a = some s' → inv s') {s t : σ} {as : List α}
    (h : Run step ok s as t) (hs : inv s) : inv t := by
  induction h with
  | nil s => exact hs
  | cons hok hstep _ ih => exact ih (hinv _ _ _ hs hok hstep)

theorem Run.append {s t u : σ} {as bs : List α} (h : Run step ok s as t)
    (h' : Run step ok t bs u) : Run step ok s (as ++ bs) u := by
  induction h with
  | nil s => exact h'
  | cons hok hstep _ ih => exact Run.cons hok hstep (ih h')

/-- A run can be cut at any point. -/
theorem Run.split {s u : σ} : ∀ {as bs : List α}, Run step ok s (as ++ bs) u →
    ∃ t, Run step ok s as t ∧ Run step ok t bs u := by
  intro as
  induction as generalizing s with
  | nil => exact fun h => ⟨s, Run.nil s, h⟩
  | cons a as ih =>
    intro bs h
    cases h with
    | cons hok hstep rest =>
      obtain ⟨t, h1, h2⟩ := ih rest
      exact ⟨t, Run.cons hok hstep h1, h2⟩

theorem Run.mono {ok' : σ → α → Prop} (hok : ∀ s a, ok s a → ok' s a) {s t : σ} {as : List α}
    (h : Run step ok s as t) : Run step ok' s as t := by
  induction h with
  | nil s => exact Run.nil s
  | cons h hstep _ ih => exact Run.cons (hok _ _ h) hstep ih

/-- The last step of a run. -/
theorem Run.snoc_inv {s u : σ} {as : List α} {a : α} (h : Run step ok s (as ++ [a]) u) :
    ∃ t, Run step ok s as t ∧ ok t a ∧ step t a = some u := by
  obtain ⟨t, h1, h2⟩ := h.split
  cases h2 with
  | cons hok hstep rest =>
    cases rest
    exact ⟨t, h1, hok, hstep⟩

/-- Induction along a run, for a property of the actions taken so far and of the state reached. -/
theorem Run.history {s : σ} {P : List α → σ → Prop} (hnil : P [] s)
    (hsnoc : ∀ as t a u, Run step ok s as t → P as t → ok t a → step t a = some u →
      P (as ++ [a]) u) : ∀ {as : List α} {t : σ}, Run step ok s as t → P as t := by
  intro as
  induction as using List.reverseRecOn with
  | nil =>
    intro t h
    cases h
    exact hnil
  | append_singleton as a ih =>
    intro t h
    obtain ⟨t', h', hok, hstep⟩ := h.snoc_inv
    exact hsnoc as t' a t h' (ih h') hok hstep

/-- The actions determine the state reached. -/
theorem Run.unique {s t : σ} {as : List α} (h : Run step ok s as t) :
    ∀ {u : σ}, Run step ok s as u → t = u := by
  induction h with
  | nil s =>
    intro u h
    cases h
    rfl
  | cons hok hstep rest ih =>
    intro u h
    cases h with
    | cons _ hstep' rest' =>
      rw [hstep] at hstep'
      cases hstep'
      exact ih rest'

/-! ## Where an action is taken -/

/-- The action `a` is taken in the state `t` on the way along `as` from `s`. -/
def Occurs (step : σ → α → Option σ) (ok : σ → α → Prop) (s : σ) (as : List α) (a : α) (t : σ) :
    Prop :=
  ∃ pre post, as = pre ++ a :: post ∧ Run step ok s pre t

theorem Occurs.snoc {s t : σ} {as : List α} {a : α} (h : Occurs step ok s as a t) (b : α) :
    Occurs step ok s (as ++ [b]) a t := by
  obtain ⟨pre, post, rfl, hrun⟩ := h
  exact ⟨pre, post ++ [b], by simp, hrun⟩

theorem Occurs.last {s t : σ} {as : List α} (h : Run step ok s as t) (a : α) :
    Occurs step ok s (as ++ [a]) a t :=
  ⟨as, [], rfl, h⟩

theorem Occurs.mem {s t : σ} {as : List α} {a : α} (h : Occurs step ok s as a t) : a ∈ as := by
  obtain ⟨pre, post, rfl, -⟩ := h
  simp

/-- An occurrence in a longer run is one in the shorter run, or the last step. -/
theorem Occurs.snoc_cases {s t : σ} {as : List α} {a b : α}
    (h : Occurs step ok s (as ++ [b]) a t) :
    Occurs step ok s as a t ∨ a = b ∧ Run step ok s as t := by
  obtain ⟨pre, post, heq, hrun⟩ := h
  rcases List.eq_nil_or_concat post with rfl | ⟨post, c, rfl⟩
  · obtain ⟨rfl, hb⟩ := List.append_inj' heq rfl
    cases hb
    exact Or.inr ⟨rfl, hrun⟩
  · rw [List.concat_eq_append, ← List.cons_append, ← List.append_assoc] at heq
    obtain ⟨rfl, -⟩ := List.append_inj' heq rfl
    exact Or.inl ⟨pre, post, rfl, hrun⟩

theorem Occurs.cons_cases {s t : σ} {as : List α} {a b : α} (h : Occurs step ok s (b :: as) a t) :
    a = b ∧ t = s ∨ ∃ s', step s b = some s' ∧ Occurs step ok s' as a t := by
  obtain ⟨pre, post, heq, hrun⟩ := h
  cases hrun with
  | nil =>
    cases heq
    exact Or.inl ⟨rfl, rfl⟩
  | cons hok hstep rest =>
    cases heq
    exact Or.inr ⟨_, hstep, _, post, rfl, rest⟩

/-- The run goes on from where the action was taken. -/
theorem Occurs.rest {s t u : σ} {as : List α} {a : α} (h : Occurs step ok s as a t)
    (hrun : Run step ok s as u) : ∃ t' bs, ok t a ∧ step t a = some t' ∧ Run step ok t' bs u := by
  obtain ⟨pre, post, rfl, hpre⟩ := h
  obtain ⟨t1, h1, h2⟩ := hrun.split
  cases hpre.unique h1
  cases h2 with
  | cons hok hstep rest => exact ⟨_, post, hok, hstep, rest⟩

/-- Every step of a run meets its condition. -/
theorem Run.occurs_ok {ok' : σ → α → Prop} {s t u : σ} {as : List α} {a : α}
    (hrun : Run step ok s as u) (h : Occurs step ok' s as a t) : ok t a := by
  obtain ⟨pre, post, rfl, hpre⟩ := h
  obtain ⟨t', h1, h2⟩ := hrun.split
  have ht : t = t' := by
    have hpre' : Run step (fun _ _ => True) s pre t := hpre.mono fun _ _ _ => trivial
    exact hpre'.unique (h1.mono fun _ _ _ => trivial)
  cases h2 with
  | cons hok _ _ => exact ht ▸ hok

/-- Of two occurrences in one run, one comes first, or they are the same. -/
theorem Occurs.compare {s t t' u : σ} {as : List α} {a a' : α} (hrun : Run step ok s as u)
    (h : Occurs step ok s as a t) (h' : Occurs step ok s as a' t') :
    a = a' ∧ t = t' ∨ (∃ t₁ bs, step t a = some t₁ ∧ Run step ok t₁ bs t') ∨
      ∃ t₁ bs, step t' a' = some t₁ ∧ Run step ok t₁ bs t := by
  obtain ⟨pre, post, rfl, hpre⟩ := h
  obtain ⟨pre', post', heq, hpre'⟩ := h'
  have later : ∀ {x y : List α} {b b' : α} {z z' : List α} {v v' : σ}, x ++ b :: z = y ++ b' :: z' →
      x.length < y.length → Run step ok s x v → Run step ok s y v' →
      ∃ t₁ bs, step v b = some t₁ ∧ Run step ok t₁ bs v' := by
    intro x y b b' z z' v v' hxy hlt hx hy
    obtain ⟨w, rfl⟩ : x <+: y :=
      List.prefix_of_prefix_length_le ⟨_, hxy⟩ ⟨_, rfl⟩ (Nat.le_of_lt hlt)
    cases w with
    | nil => simp at hlt
    | cons b₁ w =>
      simp only [List.append_assoc, List.cons_append, List.append_cancel_left_eq,
        List.cons.injEq] at hxy
      obtain ⟨rfl, -⟩ := hxy
      obtain ⟨v₁, hx', hw⟩ := hy.split
      cases hx.unique hx'
      cases hw with
      | cons _ hstep rest => exact ⟨_, w, hstep, rest⟩
  rcases Nat.lt_trichotomy pre.length pre'.length with hlt | hlen | hlt
  · exact Or.inr (Or.inl (later heq hlt hpre hpre'))
  · obtain ⟨rfl, hcons⟩ := List.append_inj heq hlen
    exact Or.inl ⟨(List.cons.inj hcons).1, hpre.unique hpre'⟩
  · exact Or.inr (Or.inr (later heq.symm hlt hpre' hpre))

/-- Where a condition on each step decides whether a property is kept, and keeps an invariant with
it, the property holds all along a run exactly when every step meets the condition. -/
theorem Run.always_iff_of_kept {s u : σ} {as : List α} (inv P : σ → Prop) (good : σ → α → Prop)
    (hinv : inv s) (hs : P s)
    (hstep : ∀ t a t', inv t → P t → step t a = some t' →
      (P t' ↔ good t a) ∧ (P t' → inv t'))
    (hrun : Run step ok s as u) :
    (∀ pre post t, as = pre ++ post → Run step ok s pre t → P t) ↔
      ∀ a t, Occurs step ok s as a t → good t a := by
  constructor
  · intro h
    have hinvs : ∀ pre post t, as = pre ++ post → Run step ok s pre t → inv t := by
      intro pre
      induction pre using List.reverseRecOn with
      | nil =>
        intro post t _ hpre
        cases hpre
        exact hinv
      | append_singleton pre a ih =>
        intro post t heq hpre
        obtain ⟨t₁, hpre₁, hok, ha⟩ := hpre.snoc_inv
        have heq' : as = pre ++ a :: post := by rw [heq, List.append_assoc, List.singleton_append]
        have ht : P t := h _ post t heq hpre
        exact (hstep t₁ a t (ih _ t₁ heq' hpre₁) (h _ _ t₁ heq' hpre₁) ha).2 ht
    rintro a t ⟨pre, post, rfl, hpre⟩
    obtain ⟨t₁, hpre₁, hrest⟩ := hrun.split
    cases hpre.unique hpre₁
    have ht : P t := h pre (a :: post) t rfl hpre
    cases hrest with
    | cons hok ha rest =>
      refine (hstep t a _ (hinvs pre _ t rfl hpre) ht ha).1.mp (h (pre ++ [a]) post _ (by simp) ?_)
      exact hpre.append (Run.cons hok ha (Run.nil _))
  · intro h pre
    suffices hboth : ∀ post t, as = pre ++ post → Run step ok s pre t → inv t ∧ P t from
      fun post t heq hpre => (hboth post t heq hpre).2
    induction pre using List.reverseRecOn with
    | nil =>
      intro post t _ hpre
      cases hpre
      exact ⟨hinv, hs⟩
    | append_singleton pre a ih =>
      intro post t heq hpre
      obtain ⟨t₁, hpre₁, hok, ha⟩ := hpre.snoc_inv
      have heq' : as = pre ++ a :: post := by rw [heq, List.append_assoc, List.singleton_append]
      obtain ⟨hinv₁, ht₁⟩ := ih _ t₁ heq' hpre₁
      obtain ⟨hiff, hkeep⟩ := hstep t₁ a t hinv₁ ht₁ ha
      have ht : P t := hiff.mpr (h a t₁ ⟨pre, post, heq', hpre₁⟩)
      exact ⟨hkeep ht, ht⟩

/-- Where, under an invariant, a condition on each step decides whether a property is kept, the
property holds all along a run exactly when every step meets the condition. -/
theorem Run.always_iff {s u : σ} {as : List α} (inv P : σ → Prop) (good : σ → α → Prop)
    (hinv : inv s) (hkeep : ∀ t a t', inv t → step t a = some t' → inv t') (hs : P s)
    (hstep : ∀ t a t', inv t → P t → step t a = some t' → (P t' ↔ good t a))
    (hrun : Run step ok s as u) :
    (∀ pre post t, as = pre ++ post → Run step ok s pre t → P t) ↔
      ∀ a t, Occurs step ok s as a t → good t a :=
  hrun.always_iff_of_kept inv P good hinv hs fun t a t' ht hP ha =>
    ⟨hstep t a t' ht hP ha, fun _ => hkeep t a t' ht ha⟩

/-- The executable form of a run. -/
def runs (step : σ → α → Option σ) : σ → List α → Option σ
  | s, [] => some s
  | s, a :: as => (step s a).bind fun s' => runs step s' as

/-- Running with the side condition checked on the way. -/
def runsIf (step : σ → α → Option σ) (ok : σ → α → Prop) [∀ s a, Decidable (ok s a)] :
    σ → List α → Option σ
  | s, [] => some s
  | s, a :: as => if ok s a then (step s a).bind fun s' => runsIf step ok s' as else none

theorem Run.of_runsIf [∀ s a, Decidable (ok s a)] : ∀ {as : List α} {s t : σ},
    runsIf step ok s as = some t → Run step ok s as t
  | [], s, t, h => by
    cases h
    exact Run.nil s
  | a :: as, s, t, h => by
    unfold runsIf at h
    split_ifs at h with hok
    obtain ⟨s', hs', h'⟩ := Option.bind_eq_some_iff.mp h
    exact Run.cons hok hs' (Run.of_runsIf h')

theorem Run.of_runs : ∀ {as : List α} {s t : σ},
    runs step s as = some t → Run step (fun _ _ => True) s as t
  | [], s, t, h => by
    cases h
    exact Run.nil s
  | a :: as, s, t, h => by
    obtain ⟨s', hs', h'⟩ := Option.bind_eq_some_iff.mp h
    exact Run.cons trivial hs' (Run.of_runs h')

/-- A fixed run exists when running it ends in a state of which `f` shows `b`; what else holds at
its end may use both. -/
theorem Run.exists_of_runsIf [∀ s a, Decidable (ok s a)] {β : Type*} {Q : σ → Prop} {s : σ}
    {as : List α} (f : σ → β) (b : β) (h : (runsIf step ok s as).map f = some b)
    (hq : ∀ t, Run step ok s as t → f t = b → Q t) : ∃ t, Run step ok s as t ∧ Q t := by
  obtain ⟨t, ht, hb⟩ := Option.map_eq_some_iff.mp h
  exact ⟨t, Run.of_runsIf ht, hq t (Run.of_runsIf ht) hb⟩

theorem Run.exists_of_runs {β : Type*} {Q : σ → Prop} {s : σ} {as : List α} (f : σ → β) (b : β)
    (h : (runs step s as).map f = some b)
    (hq : ∀ t, Run step (fun _ _ => True) s as t → f t = b → Q t) :
    ∃ t, Run step (fun _ _ => True) s as t ∧ Q t := by
  obtain ⟨t, ht, hb⟩ := Option.map_eq_some_iff.mp h
  exact ⟨t, Run.of_runs ht, hq t (Run.of_runs ht) hb⟩

end Rialto.Lib.Runs
