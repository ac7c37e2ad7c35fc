import Rialto.Lib.WaitFor
import Rialto.Server.Acts

/-! # An orderly server

Every thread waits for the main thread, so the main thread must not wait for what waits for it.

* `Lawful`, `Orderly`: what holds of a thread, and of the server;
* `released_of_orderly`: in an orderly server every chain of waits ends;
* `Lawful.pop`, `Lawful.lock`, `Lawful.lookup`: a thread stays lawful when it executes an act. -/

namespace Rialto.Server.Waits

open Rialto.Lib.WaitFor Rialto.Server.Threads Rialto.Server.Acts

variable {c c' : State} {t u : Thread} {act : Act} {rest : List Act} {mediaKeys : List ℕ}
  {held : Bool}

/-! ## The invariant -/

/-- What holds of the acts of a thread: the main thread is quiet, the worker and the streaming
thread are modest, the IPC thread does nothing after a demanding task, and only the IPC thread waits
for the main thread with the mutex held when there are no media keys. -/
structure Lawful (mediaKeys : List ℕ) (held : Bool) (t : Thread) (acts : List Act)
    (status : Status) : Prop where
  balanced : balanced held acts = true
  joining : status = .joining → held = false ∧ (t = .main ∨ t = .ipc)
  modest : t = .worker ∨ t = .streaming → ∀ a ∈ acts, modest a = true
  main : t = .main → (∀ a ∈ acts, quiet mediaKeys a = true) ∧ status ≠ .awaiting
  single : t = .ipc → ∀ a ∈ acts, demanding a = true → acts = [a]
  holding : t ≠ .ipc → held = true → mediaKeys = [] →
    status ≠ .awaiting ∧ waitsLocked acts = false

/-- The thread holds the mutex. -/
def holds (c : State) (t : Thread) : Bool := decide (c.holder = some t)

theorem holds_of_eq (h : c.holder = some t) : holds c t = true := decide_eq_true h

theorem holds_congr (h : c'.holder = some t ↔ c.holder = some t) : holds c' t = holds c t :=
  decide_eq_decide.mpr h

/-- The tasks of the main thread, with the one that it executes. -/
def entries (c : State) : List Entry := c.current.toList ++ c.mainQueue

/-- The worker has stopped, or what it has to execute before it stops is quiet. -/
def QuietWorker (c : State) : Prop :=
  c.stopped = true ∨ c.status .worker ≠ .awaiting ∧
    (∀ a ∈ c.acts .worker, quiet c.mediaKeys a = true) ∧
    ∃ before after, c.workerQueue = before ++ .shutdown :: after ∧
      ∀ task ∈ before, ∀ a ∈ task.acts, quiet c.mediaKeys a = true

/-- The invariant: the IPC thread waits while the main thread has a task that may block, there is
one task for every thread that waits, and a worker that the main thread joins is quiet. -/
structure Orderly (c : State) : Prop where
  lawful : ∀ t, Lawful c.mediaKeys (holds c t) t (c.acts t) (c.status t)
  served : ∀ e ∈ entries c, e.task ≠ .plain → e.waiter = some .ipc ∧ c.acts .ipc = []
  busy : c.acts .main ≠ [] ∨ c.status .main = .joining → ∃ e, c.current = some e ∧ e.task ≠ .plain
  tickets : ∀ t, (entries c).countP (fun e => e.waiter = some t) =
    if c.status t = .awaiting then 1 else 0
  joins : c.status .main = .joining → QuietWorker c

theorem lawful_nil (mediaKeys : List ℕ) (t : Thread) : Lawful mediaKeys false t [] .running := by
  constructor <;> simp [balanced]

theorem orderly_init : Orderly init := by
  constructor
  · intro t
    exact lawful_nil [] t
  · intro e he
    cases he
  · rintro (h | h)
    · exact absurd rfl h
    · cases h
  · intro t
    rfl
  · intro h
    cases h

/-! ## Chains of waits -/

/-- The thread that holds the mutex waits for the main thread, if for any. -/
theorem waitsFor_holder (h : Orderly c) (ht : c.holder = some t) (hu : waitsFor c t = some u) :
    u = .main ∧ c.status t = .awaiting := by
  have hl := h.lawful t
  rw [holds_of_eq ht] at hl
  unfold waitsFor at hu
  rcases hs : c.status t with _ | _ | _
  · rw [hs] at hu
    rcases ha : c.acts t with _ | ⟨act, rest⟩
    · rw [ha] at hu
      cases hu
    · rw [ha] at hu hl
      cases act <;> first | cases hu | skip
      have := hl.balanced
      simp [balanced] at this
  · rw [hs] at hu
    cases hu
    exact ⟨rfl, rfl⟩
  · have := (hl.joining hs).1
    cases this

/-- When the main thread may block, the IPC thread waits for it without the mutex. -/
theorem ipc_of_busy (h : Orderly c) (hb : c.acts .main ≠ [] ∨ c.status .main = .joining) :
    c.acts .ipc = [] ∧ c.status .ipc = .awaiting ∧ c.holder ≠ some .ipc := by
  obtain ⟨e, hcur, htask⟩ := h.busy hb
  have hmem : e ∈ entries c := by simp [entries, hcur]
  obtain ⟨hwaiter, hnil⟩ := h.served e hmem htask
  refine ⟨hnil, ?_, ?_⟩
  · by_contra hne
    have := h.tickets .ipc
    rw [if_neg hne, List.countP_eq_zero] at this
    exact this e hmem (by simp [hwaiter])
  · intro hold
    have := (h.lawful .ipc).balanced
    rw [holds_of_eq hold, hnil] at this
    cases this

/-- Without media keys a thread that holds the mutex waits for none, unless it is the IPC thread. -/
theorem released_holder (h : Orderly c) (ht : c.holder = some t) (hne : t ≠ .ipc)
    (hk : c.mediaKeys = []) : Released (waitsFor c) t := by
  refine .of_forall fun u hu => ?_
  have hl := h.lawful t
  rw [holds_of_eq ht] at hl
  exact absurd (waitsFor_holder h ht hu).2 (hl.holding hne rfl hk).1

/-- A quiet thread waits at most for one that holds the mutex and waits for none. -/
theorem released_of_quiet (h : Orderly c) (hipc : c.holder ≠ some .ipc)
    (hs : c.status t = .running) (hacts : ∀ a ∈ c.acts t, quiet c.mediaKeys a = true) :
    Released (waitsFor c) t := by
  refine .of_forall fun u hu => ?_
  unfold waitsFor at hu
  rw [hs] at hu
  rcases ha : c.acts t with _ | ⟨act, rest⟩
  · rw [ha] at hu
    cases hu
  · have hquiet := hacts act (by simp [ha])
    rw [ha] at hu
    cases act with
    | lock body =>
      cases body <;> first | cases hquiet | skip
      have hk : c.mediaKeys = [] := of_decide_eq_true hquiet
      have hne : u ≠ .ipc := by
        rintro rfl
        exact hipc hu
      exact released_holder h hu hne hk
    | _ => cases hu

/-- The main thread waits only for threads that wait for none. -/
theorem released_main (h : Orderly c) : Released (waitsFor c) .main := by
  have hmain := (h.lawful .main).main rfl
  rcases hs : c.status .main with _ | _ | _
  · by_cases ha : c.acts .main = []
    · exact .of_none (by simp [waitsFor, hs, ha])
    · exact released_of_quiet h (ipc_of_busy h (Or.inl ha)).2.2 hs hmain.1
  · exact absurd hs hmain.2
  · obtain ⟨-, -, hipc⟩ := ipc_of_busy h (Or.inr hs)
    refine .of_forall fun u hu => ?_
    simp only [waitsFor, hs] at hu
    split_ifs at hu with hstop
    cases hu
    obtain ⟨hw, hacts, -⟩ := (h.joins hs).resolve_left hstop
    rcases hsw : c.status .worker with _ | _ | _
    · exact released_of_quiet h hipc hsw hacts
    · exact absurd hsw hw
    · have := ((h.lawful .worker).joining hsw).2
      simp at this

/-- **Every chain of waits ends.** -/
theorem released_of_orderly (h : Orderly c) (t : Thread) : Released (waitsFor c) t := by
  have hmain := released_main h
  have hholder : ∀ u, c.holder = some u → Released (waitsFor c) u := by
    intro u hu
    refine .of_forall fun v hv => ?_
    rw [(waitsFor_holder h hu hv).1]
    exact hmain
  -- A thread that does not join waits for the main thread or for the one that holds the mutex.
  have hdirect : ∀ u, c.status u ≠ .joining → Released (waitsFor c) u := by
    intro u hne
    refine .of_forall fun v hv => ?_
    unfold waitsFor at hv
    rcases hs : c.status u with _ | _ | _
    · rw [hs] at hv
      rcases ha : c.acts u with _ | ⟨act, rest⟩
      · rw [ha] at hv
        cases hv
      · rw [ha] at hv
        cases act with
        | lock body => exact hholder v hv
        | _ => cases hv
    · rw [hs] at hv
      cases hv
      exact hmain
    · exact absurd hs hne
  by_cases hj : c.status t = .joining
  · refine .of_forall fun v hv => ?_
    unfold waitsFor at hv
    rw [hj] at hv
    dsimp only at hv
    split_ifs at hv
    cases hv
    refine hdirect .worker fun hw => ?_
    have := ((h.lawful .worker).joining hw).2
    simp at this
  · exact hdirect t hj
/-! ## One act -/

/-- A thread that has executed its first act. -/
theorem Lawful.pop (h : Lawful mediaKeys held t (act :: rest) .running) {mediaKeys' : List ℕ}
    {held' : Bool} {status : Status} (hb : Acts.balanced held' rest = true)
    (hj : status = .joining → held' = false ∧ (t = .main ∨ t = .ipc))
    (hmain : t = .main → mediaKeys' = mediaKeys ∧ status ≠ .awaiting)
    (hhold : t ≠ .ipc → held' = true → mediaKeys' = [] →
      status ≠ .awaiting ∧ waitsLocked rest = false) :
    Lawful mediaKeys' held' t rest status := by
  refine ⟨hb, hj, fun ht a ha => h.modest ht a (List.mem_cons_of_mem _ ha), fun ht => ?_,
    fun ht a ha hd => ?_, hhold⟩
  · obtain ⟨hk, hst⟩ := hmain ht
    rw [hk]
    exact ⟨fun a ha => (h.main ht).1 a (List.mem_cons_of_mem _ ha), hst⟩
  · have := h.single ht a (List.mem_cons_of_mem _ ha) hd
    cases this
    cases ha

/-- A thread that goes on. -/
theorem Lawful.resume {status : Status} (h : Lawful mediaKeys held t rest status) :
    Lawful mediaKeys held t rest .running :=
  ⟨h.balanced, by simp, h.modest, fun hm => ⟨(h.main hm).1, by simp⟩, h.single,
    fun hti hh hk => ⟨by simp, (h.holding hti hh hk).2⟩⟩

/-- The threads other than the IPC thread take the mutex only to look for a session. -/
theorem Lawful.lookup_of_lock {body : Locked}
    (h : Lawful mediaKeys held t (.lock body :: rest) .running) (ht : t ≠ .ipc) :
    ∃ more, body = .lookup more := by
  cases t with
  | ipc => exact absurd rfl ht
  | main =>
    have := (h.main rfl).1 _ List.mem_cons_self
    cases body <;> first | exact ⟨_, rfl⟩ | cases this
  | worker =>
    have := h.modest (Or.inl rfl) _ List.mem_cons_self
    cases body <;> first | exact ⟨_, rfl⟩ | cases this
  | streaming =>
    have := h.modest (Or.inr rfl) _ List.mem_cons_self
    cases body <;> first | exact ⟨_, rfl⟩ | cases this

theorem not_demanding_of_inner (h : inner act = true) : demanding act = false := by
  cases act with
  | enqueueTaskAndWait task => cases task <;> first | rfl | cases h
  | _ => rfl

theorem Lawful.lock {body : Locked} (h : Lawful mediaKeys held t (.lock body :: rest) .running) :
    Lawful mediaKeys true t (body.acts mediaKeys ++ .unlock :: rest) .running := by
  have hmem : ∀ a ∈ body.acts mediaKeys ++ .unlock :: rest,
      a ∈ body.acts mediaKeys ∨ a = .unlock ∨ a ∈ rest := by
    intro a ha
    simpa using ha
  refine ⟨?_, by simp, fun ht a ha => ?_, fun ht => ⟨fun a ha => ?_, by simp⟩, fun ht a ha hd => ?_,
    fun ht _ hk => ⟨by simp, ?_⟩⟩
  · rw [balanced_inner fun a ha => inner_of_locked ha]
    have := h.balanced
    simp only [Acts.balanced, Bool.and_eq_true] at this
    exact this.2
  · obtain ⟨more, rfl⟩ := h.lookup_of_lock (by rcases ht with rfl | rfl <;> simp)
    rcases hmem a ha with ha | rfl | ha
    · rw [(inner_of_hasSessions ha).1]
      rfl
    · rfl
    · exact h.modest ht a (List.mem_cons_of_mem _ ha)
  · obtain ⟨more, rfl⟩ := h.lookup_of_lock (by simp [ht])
    have hk : mediaKeys = [] := of_decide_eq_true ((h.main ht).1 _ List.mem_cons_self)
    rcases hmem a ha with ha | rfl | ha
    · exact absurd hk (inner_of_hasSessions ha).2
    · rfl
    · exact (h.main ht).1 a (List.mem_cons_of_mem _ ha)
  · rcases hmem a ha with ha | rfl | ha
    · rw [not_demanding_of_inner (inner_of_locked ha)] at hd
      cases hd
    · cases hd
    · have := h.single ht a (List.mem_cons_of_mem _ ha) hd
      cases this
      cases ha
  · obtain ⟨more, rfl⟩ := h.lookup_of_lock ht
    rw [hk]
    rfl

theorem waitsLocked_hasSessions {more : ℕ} (h : mediaKeys = []) :
    waitsLocked (hasSessions mediaKeys more ++ rest) = waitsLocked rest := by
  simp [hasSessions, h]

theorem Lawful.lookup {more : ℕ} (h : Lawful mediaKeys held t (.lookup more :: rest) .running) :
    Lawful mediaKeys held t (hasSessions mediaKeys more ++ rest) .running := by
  refine ⟨?_, by simp, fun ht a ha => ?_, fun ht => ⟨fun a ha => ?_, by simp⟩, fun ht a ha hd => ?_,
    fun ht hheld hk => ⟨by simp, ?_⟩⟩
  · rw [balanced_append_waits]
    exact h.balanced
  · rcases List.mem_append.mp ha with ha | ha
    · rw [(inner_of_hasSessions ha).1]
      rfl
    · exact h.modest ht a (List.mem_cons_of_mem _ ha)
  · have hk : mediaKeys = [] := of_decide_eq_true ((h.main ht).1 _ List.mem_cons_self)
    rcases List.mem_append.mp ha with ha | ha
    · exact absurd hk (inner_of_hasSessions ha).2
    · exact (h.main ht).1 a (List.mem_cons_of_mem _ ha)
  · rcases List.mem_append.mp ha with ha | ha
    · rw [(inner_of_hasSessions ha).1] at hd
      cases hd
    · have := h.single ht a (List.mem_cons_of_mem _ ha) hd
      cases this
      cases ha
  · rw [waitsLocked_hasSessions hk]
    exact (h.holding ht hheld hk).2

/-- An act that neither the main thread nor the worker nor the streaming thread has is the IPC
thread's. -/
theorem Lawful.ipc_of_act (h : Lawful mediaKeys held t (act :: rest) .running)
    (hno : ∀ k, Acts.modest act = false ∧ quiet k act = false) : t = .ipc := by
  cases t with
  | main =>
    have := (h.main rfl).1 act List.mem_cons_self
    rw [(hno _).2] at this
    cases this
  | ipc => rfl
  | worker =>
    have := h.modest (Or.inl rfl) act List.mem_cons_self
    rw [(hno []).1] at this
    cases this
  | streaming =>
    have := h.modest (Or.inr rfl) act List.mem_cons_self
    rw [(hno []).1] at this
    cases this

end Rialto.Server.Waits
