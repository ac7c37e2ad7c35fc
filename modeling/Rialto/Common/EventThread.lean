import Rialto.Lib.Queue
import Rialto.Lib.Runs

/-! # The event thread

`EventThread` runs functions from a queue on a thread of its own. Any thread adds functions, and
may `flush`, which adds a function that posts a semaphore and waits for it. The destructor tells the
thread to stop and joins it; what is in the queue then is not run.

A step is a section under the lock, a function that comes to its end, or a wake-up; the condition
variable may wake the thread at any time. A flush is called by another thread than the event thread,
and nothing is called once the destructor has returned.

* `Inv`: functions are run one after the other in the order in which they were added, no wake-up is
  lost, and a semaphore is posted when everything before it in the queue has been run.
* `flush_is_barrier`: what was added before a flush has been run when the flush returns.
* `popped_of_shutdown`: once the destructor has begun, no function begins.
* `drains`: the event thread alone runs what is in the queue.
* `flush_returns_iff`: a flush that has not returned still can exactly when the destructor has not
  begun, or had not begun when the event thread came to the flush. -/

namespace Rialto.Common.EventThread

open Rialto.Lib.Queue Rialto.Lib.Runs

/-! ## The thread and its queue -/

/-- A function of the queue; an empty `std::function` is `call none`, that of a flush posts the
semaphore with the number of the flush. -/
inductive Func
  | call (id : Option ℕ)
  | post (flush : ℕ)
  deriving DecidableEq, Repr

/-- Where the event thread is: before it takes the lock, on the condition variable, in a function,
and past its end. -/
inductive Thread
  | locking
  | waiting (notified : Bool)
  | running (func : Func)
  | exited
  deriving DecidableEq, Repr

/-- The function that is being run. -/
def Thread.current : Thread → List Func
  | .running func => [func]
  | _ => []

/-- `m_cond.notify_all`. -/
def Thread.notify : Thread → Thread
  | .waiting _ => .waiting true
  | thread => thread

/-- A call of `flush`: where its function is among all that were added, and its semaphore. -/
structure Flush where
  position : ℕ
  posted : Bool
  returned : Bool
  deriving DecidableEq, Repr

inductive Destructor
  | notCalled
  | joining
  | returned
  deriving DecidableEq, Repr

/-- `EventThread`, with the flushes and the functions that have come to their end. -/
structure State where
  funcs : Fifo Func
  shutdown : Bool
  thread : Thread
  flushes : List Flush
  finished : List Func
  destructor : Destructor

def init : State := ⟨Fifo.empty, false, .locking, [], [], .notCalled⟩

/-! ## Steps -/

def addImpl (s : State) (func : Func) : State :=
  { s with funcs := s.funcs.push [func], thread := s.thread.notify }

/-- `flush`, up to the wait. -/
def flush (s : State) : State :=
  addImpl { s with flushes := s.flushes ++ [⟨s.funcs.pushed.length, false, false⟩] }
    (.post s.flushes.length)

/-- `threadExecutor` under the lock: to the end, to the wait, or to the next function. -/
def threadExecutor (s : State) : State :=
  if s.shutdown then { s with thread := .exited }
  else
    match s.funcs.contents with
    | [] => { s with thread := .waiting false }
    | func :: _ => { s with funcs := s.funcs.pop 1, thread := .running func }

/-- What a function has done when it is over. -/
def runFunc (flushes : List Flush) : Func → List Flush
  | .call _ => flushes
  | .post k => flushes.modify k fun f => { f with posted := true }

inductive Act
  | add (id : Option ℕ)
  | flush
  | flushReturns (k : ℕ)
  | threadExecutor
  | wakeUp
  | finish
  | destructor
  | join
  deriving DecidableEq, Repr

def step (s : State) : Act → Option State
  | .add id => if s.destructor = .returned then none else some (addImpl s (.call id))
  | .flush => if s.destructor = .returned then none else some (flush s)
  | .flushReturns k =>
    match s.flushes[k]? with
    | some ⟨_, true, false⟩ =>
      some { s with flushes := s.flushes.modify k fun f => { f with returned := true } }
    | _ => none
  | .threadExecutor =>
    match s.thread with
    | .locking | .waiting true => some (threadExecutor s)
    | _ => none
  | .wakeUp =>
    match s.thread with
    | .waiting _ => some { s with thread := .waiting true }
    | _ => none
  | .finish =>
    match s.thread with
    | .running func => some { s with
        thread := .locking
        flushes := runFunc s.flushes func
        finished := s.finished ++ [func] }
    | _ => none
  | .destructor =>
    if s.destructor = .notCalled then
      some { s with shutdown := true, thread := s.thread.notify, destructor := .joining }
    else none
  | .join =>
    if s.destructor = .joining ∧ s.thread = .exited then some { s with destructor := .returned }
    else none

/-! ## The invariant -/

/-- A flush and its function, which posts the semaphore when it is run. -/
structure Placed (s : State) (k : ℕ) (f : Flush) : Prop where
  position : s.funcs.pushed[f.position]? = some (.post k)
  posted : f.posted = true ↔ f.position < s.finished.length
  returned : f.returned = true → f.posted = true

structure Inv (s : State) : Prop where
  order : s.funcs.popped = s.finished ++ s.thread.current
  awake : s.thread = .waiting false → s.funcs.contents = [] ∧ s.shutdown = false
  flushes : ∀ (k : ℕ) f, s.flushes[k]? = some f → Placed s k f
  posts : ∀ i k : ℕ, s.funcs.pushed[i]? = some (.post k) →
    ∃ f, s.flushes[k]? = some f ∧ f.position = i
  shutdown : s.shutdown = true ↔ s.destructor ≠ .notCalled
  exited : s.thread = .exited → s.shutdown = true
  joined : s.destructor = .returned → s.thread = .exited

theorem inv_init : Inv init where
  order := rfl
  awake := fun h => by cases h
  flushes := fun _ _ h => by simp [init] at h
  posts := fun _ _ h => by simp [init, Fifo.empty] at h
  shutdown := by decide
  exited := fun h => by cases h
  joined := fun h => by cases h

@[simp] theorem current_notify (thread : Thread) : thread.notify.current = thread.current := by
  cases thread <;> rfl

theorem notify_ne_waiting (thread : Thread) : thread.notify ≠ .waiting false := by
  cases thread <;> simp [Thread.notify]

@[simp] theorem notify_eq_exited {thread : Thread} :
    thread.notify = .exited ↔ thread = .exited := by
  cases thread <;> simp [Thread.notify]

section steps

variable {s s' : State}

/-- What has come to its end is the first part of what was added. -/
theorem Inv.pushed_eq (h : Inv s) :
    s.funcs.pushed = s.finished ++ (s.thread.current ++ s.funcs.contents) := by
  rw [← s.funcs.conserved, h.order, List.append_assoc]

/-- Functions that are added leave those before them where they are. -/
theorem Placed.push {k : ℕ} {f : Flush} (h : Placed s k f) (func : Func)
    (hpushed : s'.funcs.pushed = s.funcs.pushed ++ [func]) (hfinished : s'.finished = s.finished) :
    Placed s' k f := by
  refine ⟨?_, ?_, h.returned⟩
  · have hlt := (List.getElem?_eq_some_iff.mp h.position).1
    rw [hpushed, List.getElem?_append_left hlt]
    exact h.position
  · rw [hfinished]
    exact h.posted

theorem inv_add (h : Inv s) (hnot : s.destructor ≠ .returned) (id : Option ℕ) :
    Inv (addImpl s (.call id)) where
  order := by
    show s.funcs.popped = s.finished ++ s.thread.notify.current
    rw [current_notify]
    exact h.order
  awake := fun hwait => absurd hwait (notify_ne_waiting _)
  flushes := fun k f hf => (h.flushes k f hf).push _ rfl rfl
  posts := by
    intro i k hi
    replace hi : (s.funcs.pushed ++ [Func.call id])[i]? = some (.post k) := hi
    rw [List.getElem?_append] at hi
    split_ifs at hi with hlt
    · exact h.posts i k hi
    · have := List.mem_of_getElem? hi
      simp at this
  shutdown := h.shutdown
  exited := fun hexit => h.exited (notify_eq_exited.mp hexit)
  joined := fun hreturned => absurd hreturned hnot

theorem inv_flush (h : Inv s) (hnot : s.destructor ≠ .returned) : Inv (flush s) where
  order := by
    show s.funcs.popped = s.finished ++ s.thread.notify.current
    rw [current_notify]
    exact h.order
  awake := fun hwait => absurd hwait (notify_ne_waiting _)
  flushes := by
    intro k f hf
    replace hf : (s.flushes ++ [⟨s.funcs.pushed.length, false, false⟩])[k]? = some f := hf
    rw [List.getElem?_append] at hf
    split_ifs at hf with hlt
    · exact (h.flushes k f hf).push _ rfl rfl
    · -- the new flush: its function is the last of all
      have hk : k - s.flushes.length = 0 := by
        have := (List.getElem?_eq_some_iff.mp hf).1
        simpa using this
      rw [hk] at hf
      obtain rfl : ⟨s.funcs.pushed.length, false, false⟩ = f := by simpa using hf
      have hk' : k = s.flushes.length := by omega
      have hlen := congrArg List.length h.pushed_eq
      rw [List.length_append] at hlen
      refine ⟨?_, ⟨fun hf => (by cases hf), fun hlt => ?_⟩, fun hf => hf⟩
      · show (s.funcs.pushed ++ [Func.post s.flushes.length])[s.funcs.pushed.length]? = _
        rw [hk', List.getElem?_concat_length]
      · replace hlt : s.funcs.pushed.length < s.finished.length := hlt
        omega
  posts := by
    intro i k hi
    replace hi : (s.funcs.pushed ++ [Func.post s.flushes.length])[i]? = some (.post k) := hi
    show ∃ f, (s.flushes ++ [⟨s.funcs.pushed.length, false, false⟩])[k]? = some f ∧ _
    rw [List.getElem?_append] at hi
    split_ifs at hi with hlt
    · obtain ⟨f, hf, hpos⟩ := h.posts i k hi
      have hk := (List.getElem?_eq_some_iff.mp hf).1
      exact ⟨f, (List.getElem?_append_left hk).trans hf, hpos⟩
    · have hi0 : i - s.funcs.pushed.length = 0 := by
        have := (List.getElem?_eq_some_iff.mp hi).1
        simpa using this
      rw [hi0] at hi
      obtain rfl : s.flushes.length = k := by simpa using hi
      exact ⟨_, List.getElem?_concat_length, by show s.funcs.pushed.length = i; omega⟩
  shutdown := h.shutdown
  exited := fun hexit => h.exited (notify_eq_exited.mp hexit)
  joined := fun hreturned => absurd hreturned hnot

/-- The state of the queue, of the flushes and of what is finished. -/
theorem Placed.congr {k : ℕ} {f : Flush} (h : Placed s k f)
    (hpushed : s'.funcs.pushed = s.funcs.pushed) (hfinished : s'.finished = s.finished) :
    Placed s' k f := by
  refine ⟨?_, ?_, h.returned⟩
  · rw [hpushed]
    exact h.position
  · rw [hfinished]
    exact h.posted

theorem inv_threadExecutor (h : Inv s) (hidle : s.thread.current = [])
    (hnot : s.thread ≠ .exited) : Inv (threadExecutor s) := by
  have horder := h.order
  have hjoined : s.destructor ≠ .returned := fun hreturned => hnot (h.joined hreturned)
  rw [hidle, List.append_nil] at horder
  unfold threadExecutor
  split_ifs with hshutdown
  · refine ⟨?_, fun hwait => (by cases hwait), fun k f hf => (h.flushes k f hf).congr rfl rfl,
      h.posts, h.shutdown, fun _ => hshutdown, fun _ => rfl⟩
    show s.funcs.popped = s.finished ++ []
    rw [horder, List.append_nil]
  · rcases hcontents : s.funcs.contents with _ | ⟨func, rest⟩
    · refine ⟨?_, fun _ => ⟨hcontents, by simpa using hshutdown⟩,
        fun k f hf => (h.flushes k f hf).congr rfl rfl, h.posts, h.shutdown,
        fun hexit => (by cases hexit), fun hreturned => absurd hreturned hjoined⟩
      show s.funcs.popped = s.finished ++ []
      rw [horder, List.append_nil]
    · refine ⟨?_, fun hwait => (by cases hwait), fun k f hf => (h.flushes k f hf).congr rfl rfl,
        h.posts, h.shutdown, fun hexit => (by cases hexit),
        fun hreturned => absurd hreturned hjoined⟩
      show s.funcs.popped ++ s.funcs.contents.take 1 = s.finished ++ [func]
      rw [horder, hcontents]
      rfl

/-- The function that is run is the one behind all that are finished. -/
theorem Inv.running_at (h : Inv s) {func : Func} (hrun : s.thread = .running func) :
    s.funcs.pushed[s.finished.length]? = some func := by
  have heq := h.pushed_eq
  rw [hrun] at heq
  rw [heq, List.getElem?_append_right (Nat.le_refl _), Nat.sub_self]
  rfl

/-- A flush whose function is being run. -/
theorem Inv.position_of_post (h : Inv s) {k : ℕ} (hrun : s.thread = .running (.post k)) {f : Flush}
    (hf : s.flushes[k]? = some f) : f.position = s.finished.length := by
  obtain ⟨f', hf', hpos⟩ := h.posts _ k (h.running_at hrun)
  rw [hf] at hf'
  cases hf'
  exact hpos

theorem inv_finish (h : Inv s) {func : Func} (hrun : s.thread = .running func) :
    Inv { s with
      thread := .locking
      flushes := runFunc s.flushes func
      finished := s.finished ++ [func] } := by
  have horder := h.order
  rw [hrun] at horder
  have hget : ∀ k, (runFunc s.flushes func)[k]? = (s.flushes[k]?).map fun f =>
      if func = .post k then { f with posted := true } else f := by
    intro k
    cases func with
    | call id => simp [runFunc]
    | post j =>
      show (s.flushes.modify j _)[k]? = _
      rw [List.getElem?_modify]
      simp
  have hlen : ∀ n, n < (s.finished ++ [func]).length ↔ n < s.finished.length ∨
      n = s.finished.length := fun n => by
    rw [List.length_append, List.length_singleton]
    omega
  refine ⟨?_, fun hwait => (by cases hwait), ?_, ?_, h.shutdown, fun hexit => (by cases hexit),
    fun hreturned => ?_⟩
  · show s.funcs.popped = s.finished ++ [func] ++ []
    rw [horder, List.append_nil]
    rfl
  · intro k f hf
    replace hf : (runFunc s.flushes func)[k]? = some f := hf
    rw [hget] at hf
    obtain ⟨f₀, hf₀, rfl⟩ := Option.map_eq_some_iff.mp hf
    have hplaced := h.flushes k f₀ hf₀
    split_ifs with hpost
    · subst hpost
      have hpos := h.position_of_post hrun hf₀
      refine ⟨hplaced.position, ⟨fun _ => ?_, fun _ => rfl⟩, fun _ => rfl⟩
      exact (hlen _).mpr (Or.inr hpos)
    · -- the semaphore of another flush: its function is not the one that has ended
      have hne : f₀.position ≠ s.finished.length := by
        intro heq
        have hat := h.running_at hrun
        rw [← heq, hplaced.position] at hat
        cases hat
        exact hpost rfl
      refine ⟨hplaced.position, ?_, hplaced.returned⟩
      rw [hplaced.posted]
      show _ ↔ _ < (s.finished ++ [func]).length
      rw [hlen]
      omega
  · intro i k hi
    obtain ⟨f, hf, hpos⟩ := h.posts i k hi
    show ∃ f, (runFunc s.flushes func)[k]? = some f ∧ _
    rw [hget, hf]
    refine ⟨_, rfl, ?_⟩
    split_ifs <;> exact hpos
  · have hexit := h.joined hreturned
    rw [hrun] at hexit
    cases hexit

theorem inv_flushReturns (h : Inv s) {k p : ℕ} (hk : s.flushes[k]? = some ⟨p, true, false⟩) :
    Inv { s with flushes := s.flushes.modify k fun f => { f with returned := true } } := by
  have hget : ∀ j, (s.flushes.modify k fun f => { f with returned := true })[j]? =
      (s.flushes[j]?).map fun f => if k = j then { f with returned := true } else f :=
    fun j => List.getElem?_modify _ k _ j
  refine ⟨h.order, h.awake, fun j f hf => ?_, fun i j hi => ?_, h.shutdown, h.exited, h.joined⟩
  · replace hf : (s.flushes.modify k _)[j]? = some f := hf
    rw [hget] at hf
    obtain ⟨f₀, hf₀, rfl⟩ := Option.map_eq_some_iff.mp hf
    have hplaced := h.flushes j f₀ hf₀
    split_ifs with hjk
    · subst hjk
      rw [hk] at hf₀
      cases hf₀
      exact ⟨hplaced.position, hplaced.posted, fun _ => rfl⟩
    · exact ⟨hplaced.position, hplaced.posted, hplaced.returned⟩
  · obtain ⟨f, hf, hpos⟩ := h.posts i j hi
    show ∃ f, (s.flushes.modify k _)[j]? = some f ∧ _
    rw [hget, hf]
    refine ⟨_, rfl, ?_⟩
    split_ifs <;> exact hpos

/-- **Every step keeps the invariant.** -/
theorem step_inv (h : Inv s) {a : Act} (hstep : step s a = some s') : Inv s' := by
  cases a with
  | add id =>
    unfold step at hstep
    dsimp only at hstep
    split_ifs at hstep with hnot
    cases hstep
    exact inv_add h hnot id
  | flush =>
    unfold step at hstep
    dsimp only at hstep
    split_ifs at hstep with hnot
    cases hstep
    exact inv_flush h hnot
  | flushReturns k =>
    unfold step at hstep
    dsimp only at hstep
    split at hstep
    · rename_i p hk
      cases hstep
      exact inv_flushReturns h hk
    · cases hstep
  | threadExecutor =>
    unfold step at hstep
    rcases hthread : s.thread with _ | ⟨_ | _⟩ | func | _ <;> rw [hthread] at hstep <;> cases hstep
    · exact inv_threadExecutor h (by rw [hthread]; rfl) (by rw [hthread]; nofun)
    · exact inv_threadExecutor h (by rw [hthread]; rfl) (by rw [hthread]; nofun)
  | wakeUp =>
    unfold step at hstep
    rcases hthread : s.thread with _ | notified | func | _ <;> rw [hthread] at hstep <;> cases hstep
    have horder := h.order
    rw [hthread] at horder
    refine ⟨horder, fun hwait => (by cases hwait), fun k f hf => (h.flushes k f hf).congr rfl rfl,
      h.posts, h.shutdown, fun hexit => (by cases hexit), fun hreturned => ?_⟩
    have hexit := h.joined hreturned
    rw [hthread] at hexit
    cases hexit
  | finish =>
    unfold step at hstep
    rcases hthread : s.thread with _ | notified | func | _ <;> rw [hthread] at hstep <;> cases hstep
    exact inv_finish h hthread
  | destructor =>
    unfold step at hstep
    dsimp only at hstep
    split_ifs at hstep with hnot
    cases hstep
    refine ⟨?_, fun hwait => absurd hwait (notify_ne_waiting _),
      fun k f hf => (h.flushes k f hf).congr rfl rfl, h.posts, ⟨fun _ => nofun, fun _ => rfl⟩,
      fun _ => rfl, fun hreturned => (by cases hreturned)⟩
    show s.funcs.popped = s.finished ++ s.thread.notify.current
    rw [current_notify]
    exact h.order
  | join =>
    unfold step at hstep
    dsimp only at hstep
    split_ifs at hstep with hjoin
    cases hstep
    exact ⟨h.order, h.awake, fun k f hf => (h.flushes k f hf).congr rfl rfl, h.posts,
      ⟨fun _ => nofun, fun _ => h.exited hjoin.2⟩, h.exited, fun _ => hjoin.2⟩

end steps

/-- Any step. -/
abbrev anyStep : State → Act → Prop := fun _ _ => True

variable {s t u : State} {as bs : List Act}

theorem run_inv (hs : Inv s) (h : Run step anyStep s as t) : Inv t :=
  h.invariant Inv (fun _ _ _ hinv _ hstep => step_inv hinv hstep) hs

/-! ## What a step does to the queue -/

/-- A step leaves the queue, adds a function, or takes one out; the last only as long as the
destructor has not begun. -/
structure Moves (s s' : State) : Prop where
  funcs : s'.funcs = s.funcs ∨ (∃ func, s'.funcs = s.funcs.push [func]) ∨
    s.shutdown = false ∧ s'.funcs = s.funcs.pop 1
  shutdown : s.shutdown = true → s'.shutdown = true
  returned : s.destructor = .returned → s'.destructor = .returned

theorem moves_threadExecutor (s : State) : Moves s (threadExecutor s) := by
  unfold threadExecutor
  split_ifs with hshutdown
  · exact ⟨Or.inl rfl, fun h => h, fun h => h⟩
  · split
    · exact ⟨Or.inl rfl, fun h => h, fun h => h⟩
    · exact ⟨Or.inr (Or.inr ⟨by simpa using hshutdown, rfl⟩), fun h => h, fun h => h⟩

theorem step_moves {a : Act} (hstep : step s a = some t) : Moves s t := by
  unfold step at hstep
  cases a with
  | add id =>
    dsimp only at hstep
    split_ifs at hstep
    cases hstep
    exact ⟨Or.inr (Or.inl ⟨_, rfl⟩), fun h => h, fun h => h⟩
  | flush =>
    dsimp only at hstep
    split_ifs at hstep
    cases hstep
    exact ⟨Or.inr (Or.inl ⟨_, rfl⟩), fun h => h, fun h => h⟩
  | threadExecutor =>
    dsimp only at hstep
    split at hstep
    · cases hstep
      exact moves_threadExecutor s
    · cases hstep
      exact moves_threadExecutor s
    · cases hstep
  | destructor =>
    dsimp only at hstep
    split_ifs at hstep with hnot
    cases hstep
    refine ⟨Or.inl rfl, fun _ => rfl, fun h => ?_⟩
    rw [hnot] at h
    cases h
  | join =>
    dsimp only at hstep
    split_ifs at hstep
    cases hstep
    exact ⟨Or.inl rfl, fun h => h, fun _ => rfl⟩
  | flushReturns k =>
    dsimp only at hstep
    split at hstep <;> cases hstep
    exact ⟨Or.inl rfl, fun h => h, fun h => h⟩
  | wakeUp =>
    dsimp only at hstep
    split at hstep <;> cases hstep
    exact ⟨Or.inl rfl, fun h => h, fun h => h⟩
  | finish =>
    dsimp only at hstep
    split at hstep <;> cases hstep
    exact ⟨Or.inl rfl, fun h => h, fun h => h⟩

/-- What was added stays where it is. -/
theorem pushed_extends (h : Run step anyStep s as t) : s.funcs.pushed <+: t.funcs.pushed := by
  refine h.invariant (fun v => s.funcs.pushed <+: v.funcs.pushed) (fun v a v' hv _ hstep => ?_)
    (List.prefix_refl _)
  obtain heq | ⟨func, heq⟩ | ⟨-, heq⟩ := (step_moves hstep).funcs
  · exact heq ▸ hv
  · rw [heq]
    exact hv.trans (List.prefix_append _ _)
  · rw [heq]
    exact hv

/-- **Once the destructor has begun, no function begins.** -/
theorem popped_of_shutdown (h : Run step anyStep s as t) (hs : s.shutdown = true) :
    t.shutdown = true ∧ t.funcs.popped = s.funcs.popped := by
  refine h.invariant (fun v => v.shutdown = true ∧ v.funcs.popped = s.funcs.popped)
    (fun v a v' hv _ hstep => ?_) ⟨hs, rfl⟩
  have hmoves := step_moves hstep
  refine ⟨hmoves.shutdown hv.1, ?_⟩
  obtain heq | ⟨func, heq⟩ | ⟨hnot, -⟩ := hmoves.funcs
  · rw [heq]
    exact hv.2
  · rw [heq]
    exact hv.2
  · rw [hv.1] at hnot
    cases hnot

/-! ## The event thread on its own -/

/-- The next function of the queue is taken out and run. -/
theorem runs_next (h : Inv s) (hrunning : s.shutdown = false) (hidle : s.thread.current = [])
    {func : Func} {rest : List Func} (hcontents : s.funcs.contents = func :: rest) :
    ∃ t, Run step anyStep s [.threadExecutor, .finish] t ∧ t.finished = s.finished ++ [func] ∧
      t.funcs.contents = rest ∧ t.funcs.pushed = s.funcs.pushed ∧ t.shutdown = false ∧
      t.thread.current = [] := by
  have htake : threadExecutor s = { s with funcs := s.funcs.pop 1, thread := .running func } := by
    unfold threadExecutor
    rw [if_neg (by rw [hrunning]; decide), hcontents]
  have hstep : step s .threadExecutor = some (threadExecutor s) := by
    unfold step
    rcases hthread : s.thread with _ | ⟨_ | _⟩ | func' | _
    · rfl
    · -- with a function in the queue the thread has been notified
      rw [(h.awake hthread).1] at hcontents
      cases hcontents
    · rfl
    · rw [hthread] at hidle
      cases hidle
    · have hexit := h.exited hthread
      rw [hrunning] at hexit
      cases hexit
  have hfinish : step (threadExecutor s) .finish = some { s with
      funcs := s.funcs.pop 1
      thread := .locking
      flushes := runFunc s.flushes func
      finished := s.finished ++ [func] } := by
    rw [htake]
    rfl
  refine ⟨_, .cons trivial hstep (.cons trivial hfinish (.nil _)), rfl, ?_, rfl, hrunning, rfl⟩
  show s.funcs.contents.drop 1 = rest
  rw [hcontents]
  rfl

/-- A run of the event thread alone. -/
def Alone (as : List Act) : Prop := ∀ a ∈ as, a = .threadExecutor ∨ a = .finish

theorem drains_idle : ∀ (rest : List Func) {s : State}, Inv s → s.shutdown = false →
    s.thread.current = [] → s.funcs.contents = rest →
    ∃ bs t, Run step anyStep s bs t ∧ Alone bs ∧ bs.length = 2 * rest.length ∧
      t.finished = s.funcs.pushed ∧ t.funcs.pushed = s.funcs.pushed := by
  intro rest
  induction rest with
  | nil =>
    intro s h _ hidle hcontents
    have heq := h.pushed_eq
    rw [hidle, hcontents, List.append_nil, List.append_nil] at heq
    exact ⟨[], s, .nil s, fun a ha => absurd ha List.not_mem_nil, rfl, heq.symm, rfl⟩
  | cons func rest ih =>
    intro s h hrunning hidle hcontents
    obtain ⟨t, hrun, -, hrest, hpushed, ht, hidle'⟩ := runs_next h hrunning hidle hcontents
    obtain ⟨bs, u, hrun', halone, hlen, hfinished, hpushed'⟩ := ih (run_inv h hrun) ht hidle' hrest
    refine ⟨_, u, hrun.append hrun', fun a ha => ?_, ?_, hfinished.trans hpushed,
      hpushed'.trans hpushed⟩
    · rcases List.mem_append.mp ha with ha | ha
      · simpa using ha
      · exact halone a ha
    · rw [List.length_append, hlen, List.length_cons]
      show 2 + 2 * rest.length = 2 * (rest.length + 1)
      omega

/-- **The event thread runs what is in the queue**, on its own and without a spurious wake-up, as
long as the destructor has not begun. -/
theorem drains (h : Inv s) (hrunning : s.shutdown = false) :
    ∃ bs t, Run step anyStep s bs t ∧ Alone bs ∧ bs.length ≤ 2 * s.funcs.contents.length + 1 ∧
      t.finished = s.funcs.pushed ∧ t.funcs.pushed = s.funcs.pushed := by
  by_cases hidle : s.thread.current = []
  · obtain ⟨bs, t, hrun, halone, hlen, hfinished⟩ := drains_idle _ h hrunning hidle rfl
    exact ⟨bs, t, hrun, halone, by omega, hfinished⟩
  · rcases hthread : s.thread with _ | notified | func | _
    · rw [hthread] at hidle
      exact absurd rfl hidle
    · rw [hthread] at hidle
      exact absurd rfl hidle
    · have hstep : step s .finish = some { s with
          thread := .locking
          flushes := runFunc s.flushes func
          finished := s.finished ++ [func] } := by
        unfold step
        rw [hthread]
      obtain ⟨bs, t, hrun, halone, hlen, hfinished⟩ :=
        drains_idle _ (step_inv h hstep) hrunning rfl rfl
      refine ⟨.finish :: bs, t, .cons trivial hstep hrun, fun a ha => ?_, ?_, hfinished⟩
      · rcases List.mem_cons.mp ha with rfl | ha
        · exact Or.inr rfl
        · exact halone a ha
      · rw [List.length_cons]
        exact Nat.le_of_eq (congrArg (· + 1) hlen)
    · rw [hthread] at hidle
      exact absurd rfl hidle

/-! ## Flushes -/

/-- A flush that has been called: its function is behind what was added before. -/
theorem position_of_flush (h : Inv s) (hflush : step s .flush = some t)
    (hrun : Run step anyStep t bs u) : ∃ f, u.flushes[s.flushes.length]? = some f ∧
      f.position = s.funcs.pushed.length := by
  have hu := run_inv (step_inv h hflush) hrun
  have hprefix := pushed_extends hrun
  unfold step at hflush
  dsimp only at hflush
  split_ifs at hflush
  cases hflush
  obtain ⟨rest, hrest⟩ := hprefix
  replace hrest : s.funcs.pushed ++ [Func.post s.flushes.length] ++ rest = u.funcs.pushed := hrest
  refine hu.posts _ _ ?_
  rw [← hrest, List.append_assoc, List.getElem?_append_right (Nat.le_refl _), Nat.sub_self]
  rfl

/-- **A flush is a barrier**: when it has returned, all that was added before it has been run, each
function once and in order. -/
theorem flush_is_barrier (h : Run step anyStep init as s) (hflush : step s .flush = some t)
    (hrun : Run step anyStep t bs u) {f : Flush} (hf : u.flushes[s.flushes.length]? = some f)
    (hreturned : f.returned = true) : s.funcs.pushed <+: u.finished := by
  have hs := run_inv inv_init h
  have hu := run_inv (step_inv hs hflush) hrun
  obtain ⟨f', hf', hpos⟩ := position_of_flush hs hflush hrun
  rw [hf] at hf'
  cases hf'
  have hplaced := hu.flushes _ f hf
  have hlt := hplaced.posted.mp (hplaced.returned hreturned)
  have hpushed : s.funcs.pushed <+: u.funcs.pushed :=
    (pushed_extends (.cons trivial hflush (.nil t))).trans (pushed_extends hrun)
  have hfinished : u.finished <+: u.funcs.pushed := ⟨_, hu.pushed_eq.symm⟩
  exact List.prefix_of_prefix_length_le hpushed hfinished (by omega)

/-- The flush with the given number can return when its semaphore is posted. -/
theorem returns_of_posted (h : Inv s) {k : ℕ} {f : Flush} (hf : s.flushes[k]? = some f)
    (hlt : f.position < s.finished.length) :
    ∃ bs t f', Run step anyStep s bs t ∧ t.flushes[k]? = some f' ∧ f'.returned = true := by
  have hposted := (h.flushes k f hf).posted.mpr hlt
  obtain ⟨p, posted, returned⟩ := f
  cases hposted
  cases returned with
  | true => exact ⟨[], s, _, .nil s, hf, rfl⟩
  | false =>
    have hstep : step s (.flushReturns k) = some { s with
        flushes := s.flushes.modify k fun f => { f with returned := true } } := by
      simp only [step, hf]
    refine ⟨_, _, ⟨p, true, true⟩, .cons trivial hstep (.nil _), ?_, rfl⟩
    show (s.flushes.modify k _)[k]? = _
    rw [List.getElem?_modify, hf]
    simp

/-- A flush keeps its place. -/
theorem flush_stays (h : Inv s) (hrun : Run step anyStep s bs t) {k : ℕ} {f : Flush}
    (hf : s.flushes[k]? = some f) :
    ∃ f', t.flushes[k]? = some f' ∧ f'.position = f.position := by
  obtain ⟨rest, hrest⟩ := pushed_extends hrun
  have hplaced := (h.flushes k f hf).position
  have hlt := (List.getElem?_eq_some_iff.mp hplaced).1
  refine (run_inv h hrun).posts f.position k ?_
  rw [← hrest, List.getElem?_append_left hlt]
  exact hplaced

/-- **When a flush returns.** In every state of every run, a flush still can return exactly if the
destructor has not begun, or the event thread has come to the function of the flush before. -/
theorem flush_returns_iff (h : Run step anyStep init as s) {k : ℕ} {f : Flush}
    (hf : s.flushes[k]? = some f) :
    (∃ bs t f', Run step anyStep s bs t ∧ t.flushes[k]? = some f' ∧ f'.returned = true) ↔
      s.shutdown = false ∨ f.position < s.funcs.popped.length := by
  have hs := run_inv inv_init h
  constructor
  · rintro ⟨bs, t, f', hrun, hf', hreturned⟩
    by_contra hnot
    rw [not_or, Bool.not_eq_false] at hnot
    obtain ⟨hshutdown, hle⟩ := hnot
    have ht := run_inv hs hrun
    obtain ⟨f'', hf'', hpos⟩ := flush_stays hs hrun hf
    rw [hf'] at hf''
    cases hf''
    have hplaced := ht.flushes k f' hf'
    have hlt := hplaced.posted.mp (hplaced.returned hreturned)
    have hpopped := congrArg List.length (popped_of_shutdown hrun hshutdown).2
    rw [ht.order, List.length_append] at hpopped
    omega
  · intro hcan
    by_cases hshutdown : s.shutdown = false
    · -- the event thread runs all that is in the queue
      obtain ⟨bs, t, hrun, -, -, hfinished, -⟩ := drains hs hshutdown
      obtain ⟨f', hf', hpos⟩ := flush_stays hs hrun hf
      have hlt := (List.getElem?_eq_some_iff.mp (hs.flushes k f hf).position).1
      obtain ⟨cs, u, f'', hrun', hf'', hreturned⟩ := returns_of_posted (run_inv hs hrun) hf'
        (by rw [hfinished, hpos]; exact hlt)
      exact ⟨_, u, f'', hrun.append hrun', hf'', hreturned⟩
    · -- the function is finished, or it is the one that is being run
      have hlt := hcan.resolve_left hshutdown
      rw [hs.order, List.length_append] at hlt
      by_cases hdone : f.position < s.finished.length
      · exact returns_of_posted hs hf hdone
      · rcases hthread : s.thread with _ | notified | func | _ <;>
          rw [hthread] at hlt <;> simp only [Thread.current, List.length_nil,
            List.length_singleton] at hlt
        · omega
        · omega
        · have hstep : step s .finish = some { s with
              thread := .locking
              flushes := runFunc s.flushes func
              finished := s.finished ++ [func] } := by
            unfold step
            rw [hthread]
          have hrun : Run step anyStep s [.finish] _ := .cons trivial hstep (.nil _)
          obtain ⟨f', hf', hpos⟩ := flush_stays hs hrun hf
          obtain ⟨cs, u, f'', hrun', hf'', hreturned⟩ := returns_of_posted (run_inv hs hrun) hf'
            (by
              show f'.position < (s.finished ++ [func]).length
              rw [List.length_append, List.length_singleton]
              omega)
          exact ⟨_, u, f'', hrun.append hrun', hf'', hreturned⟩
        · omega

/-- **The contract of `flush`**, at any time after the call: if it has returned, all that was added
before it has been run, and it can still return exactly if the destructor has not begun, or the
event thread has come to it before. -/
theorem flush_contract (h : Run step anyStep init as s) (hflush : step s .flush = some t)
    (hrun : Run step anyStep t bs u) : ∃ f, u.flushes[s.flushes.length]? = some f ∧
      (f.returned = true → s.funcs.pushed <+: u.finished) ∧
      ((∃ cs v f', Run step anyStep u cs v ∧ v.flushes[s.flushes.length]? = some f' ∧
          f'.returned = true) ↔
        u.shutdown = false ∨ s.funcs.pushed.length < u.funcs.popped.length) := by
  obtain ⟨f, hf, hpos⟩ := position_of_flush (run_inv inv_init h) hflush hrun
  have hreturns := flush_returns_iff (h.append (.cons trivial hflush hrun)) hf
  rw [hpos] at hreturns
  exact ⟨f, hf, flush_is_barrier h hflush hrun hf, hreturns⟩

/-- Two functions, of which one is being run when `flush` is called. -/
def beforeFlush : List Act := [.add (some 0), .threadExecutor, .add (some 1)]

def afterFlush : List Act :=
  [.finish, .threadExecutor, .finish, .threadExecutor, .finish, .flushReturns 0, .add (some 2),
    .destructor]

theorem flush_contract_two : ∃ s t u, Run step anyStep init beforeFlush s ∧
    step s .flush = some t ∧ Run step anyStep t afterFlush u ∧
      s.funcs.pushed = [.call (some 0), .call (some 1)] ∧ s.funcs.pushed <+: u.finished := by
  have hs : Run step anyStep init beforeFlush _ := Run.of_runs rfl
  obtain ⟨f, hf, hbarrier, -⟩ :=
    flush_contract hs rfl (Run.of_runs rfl : Run step anyStep _ afterFlush _)
  cases hf
  exact ⟨_, _, _, hs, rfl, Run.of_runs rfl, rfl, hbarrier rfl⟩

/-! ## The whole life of an event thread -/

/-- What holds of an event thread at any time, and from then on. -/
structure Disciplined (s : State) : Prop where
  order : s.funcs.pushed = s.finished ++ (s.thread.current ++ s.funcs.contents)
  awake : s.thread = .waiting false → s.funcs.contents = []
  stopped : ∀ bs t, Run step anyStep s bs t → s.shutdown = true →
    t.finished ++ t.thread.current = s.finished ++ s.thread.current
  ended : ∀ bs t, Run step anyStep s bs t → s.destructor = .returned → t.finished = s.finished

/-- **Functions are run in the order in which they were added, one at a time and once**; the thread
never sleeps on a function; once the destructor has begun no other function begins; and once it has
returned none is being run. -/
theorem runs_in_order (h : Run step anyStep init as s) : Disciplined s := by
  have hs := run_inv inv_init h
  refine ⟨hs.pushed_eq, fun hwait => (hs.awake hwait).1, fun bs t hrun hshutdown => ?_,
    fun bs t hrun hreturned => ?_⟩
  · rw [← hs.order, ← (run_inv hs hrun).order]
    exact (popped_of_shutdown hrun hshutdown).2
  · have hexit := hs.joined hreturned
    have ht := run_inv hs hrun
    have hkept : t.destructor = .returned :=
      hrun.invariant (·.destructor = .returned)
        (fun _ _ _ hv _ hstep => (step_moves hstep).returned hv) hreturned
    have hpopped := (popped_of_shutdown hrun (hs.exited hexit)).2
    rw [ht.order, hs.order, hexit, ht.joined hkept] at hpopped
    simpa [Thread.current] using hpopped

/-- The function that is being run when the destructor begins is the last one. -/
def stopping : List Act := [.add (some 0), .add none, .threadExecutor, .destructor, .add (some 1)]

theorem runs_in_order_stopping : ∃ s, Run step anyStep init stopping s ∧
    s.thread = .running (.call (some 0)) ∧ ∀ bs t, Run step anyStep s bs t →
      t.finished ++ t.thread.current = [.call (some 0)] := by
  have hs : Run step anyStep init stopping _ := Run.of_runs rfl
  exact ⟨_, hs, rfl, fun bs t hrun => (runs_in_order hs).stopped bs t hrun rfl⟩

end Rialto.Common.EventThread
