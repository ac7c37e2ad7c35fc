import Mathlib.Data.List.Range
import Rialto.Lib.Runs
import Rialto.Lib.Word

/-! # The hand-over of audio data to the worker

`GstWebAudioPlayer::writeBuffer` queues a task for the worker and waits for it on a condition
variable, with a timeout. The task pushes what the appsrc has room for, stores the number of bytes
and notifies the variable. The number is shared by all calls, and so is the notification.

The bytes of the stream are known by their positions. The caller offers them in two pieces, from the
first byte on that no call has reported as written.

* `execute_eq`: a task pushes the first bytes of its offer.
* `Meets`: a wait ends only after its own task has stored its number, and times out only if that is
  zero.
* `handed_over_once`: then every byte is pushed once, in order, and every call returns what its own
  task has pushed.
* `late_task_pushes_again`: a wait that times out before its task has run. -/

namespace Rialto.WebAudio.HandOver

open Rialto.Lib.Runs Rialto.Lib.Word

/-! ## The task -/

/-- The pieces of an offer. Their lengths add up to a number of type `uint32_t`. -/
structure Offer where
  mainLength : ℕ
  wrapLength : ℕ
  fits : mainLength + wrapLength < 2 ^ 32

/-- A `WriteBuffer` task, with the position of the first byte it offers. -/
structure Task where
  id : ℕ
  start : ℕ
  offer : Offer

def Task.main (t : Task) : List ℕ := List.range' t.start t.offer.mainLength

def Task.wrap (t : Task) : List ℕ :=
  List.range' (t.start + t.offer.mainLength) t.offer.wrapLength

def maxWebAudioBytes : ℕ := 10 * 1024

/-- What GStreamer decides: the level of the appsrc, whether a buffer can be allocated, and whether
it is accepted. -/
structure Env where
  currentLevelBytes : ℕ
  allocates : Bool
  accepts : Bool
  deriving DecidableEq

/-- The difference is of type `uint64_t`. -/
def freeBytes (env : Env) : ℕ :=
  (maxWebAudioBytes + 2 ^ 64 - env.currentLevelBytes % 2 ^ 64) % 2 ^ 64

/-- The contents that `gstBufferFill` puts into a buffer of the given size, piece by piece. -/
def fill (size : ℕ) (t : Task) : List ℕ :=
  if size = t.offer.mainLength + t.offer.wrapLength then t.main ++ t.wrap
  else if t.offer.mainLength < size then t.main ++ t.wrap.take (size - t.main.length)
  else t.main.take size

/-- `WriteBuffer::execute`: the bytes pushed. -/
def execute (env : Env) (t : Task) : List ℕ :=
  let bytesToWrite := min (freeBytes env) (t.offer.mainLength + t.offer.wrapLength)
  if env.allocates && env.accepts then fill bytesToWrite t else []

theorem main_append_wrap (t : Task) :
    t.main ++ t.wrap = List.range' t.start (t.offer.mainLength + t.offer.wrapLength) := by
  simp [Task.main, Task.wrap, List.range'_append_1]

theorem fill_eq {size : ℕ} {t : Task} (h : size ≤ t.offer.mainLength + t.offer.wrapLength) :
    fill size t = List.range' t.start size := by
  have htake : (t.main ++ t.wrap).take size = List.range' t.start size := by
    rw [main_append_wrap, List.take_range'_of_length_ge h]
  have hmain : t.main.length = t.offer.mainLength := by simp [Task.main]
  unfold fill
  split_ifs with hall hmore
  · rw [main_append_wrap, ← hall]
  · have hwhole : t.main.take size = t.main := List.take_of_length_le (by omega)
    rw [← htake, List.take_append, hwhole]
  · rw [← htake, List.take_append_of_le_length (by omega)]

/-- **A task pushes the first bytes of its offer.** -/
theorem execute_eq (env : Env) (t : Task) :
    ∃ n, execute env t = List.range' t.start n ∧ n < 2 ^ 32 := by
  unfold execute
  dsimp only
  split_ifs
  · exact ⟨_, fill_eq (Nat.min_le_right _ _),
      Nat.lt_of_le_of_lt (Nat.min_le_right _ _) t.offer.fits⟩
  · exact ⟨0, rfl, by decide⟩

/-! ## Calls and tasks -/

/-- Where the worker is with a task: before it stores the number of bytes, and before it notifies
the condition variable. -/
inductive Worker
  | idle
  | recording (id bytesWritten : ℕ)
  | notifying

/-- The call that waits for its task, and whether it was notified. -/
structure Wait where
  task : ℕ
  notified : Bool

/-- The player, with the number of bytes reported as written, the bytes pushed, how many of them
each task has pushed and what each call has returned. -/
structure State where
  reported : ℕ
  nextTask : ℕ
  queue : List Task
  worker : Worker
  lastBytesWritten : ℕ
  waiting : Option Wait
  pushed : List ℕ
  done : List (ℕ × ℕ)
  returned : List (ℕ × ℕ)

def init : State := ⟨0, 0, [], .idle, 0, none, [], [], []⟩

inductive Act
  | writeBuffer (o : Offer)
  | execute (env : Env)
  | record
  | notify
  | wake (spurious : Bool)
  | timeOut

/-- The end of the wait of a call. -/
def State.return (s : State) (w : Wait) (bytesWritten : ℕ) : State :=
  { s with
    reported := s.reported + bytesWritten
    waiting := none
    returned := s.returned ++ [(w.task, bytesWritten)] }

/-- One step. The caller holds the mutex from the queueing of its task to the wait; a wait can end
without a notification. -/
def step (s : State) : Act → Option State
  | .writeBuffer o =>
    match s.waiting with
    | some _ => none
    | none =>
      some { s with
        nextTask := s.nextTask + 1
        queue := s.queue ++ [⟨s.nextTask, s.reported, o⟩]
        waiting := some ⟨s.nextTask, false⟩ }
  | .execute env =>
    match s.worker, s.queue with
    | .idle, t :: rest =>
      some { s with
        queue := rest
        worker := .recording t.id (execute env t).length
        pushed := s.pushed ++ execute env t
        done := s.done ++ [(t.id, (execute env t).length)] }
    | _, _ => none
  | .record =>
    match s.worker with
    | .recording _ bytesWritten =>
      some { s with worker := .notifying, lastBytesWritten := bytesWritten % 2 ^ 32 }
    | _ => none
  | .notify =>
    match s.worker with
    | .notifying =>
      some { s with worker := .idle, waiting := s.waiting.map ({ · with notified := true }) }
    | _ => none
  | .wake spurious =>
    match s.waiting with
    | some w => if w.notified || spurious then some (s.return w s.lastBytesWritten) else none
    | none => none
  | .timeOut =>
    match s.waiting with
    | some w => some (s.return w 0)
    | none => none

/-! ## The condition -/

/-- The task has pushed its bytes and stored their number. -/
def Finished (s : State) (id : ℕ) : Prop :=
  (∃ k, (id, k) ∈ s.done) ∧ ∀ k, s.worker ≠ .recording id k

/-- **The condition on a step**: a wait ends only after its own task has finished, and by a timeout
only if that has stored zero. -/
def Meets (s : State) : Act → Prop
  | .wake _ => ∀ w, s.waiting = some w → Finished s w.task
  | .timeOut => ∀ w, s.waiting = some w → Finished s w.task ∧ s.lastBytesWritten = 0
  | _ => True

/-! ## The invariant -/

/-- No task is between pushing its bytes and storing their number. -/
def Stored (s : State) : Prop := ∀ id k, s.worker ≠ .recording id k

/-- The task of the waiting call has not run yet. -/
def Queued (s : State) (w : Wait) : Prop :=
  (∃ o, s.queue = [⟨w.task, s.reported, o⟩]) ∧ Stored s ∧ s.pushed = List.range s.reported ∧
    ∀ k, (w.task, k) ∉ s.done

/-- The task of the waiting call has pushed `k` bytes. -/
def Executed (s : State) (w : Wait) (k : ℕ) : Prop :=
  s.queue = [] ∧ (s.worker = .recording w.task k ∨ Stored s ∧ s.lastBytesWritten = k) ∧
    k < 2 ^ 32 ∧ s.pushed = List.range (s.reported + k) ∧ (w.task, k) ∈ s.done

/-- No call waits, and no task is left. -/
def Settled (s : State) : Prop :=
  s.queue = [] ∧ Stored s ∧ s.pushed = List.range s.reported

/-- How far the worker is with the task of the only call that can be waiting. -/
def Phase (s : State) : Prop :=
  match s.waiting with
  | none => Settled s
  | some w => w.task + 1 = s.nextTask ∧ (Queued s w ∨ ∃ k, Executed s w k)

structure Inv (s : State) : Prop where
  issued : ∀ e ∈ s.done, e.1 < s.nextTask
  functional : ∀ e ∈ s.done, ∀ e' ∈ s.done, e.1 = e'.1 → e = e'
  own : ∀ e ∈ s.returned, e ∈ s.done
  phase : Phase s

theorem inv_init : Inv init where
  issued := nofun
  functional := nofun
  own := nofun
  phase := ⟨rfl, nofun, rfl⟩

theorem Inv.settled {s : State} (h : Inv s) (hw : s.waiting = none) : Settled s := by
  have hphase := h.phase
  unfold Phase at hphase
  rwa [hw] at hphase

theorem Inv.waiting {s : State} {w : Wait} (h : Inv s) (hw : s.waiting = some w) :
    w.task + 1 = s.nextTask ∧ (Queued s w ∨ ∃ k, Executed s w k) := by
  have hphase := h.phase
  unfold Phase at hphase
  rwa [hw] at hphase

/-- A wait whose task has finished finds the number that the task has stored. -/
theorem Inv.finished {s : State} {w : Wait} (h : Inv s) (hw : s.waiting = some w)
    (hf : Finished s w.task) : Executed s w s.lastBytesWritten ∧ Stored s := by
  obtain ⟨⟨k, hk⟩, hrecorded⟩ := hf
  rcases (h.waiting hw).2 with hq | ⟨n, hx⟩
  · exact absurd hk (hq.2.2.2 k)
  · obtain ⟨hqueue, hworker, hrest⟩ := hx
    rcases hworker with hrec | ⟨hstored, rfl⟩
    · exact absurd hrec (hrecorded n)
    · exact ⟨⟨hqueue, Or.inr ⟨hstored, rfl⟩, hrest⟩, hstored⟩

/-! ## The steps -/

theorem inv_writeBuffer {s : State} {o : Offer} (h : Inv s) (hw : s.waiting = none) :
    Inv { s with
      nextTask := s.nextTask + 1
      queue := s.queue ++ [⟨s.nextTask, s.reported, o⟩]
      waiting := some ⟨s.nextTask, false⟩ } := by
  obtain ⟨hqueue, hstored, hpushed⟩ := h.settled hw
  refine ⟨fun e he => Nat.lt_succ_of_lt (h.issued e he), h.functional, h.own, rfl, Or.inl ?_⟩
  refine ⟨⟨o, by rw [hqueue]; rfl⟩, hstored, hpushed, fun k hk => ?_⟩
  exact absurd (h.issued _ hk) (Nat.lt_irrefl _)

/-- Only the task of a call that waits for it can be next. -/
theorem Inv.next {s : State} {t : Task} {rest : List Task} (h : Inv s)
    (hqueue : s.queue = t :: rest) :
    ∃ w, s.waiting = some w ∧ rest = [] ∧ t.id = w.task ∧ t.start = s.reported ∧
      w.task + 1 = s.nextTask ∧ s.pushed = List.range s.reported ∧ ∀ k, (w.task, k) ∉ s.done := by
  cases hw : s.waiting with
  | none => exact nomatch hqueue.symm.trans (h.settled hw).1
  | some w =>
    obtain ⟨hlast, ⟨⟨o, ho⟩, -, hpushed, hnew⟩ | ⟨k, hx⟩⟩ := h.waiting hw
    · cases hqueue.symm.trans ho
      exact ⟨w, rfl, rfl, rfl, rfl, hlast, hpushed, hnew⟩
    · exact nomatch hqueue.symm.trans hx.1

theorem inv_execute {s : State} {env : Env} {t : Task} {rest : List Task} (h : Inv s)
    (hqueue : s.queue = t :: rest) :
    Inv { s with
      queue := rest
      worker := .recording t.id (execute env t).length
      pushed := s.pushed ++ execute env t
      done := s.done ++ [(t.id, (execute env t).length)] } := by
  obtain ⟨w, hw, rfl, hid, hstart, hlast, hpushed, hnew⟩ := h.next hqueue
  obtain ⟨n, hn, hlt⟩ := execute_eq env t
  have hlen : (execute env t).length = n := by rw [hn, List.length_range']
  have hfresh : ∀ e ∈ s.done, e.1 ≠ t.id := by
    rintro ⟨i, k⟩ he rfl
    exact hnew k (by rwa [← hid])
  refine ⟨fun e he => ?_, fun e he e' he' heq => ?_, fun e he => ?_, ?_⟩
  · rcases List.mem_append.mp he with he | he
    · exact h.issued e he
    · cases List.mem_singleton.mp he
      show t.id < s.nextTask
      omega
  · rcases List.mem_append.mp he with he | he <;> rcases List.mem_append.mp he' with he' | he'
    · exact h.functional e he e' he' heq
    · cases List.mem_singleton.mp he'
      exact absurd heq (hfresh e he)
    · cases List.mem_singleton.mp he
      exact absurd heq.symm (hfresh e' he')
    · rw [List.mem_singleton.mp he, List.mem_singleton.mp he']
  · exact List.mem_append_left _ (h.own e he)
  · unfold Phase
    simp only [hw]
    refine ⟨hlast, Or.inr ⟨n, rfl, Or.inl (by rw [hid, hlen]), hlt, ?_, ?_⟩⟩
    · have hnext := @List.range'_append_1 0 s.reported n
      rw [Nat.zero_add] at hnext
      rw [hpushed, hn, hstart, List.range_eq_range', List.range_eq_range', hnext]
    · rw [hlen, hid]
      exact List.mem_append_right _ (List.mem_singleton.mpr rfl)

theorem inv_record {s : State} {id n : ℕ} (h : Inv s) (hworker : s.worker = .recording id n) :
    Inv { s with worker := .notifying, lastBytesWritten := n % 2 ^ 32 } := by
  refine ⟨h.issued, h.functional, h.own, ?_⟩
  unfold Phase
  cases hw : s.waiting with
  | none => exact absurd hworker ((h.settled hw).2.1 id n)
  | some w =>
    obtain ⟨hlast, hq | ⟨k, hqueue, hrec, hlt, hrest⟩⟩ := h.waiting hw
    · exact absurd hworker (hq.2.1 id n)
    · refine ⟨hlast, Or.inr ⟨k, hqueue, Or.inr ⟨nofun, ?_⟩, hlt, hrest⟩⟩
      rcases hrec with hrec | ⟨hstored, -⟩
      · cases hworker.symm.trans hrec
        exact Nat.mod_eq_of_lt hlt
      · exact absurd hworker (hstored id n)

theorem inv_notify {s : State} (h : Inv s) (hworker : s.worker = .notifying) :
    Inv { s with worker := .idle, waiting := s.waiting.map ({ · with notified := true }) } := by
  refine ⟨h.issued, h.functional, h.own, ?_⟩
  unfold Phase
  cases hw : s.waiting with
  | none =>
    obtain ⟨hqueue, -, hpushed⟩ := h.settled hw
    exact ⟨hqueue, nofun, hpushed⟩
  | some w =>
    obtain ⟨hlast, ⟨ho, -, hrest⟩ | ⟨k, hqueue, hrec, hrest⟩⟩ := h.waiting hw
    · exact ⟨hlast, Or.inl ⟨ho, nofun, hrest⟩⟩
    · refine ⟨hlast, Or.inr ⟨k, hqueue, Or.inr ⟨nofun, ?_⟩, hrest⟩⟩
      rcases hrec with hrec | ⟨-, hk⟩
      · exact nomatch hworker.symm.trans hrec
      · exact hk

/-- A wait that returns the number its own task has stored. -/
theorem inv_return {s : State} {w : Wait} (h : Inv s) (hw : s.waiting = some w)
    (hf : Finished s w.task) : Inv (s.return w s.lastBytesWritten) := by
  obtain ⟨⟨hqueue, -, -, hpushed, hdone⟩, hstored⟩ := h.finished hw hf
  refine ⟨h.issued, h.functional, fun e he => ?_, hqueue, hstored, hpushed⟩
  rcases List.mem_append.mp he with he | he
  · exact h.own e he
  · rw [List.mem_singleton.mp he]
    exact hdone

theorem step_inv {s s' : State} {a : Act} (h : Inv s) (hok : Meets s a)
    (hstep : step s a = some s') : Inv s' := by
  cases a with
  | writeBuffer o =>
    cases hw : s.waiting with
    | none =>
      simp only [step, hw] at hstep
      cases hstep
      exact inv_writeBuffer h hw
    | some w => simp [step, hw] at hstep
  | execute env =>
    simp only [step] at hstep
    split at hstep
    next hworker hqueue =>
      cases hstep
      exact inv_execute h hqueue
    next => exact nomatch hstep
  | record =>
    simp only [step] at hstep
    split at hstep
    next hworker =>
      cases hstep
      exact inv_record h hworker
    next => exact nomatch hstep
  | notify =>
    simp only [step] at hstep
    split at hstep
    next hworker =>
      cases hstep
      exact inv_notify h hworker
    next => exact nomatch hstep
  | wake spurious =>
    cases hw : s.waiting with
    | none => simp [step, hw] at hstep
    | some w =>
      simp only [step, hw] at hstep
      split_ifs at hstep
      cases hstep
      exact inv_return h hw (hok w hw)
  | timeOut =>
    cases hw : s.waiting with
    | none => simp [step, hw] at hstep
    | some w =>
      simp only [step, hw] at hstep
      cases hstep
      obtain ⟨hf, hzero⟩ := hok w hw
      rw [← hzero]
      exact inv_return h hw hf

theorem Inv.pushed_eq {s : State} (h : Inv s) : ∃ n, s.pushed = List.range n := by
  cases hw : s.waiting with
  | none => exact ⟨_, (h.settled hw).2.2⟩
  | some w =>
    rcases (h.waiting hw).2 with hq | ⟨k, hx⟩
    · exact ⟨_, hq.2.2.1⟩
    · exact ⟨_, hx.2.2.2.1⟩

/-- **In every run in which a wait ends only after its own task has finished, and by a timeout only
if that has stored zero, the bytes pushed are the bytes of the stream, each once and in order, and
every call returns the number of bytes that its own task has pushed.** -/
theorem handed_over_once {as : List Act} {s : State} (h : Run step Meets init as s) :
    s.pushed = List.range s.pushed.length ∧
      ∀ id n, (id, n) ∈ s.returned → (id, n) ∈ s.done ∧ ∀ k, (id, k) ∈ s.done → k = n := by
  have hinv : Inv s := h.invariant Inv (fun _ _ _ hs hok hstep => step_inv hs hok hstep) inv_init
  refine ⟨?_, fun id n hret => ⟨hinv.own _ hret, fun k hk => ?_⟩⟩
  · obtain ⟨n, hn⟩ := hinv.pushed_eq
    rw [hn, List.length_range]
  · exact (Prod.mk.inj (hinv.functional _ hk _ (hinv.own _ hret) rfl)).2

/-! ## Two runs -/

def four : Offer := ⟨3, 1, by decide⟩

/-- There is room for all bytes of a small offer. -/
def accepting : Env := ⟨0, true, true⟩

/-- The first call times out before its task has run; the same bytes are offered again. -/
def timingOut : List Act :=
  [.writeBuffer four, .timeOut, .execute accepting, .record, .notify, .writeBuffer four,
    .execute accepting, .record, .notify, .wake false]

/-- The second call is woken by its task, the third one finds the appsrc full. -/
def waiting : List Act :=
  [.writeBuffer four, .execute accepting, .record, .notify, .wake false, .writeBuffer four,
    .execute ⟨maxWebAudioBytes - 2, true, true⟩, .record, .notify, .wake false, .writeBuffer four,
    .execute ⟨maxWebAudioBytes, true, true⟩, .record, .notify, .timeOut]

/-- `Finished`, as it is checked along a run. -/
def finished (s : State) (id : ℕ) : Bool :=
  s.done.any (·.1 == id) && match s.worker with
    | .recording i _ => i != id
    | _ => true

theorem finished_of_check {s : State} {id : ℕ} (h : finished s id = true) : Finished s id := by
  simp only [finished, Bool.and_eq_true, List.any_eq_true, beq_iff_eq] at h
  obtain ⟨⟨⟨i, k⟩, hk, rfl⟩, hworker⟩ := h
  refine ⟨⟨k, hk⟩, fun n hn => ?_⟩
  rw [hn] at hworker
  simp at hworker

/-- The condition, as it is checked along a run. -/
def checked (s : State) : Act → Bool
  | .wake _ => s.waiting.all fun w => finished s w.task
  | .timeOut => s.waiting.all fun w => finished s w.task && s.lastBytesWritten == 0
  | _ => true

theorem meets_of_checked {s : State} {a : Act} (h : checked s a = true) : Meets s a := by
  cases a with
  | wake spurious =>
    intro w hw
    simp only [checked, hw, Option.all_some] at h
    exact finished_of_check h
  | timeOut =>
    intro w hw
    simp only [checked, hw, Option.all_some, Bool.and_eq_true, beq_iff_eq] at h
    exact ⟨finished_of_check h.1, h.2⟩
  | _ => trivial

theorem handed_over_once_waiting :
    ∃ s, Run step Meets init waiting s ∧ s.returned = [(0, 4), (1, 2), (2, 0)] ∧
      s.pushed = List.range s.pushed.length ∧
      ∀ id n, (id, n) ∈ s.returned → (id, n) ∈ s.done ∧ ∀ k, (id, k) ∈ s.done → k = n := by
  have hview : (runsIf step (fun s a => checked s a = true) init waiting).map State.returned =
      some [(0, 4), (1, 2), (2, 0)] := by
    decide +kernel
  obtain ⟨s, hs, hview⟩ := Option.map_eq_some_iff.mp hview
  have hrun := (Run.of_runsIf hs).mono fun _ _ => meets_of_checked
  exact ⟨s, hrun, hview, handed_over_once hrun⟩

/-- The call returns zero, its task pushes four bytes, and the next task pushes them again. -/
theorem late_task_pushes_again :
    ∃ as s, Run step (fun _ _ => True) init as s ∧ s.pushed = [0, 1, 2, 3, 0, 1, 2, 3] ∧
      s.done = [(0, 4), (1, 4)] ∧ s.returned = [(0, 0), (1, 4)] := by
  have hview : (runs step init timingOut).map (fun s => (s.pushed, s.done, s.returned)) =
      some ([0, 1, 2, 3, 0, 1, 2, 3], [(0, 4), (1, 4)], [(0, 0), (1, 4)]) := by
    decide +kernel
  obtain ⟨s, hs, hview⟩ := Option.map_eq_some_iff.mp hview
  simp only [Prod.mk.injEq] at hview
  exact ⟨timingOut, s, Run.of_runs hs, hview.1, hview.2.1, hview.2.2⟩

end Rialto.WebAudio.HandOver
