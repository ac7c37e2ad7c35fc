import Mathlib.Data.List.Basic
import Mathlib.Logic.Function.Basic
import Rialto.Lib.Runs

/-! # The shutdown of the worker threads

A `GstGenericPlayer` and a `GstWebAudioPlayer` have a worker thread, which executes the tasks in its
queue until a `Shutdown` task makes it stop. The constructors start it half way and may fail later;
the destructor of `WorkerThread` joins it.

A thread that constructs or destroys a player executes a list of acts, one a step, with what the
calls in them return. In between, the worker runs and any thread may enqueue other tasks. What the
dispatcher thread of a player does is left out, but for enqueueing tasks.

* `WorkerThread.run`: a step of the worker thread.
* `createGstGenericPlayer`, `createGstWebAudioPlayer` and the destructors: the lists of acts.
* `Checked`: the acts never join a worker that has not been told to stop.
* `shutdown_iff`: a worker is only joined after its `Shutdown` task exactly when no generic player
  is created for another media type than MSE, and nothing else throws behind the start of a worker.
* `join_terminates`: how many steps the worker makes until the join returns. -/

namespace Rialto.Player.Shutdown

open Rialto.Lib.Runs

/-! ## The worker thread -/

inductive Task
  | shutdown
  | other
  deriving DecidableEq, Repr

/-- Where the thread is: at the condition of the loop, in `waitForTask`, in a task, or returned. -/
inductive TaskThread
  | taskHandler
  | waitForTask
  | execute (task : Task)
  | returned
  deriving DecidableEq, Repr

/-- A `WorkerThread`, with all the tasks that have been enqueued so far. -/
structure WorkerThread where
  isTaskThreadActive : Bool
  taskThread : TaskThread
  joinable : Bool
  taskQueue : List Task
  enqueued : List Task
  deriving DecidableEq, Repr

def WorkerThread.fresh : WorkerThread := ⟨true, .taskHandler, true, [], []⟩

def WorkerThread.stop (w : WorkerThread) : WorkerThread := { w with isTaskThreadActive := false }

def WorkerThread.enqueueTask (w : WorkerThread) (task : Task) : WorkerThread :=
  { w with taskQueue := w.taskQueue ++ [task], enqueued := w.enqueued ++ [task] }

/-- `Shutdown` calls `stopWorkerThread`. -/
def WorkerThread.execute (w : WorkerThread) : Task → WorkerThread
  | .shutdown => w.stop
  | .other => w

/-- A step of the thread. In `waitForTask` it sleeps while the queue is empty. -/
def WorkerThread.run (w : WorkerThread) : Option WorkerThread :=
  match w.taskThread with
  | .taskHandler =>
    some { w with taskThread := if w.isTaskThreadActive then .waitForTask else .returned }
  | .waitForTask =>
    match w.taskQueue with
    | [] => none
    | task :: tasks => some { w with taskQueue := tasks, taskThread := .execute task }
  | .execute task => some { w.execute task with taskThread := .taskHandler }
  | .returned => none

/-- `join` returns when the thread has. -/
def WorkerThread.join (w : WorkerThread) : Option WorkerThread :=
  if w.joinable then
    if w.taskThread = .returned then some { w with joinable := false } else none
  else some w

/-- The thread waits for a task, there is none, and it has not been stopped. -/
def WorkerThread.Idle (w : WorkerThread) : Prop :=
  w.taskThread = .waitForTask ∧ w.taskQueue = [] ∧ w.isTaskThreadActive = true

/-! ## The players -/

/-- `LoadRequest_MediaType`. -/
inductive LoadRequestMediaType
  | unknown
  | mse
  deriving DecidableEq, Repr

inductive MediaType
  | unknown
  | mse
  deriving DecidableEq, Repr

def convertMediaType : LoadRequestMediaType → MediaType
  | .unknown => .unknown
  | .mse => .mse

inductive Kind
  | generic
  | webAudio
  deriving DecidableEq, Repr

/-- What has to be there before the worker thread is started. -/
inductive Required
  | gstWrapper
  | glibWrapper
  | rdkGstreamerUtilsWrapper
  | gstSrc
  | timerFactory
  | protectionMetadataWrapper
  deriving DecidableEq, Repr

/-- What a call leaves: what it is for, nothing (or `false`), or an exception. -/
inductive Outcome
  | ok
  | null
  | thrown
  deriving DecidableEq, Repr

/-- The acts of a thread that constructs or destroys a player. -/
inductive Act
  | get (what : Required)
  | createWorkerThread
  | initialisePipeline (type : MediaType)
  | initWebAudioPipeline
  | createGstDispatcherThread (player : Kind)
  | enqueueShutdown
  | joinWorkerThread
  | resetWorkerThread
  | throw
  deriving DecidableEq, Repr

/-- `GstGenericPlayerFactory::createGstGenericPlayer`, with the constructor. -/
def createGstGenericPlayer (type : MediaType) : List Act :=
  [.get .gstWrapper, .get .glibWrapper, .get .rdkGstreamerUtilsWrapper, .get .gstSrc,
    .get .timerFactory, .get .protectionMetadataWrapper, .createWorkerThread,
    .initialisePipeline type, .createGstDispatcherThread .generic]

/-- `GstWebAudioPlayerFactory::createGstWebAudioPlayer`, with the constructor. -/
def createGstWebAudioPlayer : List Act :=
  [.get .gstWrapper, .get .glibWrapper, .get .gstSrc, .createWorkerThread, .initWebAudioPipeline,
    .createGstDispatcherThread .webAudio]

/-- `GstWebAudioPlayer::resetWorkerThread`. -/
def resetWorkerThread : List Act := [.enqueueShutdown, .joinWorkerThread, .resetWorkerThread]

/-- What the destructors do with the worker. -/
def destructor : Kind → List Act
  | .generic => [.enqueueShutdown, .joinWorkerThread, .resetWorkerThread]
  | .webAudio => resetWorkerThread

/-- How it goes on after an act: with the next, with other acts, or with an exception. -/
inductive Next
  | next
  | goto (acts : List Act)
  | throw
  deriving DecidableEq, Repr

/-- One act. The exceptions in `createWorkerThread` are caught by its factory, those of the calls
behind it are not; only `GstWebAudioPlayer` looks at whether there is a dispatcher thread. `none`:
the thread waits. -/
def execute (m_workerThread : Option WorkerThread) (o : Outcome) :
    Act → Option (Option WorkerThread × Next)
  | .get _ => some (m_workerThread, if o = .ok then .next else .throw)
  | .createWorkerThread =>
    if o = .ok then some (some .fresh, .next) else some (none, .throw)
  | .initialisePipeline type =>
    some (m_workerThread, if type = .mse ∧ o ≠ .thrown then .next else .throw)
  | .initWebAudioPipeline =>
    match o with
    | .ok => some (m_workerThread, .next)
    | .null => some (m_workerThread, .goto (resetWorkerThread ++ [.throw]))
    | .thrown => some (m_workerThread, .throw)
  | .createGstDispatcherThread player =>
    match o, player with
    | .ok, _ => some (m_workerThread, .next)
    | .null, .generic => some (m_workerThread, .next)
    | .null, .webAudio => some (m_workerThread, .goto (resetWorkerThread ++ [.throw]))
    | .thrown, _ => some (m_workerThread, .throw)
  | .enqueueShutdown => m_workerThread.map fun w => (some (w.enqueueTask .shutdown), .next)
  | .joinWorkerThread => (m_workerThread.bind WorkerThread.join).map fun w => (some w, .next)
  | .resetWorkerThread =>
    match m_workerThread with
    | none => some (none, .next)
    | some w => w.join.map fun _ => (none, .next)
  | .throw => some (m_workerThread, .throw)

/-- What a thread does with a player: the acts that are left, and what it is constructing. -/
structure Job where
  constructs : Option Kind
  acts : List Act
  deriving DecidableEq, Repr

/-- A player, from before it is constructed to after it has been destroyed. -/
structure GstPlayer where
  workerThread : Option WorkerThread
  constructed : Option Kind
  job : Option Job
  deriving DecidableEq, Repr

def GstPlayer.absent : GstPlayer := ⟨none, none, none⟩

/-- After an exception, the members are destroyed; there is no dispatcher thread yet. -/
def Job.after (job : Job) (acts : List Act) : Next → Job
  | .next => { job with acts }
  | .goto acts => { job with acts }
  | .throw => ⟨none, [.resetWorkerThread]⟩

def GstPlayer.advance (p : GstPlayer) (job : Job) (o : Outcome) : Option GstPlayer :=
  match job.acts with
  | [] => some { p with constructed := job.constructs, job := none }
  | act :: acts => (execute p.workerThread o act).map fun r =>
      { p with workerThread := r.1, job := some (job.after acts r.2) }

/-- The steps. The tasks that other threads enqueue are not `Shutdown` tasks. -/
inductive Step
  | createGstGenericPlayer (type : LoadRequestMediaType)
  | createGstWebAudioPlayer
  | destroy
  | advance (o : Outcome)
  | enqueueTask
  | worker
  deriving DecidableEq, Repr

def GstPlayer.step (p : GstPlayer) : Step → Option GstPlayer
  | .createGstGenericPlayer type =>
    if p.constructed = none ∧ p.job = none then
      some { p with
        job := some ⟨some .generic, Shutdown.createGstGenericPlayer (convertMediaType type)⟩ }
    else none
  | .createGstWebAudioPlayer =>
    if p.constructed = none ∧ p.job = none then
      some { p with job := some ⟨some .webAudio, Shutdown.createGstWebAudioPlayer⟩ }
    else none
  | .destroy =>
    match p.constructed, p.job with
    | some kind, none => some { p with job := some ⟨none, destructor kind⟩ }
    | _, _ => none
  | .advance o => p.job.bind fun job => p.advance job o
  | .enqueueTask => p.workerThread.map fun w =>
      { p with workerThread := some (w.enqueueTask .other) }
  | .worker => (p.workerThread.bind WorkerThread.run).map fun w =>
      { p with workerThread := some w }

/-- The players of the server, and a step of one of them. -/
def step (s : ℕ → GstPlayer) (a : ℕ × Step) : Option (ℕ → GstPlayer) :=
  ((s a.1).step a.2).map fun p => Function.update s a.1 p

def init : ℕ → GstPlayer := fun _ => .absent

/-! ## The worker until it returns -/

section Worker

variable {w w' : WorkerThread}

/-- The thread goes by what has been enqueued. -/
structure WorkerThread.Sound (w : WorkerThread) : Prop where
  queue : ∀ task ∈ w.taskQueue, task ∈ w.enqueued
  executing : ∀ task, w.taskThread = .execute task → task ∈ w.enqueued
  stopped : w.isTaskThreadActive = false →
    .shutdown ∈ w.enqueued ∧ (w.taskThread = .taskHandler ∨ w.taskThread = .returned)
  returned : w.taskThread = .returned → w.isTaskThreadActive = false
  shutdown : .shutdown ∈ w.enqueued →
    .shutdown ∈ w.taskQueue ∨ w.taskThread = .execute .shutdown ∨ w.isTaskThreadActive = false

theorem WorkerThread.sound_fresh : WorkerThread.fresh.Sound where
  queue := fun _ h => by cases h
  executing := fun _ h => by cases h
  stopped := fun h => by cases h
  returned := fun h => by cases h
  shutdown := fun h => by cases h

theorem WorkerThread.Sound.enqueueTask (h : w.Sound) (task : Task) :
    (w.enqueueTask task).Sound where
  queue := by
    intro x hx
    rcases List.mem_append.mp hx with hx | hx
    · exact List.mem_append_left _ (h.queue x hx)
    · exact List.mem_append_right _ hx
  executing := fun x hx => List.mem_append_left _ (h.executing x hx)
  stopped := fun hx => ⟨List.mem_append_left _ (h.stopped hx).1, (h.stopped hx).2⟩
  returned := h.returned
  shutdown := by
    intro hx
    rcases List.mem_append.mp hx with hx | hx
    · rcases h.shutdown hx with hx | hx
      · exact Or.inl (List.mem_append_left _ hx)
      · exact Or.inr hx
    · exact Or.inl (List.mem_append_right _ hx)

/-- A step of the thread. -/
theorem WorkerThread.run_cases (h : w.run = some w') :
    (w.taskThread = .taskHandler ∧ w.isTaskThreadActive = true ∧
      w' = { w with taskThread := .waitForTask }) ∨
    (w.taskThread = .taskHandler ∧ w.isTaskThreadActive = false ∧
      w' = { w with taskThread := .returned }) ∨
    (∃ task tasks, w.taskThread = .waitForTask ∧ w.taskQueue = task :: tasks ∧
      w' = { w with taskQueue := tasks, taskThread := .execute task }) ∨
    ∃ task, w.taskThread = .execute task ∧
      w' = { w.execute task with taskThread := .taskHandler } := by
  unfold WorkerThread.run at h
  split at h
  · next hthread =>
    cases hactive : w.isTaskThreadActive with
    | true => exact Or.inl ⟨hthread, rfl, by rw [hactive] at h; exact (Option.some.inj h).symm⟩
    | false =>
      exact Or.inr (Or.inl ⟨hthread, rfl, by rw [hactive] at h; exact (Option.some.inj h).symm⟩)
  · next hthread =>
    split at h
    · cases h
    · next task tasks hqueue =>
      exact Or.inr (Or.inr (Or.inl ⟨task, tasks, hthread, hqueue, (Option.some.inj h).symm⟩))
  · next task hthread => exact Or.inr (Or.inr (Or.inr ⟨task, hthread, (Option.some.inj h).symm⟩))
  · cases h

@[simp] theorem WorkerThread.execute_enqueued (task : Task) :
    (w.execute task).enqueued = w.enqueued := by cases task <;> rfl

@[simp] theorem WorkerThread.execute_joinable (task : Task) :
    (w.execute task).joinable = w.joinable := by cases task <;> rfl

@[simp] theorem WorkerThread.execute_taskQueue (task : Task) :
    (w.execute task).taskQueue = w.taskQueue := by cases task <;> rfl

theorem WorkerThread.run_frame (h : w.run = some w') :
    w'.enqueued = w.enqueued ∧ w'.joinable = w.joinable := by
  rcases run_cases h with ⟨-, -, rfl⟩ | ⟨-, -, rfl⟩ | ⟨task, tasks, -, -, rfl⟩ | ⟨task, -, rfl⟩
  · exact ⟨rfl, rfl⟩
  · exact ⟨rfl, rfl⟩
  · exact ⟨rfl, rfl⟩
  · exact ⟨execute_enqueued task, execute_joinable task⟩

theorem WorkerThread.Sound.run (h : w.Sound) (hrun : w.run = some w') : w'.Sound := by
  rcases run_cases hrun with ⟨hthread, hactive, rfl⟩ | ⟨hthread, hactive, rfl⟩ |
    ⟨task, tasks, hthread, hqueue, rfl⟩ | ⟨task, hthread, rfl⟩
  · refine ⟨h.queue, fun _ hx => (by cases hx), fun hx => ?_, fun hx => (by cases hx), fun hx => ?_⟩
    · rw [hactive] at hx
      cases hx
    · rcases h.shutdown hx with hx | hx | hx
      · exact Or.inl hx
      · rw [hthread] at hx
        cases hx
      · exact Or.inr (Or.inr hx)
  · exact ⟨h.queue, fun _ hx => (by cases hx), fun _ => ⟨(h.stopped hactive).1, Or.inr rfl⟩,
      fun _ => hactive, fun _ => Or.inr (Or.inr hactive)⟩
  · have hmem : ∀ x ∈ tasks, x ∈ w.taskQueue := fun x hx => hqueue ▸ List.mem_cons_of_mem _ hx
    refine ⟨fun x hx => h.queue x (hmem x hx), fun x hx => ?_, fun hx => ?_,
      fun hx => (by cases hx), fun hx => ?_⟩
    · cases hx
      exact h.queue task (hqueue ▸ List.mem_cons_self ..)
    · rcases (h.stopped hx).2 with hx | hx
      · rw [hthread] at hx
        cases hx
      · rw [hthread] at hx
        cases hx
    · rcases h.shutdown hx with hx | hx | hx
      · rw [hqueue] at hx
        rcases List.mem_cons.mp hx with rfl | hx
        · exact Or.inr (Or.inl rfl)
        · exact Or.inl hx
      · rw [hthread] at hx
        cases hx
      · exact Or.inr (Or.inr hx)
  · cases task with
    | shutdown =>
      exact ⟨h.queue, fun _ hx => (by cases hx), fun _ => ⟨h.executing _ hthread, Or.inl rfl⟩,
        fun hx => (by cases hx), fun _ => Or.inr (Or.inr rfl)⟩
    | other =>
      refine ⟨h.queue, fun _ hx => (by cases hx), fun hx => ⟨(h.stopped hx).1, Or.inl rfl⟩,
        fun hx => (by cases hx), fun hx => ?_⟩
      rcases h.shutdown hx with hx | hx | hx
      · exact Or.inl hx
      · rw [hthread] at hx
        cases hx
      · exact Or.inr (Or.inr hx)

/-- A thread that has its `Shutdown` task is not idle. -/
theorem WorkerThread.Sound.not_idle (h : w.Sound) (hshutdown : .shutdown ∈ w.enqueued) :
    ¬ w.Idle := by
  rintro ⟨hthread, hqueue, hactive⟩
  rcases h.shutdown hshutdown with hx | hx | hx
  · rw [hqueue] at hx
    cases hx
  · rw [hthread] at hx
    cases hx
  · rw [hactive] at hx
    cases hx

/-- A thread that has returned has had its `Shutdown` task. -/
theorem WorkerThread.Sound.of_returned (h : w.Sound) (hthread : w.taskThread = .returned) :
    .shutdown ∈ w.enqueued :=
  (h.stopped (h.returned hthread)).1

/-- How many steps the thread makes until it returns, when its `Shutdown` task has been
enqueued. -/
def WorkerThread.left (w : WorkerThread) : ℕ :=
  match w.taskThread with
  | .taskHandler => if w.isTaskThreadActive then 3 * w.taskQueue.idxOf .shutdown + 4 else 1
  | .waitForTask => 3 * w.taskQueue.idxOf .shutdown + 3
  | .execute .shutdown => 2
  | .execute .other => 3 * w.taskQueue.idxOf .shutdown + 5
  | .returned => 0

theorem WorkerThread.left_eq_zero : w.left = 0 ↔ w.taskThread = .returned := by
  unfold WorkerThread.left
  split
  · next hthread =>
    rw [hthread]
    split_ifs <;> simp
  all_goals next hthread => simp [hthread]

/-- **A step of the thread is one less.** -/
theorem WorkerThread.Sound.left_run (h : w.Sound) (hrun : w.run = some w') :
    w.left = w'.left + 1 := by
  rcases run_cases hrun with ⟨hthread, hactive, rfl⟩ | ⟨hthread, hactive, rfl⟩ |
    ⟨task, tasks, hthread, hqueue, rfl⟩ | ⟨task, hthread, rfl⟩
  · simp [WorkerThread.left, hthread, hactive]
  · simp [WorkerThread.left, hthread, hactive]
  · cases task with
    | shutdown => simp [WorkerThread.left, hthread, hqueue]
    | other =>
      have hidx : (Task.other :: tasks).idxOf .shutdown = tasks.idxOf .shutdown + 1 :=
        List.idxOf_cons_ne _ (fun h => by cases h)
      simp only [WorkerThread.left, hthread, hqueue, hidx]
      omega
  · cases task with
    | shutdown => simp [WorkerThread.left, hthread, WorkerThread.execute, WorkerThread.stop]
    | other =>
      have hactive : w.isTaskThreadActive = true := by
        by_contra hx
        rcases (h.stopped (Bool.not_eq_true _ ▸ hx)).2 with hx | hx
        · cases hthread.symm.trans hx
        · cases hthread.symm.trans hx
      simp [WorkerThread.left, hthread, WorkerThread.execute, hactive]

/-- What is enqueued behind the `Shutdown` task is not executed. -/
theorem WorkerThread.Sound.left_enqueueTask (h : w.Sound) (hshutdown : .shutdown ∈ w.enqueued)
    (task : Task) : (w.enqueueTask task).left = w.left := by
  have hidx : .shutdown ∈ w.taskQueue →
      (w.taskQueue ++ [task]).idxOf .shutdown = w.taskQueue.idxOf .shutdown :=
    List.idxOf_append_of_mem
  rcases h.shutdown hshutdown with hx | hx | hx
  · simp [WorkerThread.left, WorkerThread.enqueueTask, hidx hx]
  · simp [WorkerThread.left, WorkerThread.enqueueTask, hx]
  · rcases (h.stopped hx).2 with hthread | hthread
    · simp [WorkerThread.left, WorkerThread.enqueueTask, hx, hthread]
    · simp [WorkerThread.left, WorkerThread.enqueueTask, hthread]

/-- A thread that is not idle and has not returned goes on. -/
theorem WorkerThread.Sound.exists_run (h : w.Sound) (hshutdown : .shutdown ∈ w.enqueued)
    (hthread : w.taskThread ≠ .returned) : ∃ w', w.run = some w' := by
  unfold WorkerThread.run
  split
  · exact ⟨_, rfl⟩
  · next hwait =>
    split
    · next hqueue =>
      refine absurd ⟨hwait, hqueue, ?_⟩ (h.not_idle hshutdown)
      by_contra hx
      rcases (h.stopped (Bool.not_eq_true _ ▸ hx)).2 with hx | hx
      · cases hwait.symm.trans hx
      · cases hwait.symm.trans hx
    · exact ⟨_, rfl⟩
  · exact ⟨_, rfl⟩
  · next hreturned => exact absurd hreturned hthread

end Worker

/-! ## The acts -/

/-- How far the worker is: it has not been created, it runs, it has been told to stop, or it has
been joined. -/
inductive Status
  | absent
  | running
  | stopping
  | joined
  deriving DecidableEq, Repr

def status : Option WorkerThread → Status
  | none => .absent
  | some w =>
    if w.joinable then if .shutdown ∈ w.enqueued then .stopping else .running else .joined

/-- The acts only join a worker that has been told to stop, and in the end it runs if a player has
been constructed, and is gone otherwise. -/
def Checked (constructs : Option Kind) : Status → List Act → Prop
  | st, [] => st = if constructs.isSome then .running else .absent
  | st, .get _ :: acts => st = .absent ∧ Checked constructs .absent acts
  | st, .createWorkerThread :: acts => st = .absent ∧ Checked constructs .running acts
  | st, .initialisePipeline _ :: acts => st = .running ∧ Checked constructs .running acts
  | st, .initWebAudioPipeline :: acts => st = .running ∧ Checked constructs .running acts
  | st, .createGstDispatcherThread _ :: acts => st = .running ∧ Checked constructs .running acts
  | st, .enqueueShutdown :: acts => st = .running ∧ Checked constructs .stopping acts
  | st, .joinWorkerThread :: acts => st = .stopping ∧ Checked constructs .joined acts
  | st, .resetWorkerThread :: acts =>
    (st = .absent ∨ st = .joined) ∧ Checked constructs .absent acts
  | st, .throw :: _ => st = .absent

/-- The condition on an act and the outcome of its call. -/
def Fine (o : Outcome) : Act → Prop
  | .initialisePipeline type => type = .mse ∧ o ≠ .thrown
  | .initWebAudioPipeline => o ≠ .thrown
  | .createGstDispatcherThread _ => o ≠ .thrown
  | _ => True

instance (o : Outcome) (act : Act) : Decidable (Fine o act) := by
  unfold Fine
  cases act <;> infer_instance

theorem checked_createGstGenericPlayer (type : MediaType) :
    Checked (some .generic) .absent (createGstGenericPlayer type) :=
  ⟨rfl, rfl, rfl, rfl, rfl, rfl, rfl, rfl, rfl, rfl⟩

theorem checked_createGstWebAudioPlayer :
    Checked (some .webAudio) .absent createGstWebAudioPlayer :=
  ⟨rfl, rfl, rfl, rfl, rfl, rfl, rfl⟩

theorem checked_resetWorkerThread (constructs : Option Kind) :
    Checked constructs .running (resetWorkerThread ++ [.throw]) :=
  ⟨rfl, rfl, Or.inr rfl, rfl⟩

theorem checked_destructor (kind : Kind) : Checked none .running (destructor kind) := by
  cases kind with
  | generic => exact ⟨rfl, rfl, Or.inr rfl, rfl⟩
  | webAudio => exact ⟨rfl, rfl, Or.inr rfl, rfl⟩

/-- What is left to do after an exception. -/
theorem checked_unwind : Checked none .absent [.resetWorkerThread] := ⟨Or.inl rfl, rfl⟩

section Status

variable {m m' : Option WorkerThread} {w w' : WorkerThread}

theorem status_absent_iff : status m = .absent ↔ m = none := by
  cases m with
  | none => exact ⟨fun _ => rfl, fun _ => rfl⟩
  | some w =>
    refine ⟨fun h => ?_, fun h => by cases h⟩
    simp only [status] at h
    split_ifs at h

theorem status_running_iff : status m = .running ↔
    ∃ w, m = some w ∧ w.joinable = true ∧ .shutdown ∉ w.enqueued := by
  cases m with
  | none => exact ⟨fun h => (by cases h), fun ⟨_, h, _⟩ => by cases h⟩
  | some w =>
    simp only [status, Option.some.injEq, exists_eq_left']
    split_ifs with hjoinable hshutdown
    · simp [hshutdown]
    · simp [hjoinable, hshutdown]
    · simp [hjoinable]

theorem status_stopping_iff : status m = .stopping ↔
    ∃ w, m = some w ∧ w.joinable = true ∧ .shutdown ∈ w.enqueued := by
  cases m with
  | none => exact ⟨fun h => (by cases h), fun ⟨_, h, _⟩ => by cases h⟩
  | some w =>
    simp only [status, Option.some.injEq, exists_eq_left']
    split_ifs with hjoinable hshutdown
    · simp [hjoinable, hshutdown]
    · simp [hshutdown]
    · simp [hjoinable]

theorem status_joined_iff : status m = .joined ↔ ∃ w, m = some w ∧ w.joinable = false := by
  cases m with
  | none => exact ⟨fun h => (by cases h), fun ⟨_, h, _⟩ => by cases h⟩
  | some w =>
    simp only [status, Option.some.injEq, exists_eq_left']
    split_ifs with hjoinable hshutdown
    · simp [hjoinable]
    · simp [hjoinable]
    · simp [hjoinable]

/-- The status is one of what has been enqueued and whether the thread can be joined. -/
theorem status_congr (henqueued : .shutdown ∈ w'.enqueued ↔ .shutdown ∈ w.enqueued)
    (hjoinable : w'.joinable = w.joinable) : status (some w') = status (some w) := by
  simp only [status, henqueued, hjoinable]

theorem status_run (h : w.run = some w') : status (some w') = status (some w) := by
  obtain ⟨henqueued, hjoinable⟩ := WorkerThread.run_frame h
  exact status_congr (by rw [henqueued]) hjoinable

theorem status_enqueueTask : status (some (w.enqueueTask .other)) = status (some w) :=
  status_congr (by simp [WorkerThread.enqueueTask]) rfl

theorem WorkerThread.join_eq (h : w.join = some w') :
    w' = { w with joinable := false } ∧ (w.joinable = true → w.taskThread = .returned) := by
  unfold WorkerThread.join at h
  split_ifs at h with hjoinable hthread
  · exact ⟨(Option.some.inj h).symm, fun _ => hthread⟩
  · cases h
    refine ⟨?_, fun h => absurd h hjoinable⟩
    rw [Bool.not_eq_true] at hjoinable
    rw [← hjoinable]

theorem WorkerThread.Sound.joined (h : w.Sound) : ({ w with joinable := false } : _).Sound :=
  ⟨h.queue, h.executing, h.stopped, h.returned, h.shutdown⟩

/-- **One act.** -/
theorem execute_spec {job : Job} {o : Outcome} {act : Act} {acts : List Act} {n : Next}
    (hsound : ∀ w, m = some w → w.Sound)
    (hchecked : Checked job.constructs (status m) (act :: acts))
    (h : execute m o act = some (m', n)) :
    (∀ w, m' = some w → w.Sound) ∧
      (Fine o act → Checked (job.after acts n).constructs (status m') (job.after acts n).acts) ∧
      (¬ Fine o act → n = .throw ∧ status m' = .running) := by
  cases act with
  | get what =>
    obtain ⟨hst, hrest⟩ := hchecked
    cases h
    refine ⟨hsound, fun _ => ?_, fun hf => absurd trivial hf⟩
    rw [hst]
    split_ifs
    · exact hrest
    · exact checked_unwind
  | createWorkerThread =>
    obtain ⟨-, hrest⟩ := hchecked
    simp only [execute] at h
    split_ifs at h
    · cases h
      refine ⟨fun w hw => ?_, fun _ => hrest, fun hf => absurd trivial hf⟩
      cases hw
      exact WorkerThread.sound_fresh
    · cases h
      exact ⟨fun _ hw => (by cases hw), fun _ => checked_unwind, fun hf => absurd trivial hf⟩
  | initialisePipeline type =>
    obtain ⟨hst, hrest⟩ := hchecked
    cases h
    refine ⟨hsound, fun hf => ?_, fun hf => ⟨if_neg hf, hst⟩⟩
    rw [hst, if_pos (show type = .mse ∧ o ≠ .thrown from hf)]
    exact hrest
  | initWebAudioPipeline =>
    obtain ⟨hst, hrest⟩ := hchecked
    cases o with
    | ok =>
      cases h
      refine ⟨hsound, fun _ => ?_, fun hf => absurd (fun h => by cases h) hf⟩
      rw [hst]
      exact hrest
    | null =>
      cases h
      refine ⟨hsound, fun _ => ?_, fun hf => absurd (fun h => by cases h) hf⟩
      rw [hst]
      exact checked_resetWorkerThread _
    | thrown =>
      cases h
      exact ⟨hsound, fun hf => absurd rfl hf, fun _ => ⟨rfl, hst⟩⟩
  | createGstDispatcherThread player =>
    obtain ⟨hst, hrest⟩ := hchecked
    cases o with
    | ok =>
      cases h
      refine ⟨hsound, fun _ => ?_, fun hf => absurd (fun h => by cases h) hf⟩
      rw [hst]
      exact hrest
    | null =>
      cases player with
      | generic =>
        cases h
        refine ⟨hsound, fun _ => ?_, fun hf => absurd (fun h => by cases h) hf⟩
        rw [hst]
        exact hrest
      | webAudio =>
        cases h
        refine ⟨hsound, fun _ => ?_, fun hf => absurd (fun h => by cases h) hf⟩
        rw [hst]
        exact checked_resetWorkerThread _
    | thrown =>
      cases h
      exact ⟨hsound, fun hf => absurd rfl hf, fun _ => ⟨rfl, hst⟩⟩
  | enqueueShutdown =>
    obtain ⟨hst, hrest⟩ := hchecked
    obtain ⟨w, rfl, hjoinable, -⟩ := status_running_iff.mp hst
    cases h
    have hmem : .shutdown ∈ (w.enqueueTask .shutdown).enqueued :=
      List.mem_append_right _ (List.mem_singleton_self _)
    have hstopping : status (some (w.enqueueTask .shutdown)) = .stopping :=
      status_stopping_iff.mpr ⟨_, rfl, hjoinable, hmem⟩
    refine ⟨fun w' hw' => ?_, fun _ => ?_, fun hf => absurd trivial hf⟩
    · cases hw'
      exact (hsound w rfl).enqueueTask _
    · rw [hstopping]
      exact hrest
  | joinWorkerThread =>
    obtain ⟨hst, hrest⟩ := hchecked
    obtain ⟨w, rfl, -, -⟩ := status_stopping_iff.mp hst
    obtain ⟨w', hjoin, heq⟩ := Option.map_eq_some_iff.mp h
    cases heq
    obtain ⟨rfl, -⟩ := WorkerThread.join_eq hjoin
    have hjoined : status (some { w with joinable := false }) = .joined :=
      status_joined_iff.mpr ⟨_, rfl, rfl⟩
    refine ⟨fun w' hw' => ?_, fun _ => ?_, fun hf => absurd trivial hf⟩
    · cases hw'
      exact (hsound w rfl).joined
    · rw [hjoined]
      exact hrest
  | resetWorkerThread =>
    obtain ⟨-, hrest⟩ := hchecked
    have hnone : m' = none ∧ n = .next := by
      cases m with
      | none =>
        cases h
        exact ⟨rfl, rfl⟩
      | some w =>
        obtain ⟨w', -, heq⟩ := Option.map_eq_some_iff.mp h
        cases heq
        exact ⟨rfl, rfl⟩
    obtain ⟨rfl, rfl⟩ := hnone
    exact ⟨fun _ hw => (by cases hw), fun _ => hrest, fun hf => absurd trivial hf⟩
  | throw =>
    have hst : status m = .absent := hchecked
    cases h
    refine ⟨hsound, fun _ => ?_, fun hf => absurd trivial hf⟩
    rw [hst]
    exact checked_unwind

end Status

/-! ## The players -/

/-- A thread has got to where it joins the worker. -/
def GstPlayer.JoinReached (p : GstPlayer) (w : WorkerThread) : Prop :=
  p.workerThread = some w ∧ w.joinable = true ∧ ∃ job acts, p.job = some job ∧
    (job.acts = .joinWorkerThread :: acts ∨ job.acts = .resetWorkerThread :: acts)

/-- Where the worker is joined, a `Shutdown` task has been enqueued, and the worker is not idle. -/
def GstPlayer.Safe (p : GstPlayer) : Prop :=
  ∀ w, p.JoinReached w → .shutdown ∈ w.enqueued ∧ ¬ w.Idle

/-- The condition on a step. -/
def GstPlayer.Good (p : GstPlayer) : Step → Prop
  | .advance o => ∀ job ∈ p.job, ∀ act ∈ job.acts.head?, Fine o act
  | _ => True

instance (p : GstPlayer) (a : Step) : Decidable (p.Good a) := by
  unfold GstPlayer.Good
  cases a <;> infer_instance

/-- After an exception, the worker is joined that nobody told to stop. -/
def GstPlayer.Stuck (p : GstPlayer) : Prop :=
  p.job = some ⟨none, [.resetWorkerThread]⟩ ∧ status p.workerThread = .running

structure GstPlayer.Inv (p : GstPlayer) : Prop where
  sound : ∀ w, p.workerThread = some w → w.Sound
  idle : p.job = none →
    status p.workerThread = if p.constructed.isSome then .running else .absent
  job : ∀ job, p.job = some job →
    Checked job.constructs (status p.workerThread) job.acts ∨ p.Stuck

theorem GstPlayer.inv_absent : GstPlayer.absent.Inv where
  sound := fun _ h => by cases h
  idle := fun _ => rfl
  job := fun _ h => by cases h

section Players

variable {p p' : GstPlayer}

theorem GstPlayer.Inv.status_absent (h : p.Inv) (hconstructed : p.constructed = none)
    (hjob : p.job = none) : status p.workerThread = .absent := by
  rw [h.idle hjob, hconstructed]
  rfl

theorem GstPlayer.Inv.status_running (h : p.Inv) {kind : Kind}
    (hconstructed : p.constructed = some kind) (hjob : p.job = none) :
    status p.workerThread = .running := by
  rw [h.idle hjob, hconstructed]
  rfl

theorem GstPlayer.Inv.safe_iff (h : p.Inv) : p.Safe ↔ ¬ p.Stuck := by
  constructor
  · rintro hsafe ⟨hjob, hst⟩
    obtain ⟨w, hw, hjoinable, hshutdown⟩ := status_running_iff.mp hst
    exact hshutdown (hsafe w ⟨hw, hjoinable, _, [], hjob, Or.inr rfl⟩).1
  · rintro hstuck w ⟨hw, hjoinable, job, acts, hjob, hacts⟩
    have hchecked := (h.job job hjob).resolve_right hstuck
    have hshutdown : .shutdown ∈ w.enqueued := by
      rcases hacts with hacts | hacts
      · rw [hacts] at hchecked
        obtain ⟨w', hw', -, hshutdown⟩ := status_stopping_iff.mp hchecked.1
        cases hw.symm.trans hw'
        exact hshutdown
      · rw [hacts] at hchecked
        rcases hchecked.1 with hst | hst
        · cases hw.symm.trans (status_absent_iff.mp hst)
        · obtain ⟨w', hw', hjoined⟩ := status_joined_iff.mp hst
          cases hw.symm.trans hw'
          rw [hjoinable] at hjoined
          cases hjoined
    exact ⟨hshutdown, (h.sound w hw).not_idle hshutdown⟩

/-- The thread that constructs or destroys the player goes on. -/
theorem GstPlayer.Inv.advance (h : p.Inv) {job : Job} (hjob : p.job = some job) {o : Outcome}
    (hstep : p.advance job o = some p') :
    p'.Inv ∧ (¬ p.Stuck → (p'.Stuck ↔ ¬ p.Good (.advance o))) := by
  unfold GstPlayer.advance at hstep
  split at hstep
  · next hacts =>
    cases hstep
    have hnot : ¬ p.Stuck := by
      rintro ⟨hjob', -⟩
      cases hjob.symm.trans hjob'
      cases hacts
    have hchecked := (h.job job hjob).resolve_right hnot
    rw [hacts] at hchecked
    refine ⟨⟨h.sound, fun _ => hchecked, fun _ h' => by cases h'⟩, fun _ => ?_⟩
    refine ⟨fun h' => (by cases h'.1), fun hgood => absurd (fun job' hj act ha => ?_) hgood⟩
    cases hjob.symm.trans hj
    rw [hacts] at ha
    cases ha
  · next act acts hacts =>
    obtain ⟨⟨m', n⟩, hexecute, rfl⟩ := Option.map_eq_some_iff.mp hstep
    have hgood : p.Good (.advance o) ↔ Fine o act := by
      refine ⟨fun hg => hg job hjob act (hacts ▸ rfl), fun hf job' hj act' ha => ?_⟩
      cases hjob.symm.trans hj
      rw [hacts] at ha
      cases ha
      exact hf
    rcases h.job job hjob with hchecked | hstuck
    · rw [hacts] at hchecked
      obtain ⟨hsound, hfine, hbad⟩ := execute_spec h.sound hchecked hexecute
      have hiff : GstPlayer.Stuck ⟨m', p.constructed, some (job.after acts n)⟩ ↔
          ¬ Fine o act := by
        constructor
        · rintro ⟨hj, hst⟩ hf
          have hc := hfine hf
          rw [Option.some.inj hj] at hc
          rcases hc.1 with h' | h'
          · cases hst.symm.trans h'
          · cases hst.symm.trans h'
        · intro hf
          obtain ⟨rfl, hst⟩ := hbad hf
          exact ⟨rfl, hst⟩
      refine ⟨⟨hsound, fun hj => (by cases hj), fun job' hj => ?_⟩, fun _ => ?_⟩
      · cases hj
        by_cases hf : Fine o act
        · exact Or.inl (hfine hf)
        · exact Or.inr (hiff.mpr hf)
      · rw [hgood]
        exact hiff
    · -- the worker would have to return first, but nobody told it to
      exfalso
      obtain ⟨w, hw, hjoinable, hshutdown⟩ := status_running_iff.mp hstuck.2
      cases hjob.symm.trans hstuck.1
      cases hacts
      rw [hw] at hexecute
      obtain ⟨w', hjoin, -⟩ := Option.map_eq_some_iff.mp hexecute
      exact hshutdown ((h.sound w hw).of_returned ((WorkerThread.join_eq hjoin).2 hjoinable))

/-- The worker changes, but not its status. -/
theorem GstPlayer.Inv.worker (h : p.Inv) {w w' : WorkerThread} (hw : p.workerThread = some w)
    (hsound : w'.Sound) (hst : status (some w') = status (some w)) :
    ({ p with workerThread := some w' } : GstPlayer).Inv ∧
      (({ p with workerThread := some w' } : GstPlayer).Stuck ↔ p.Stuck) := by
  have hstuck : ({ p with workerThread := some w' } : GstPlayer).Stuck ↔ p.Stuck := by
    simp only [GstPlayer.Stuck, hst, hw]
  refine ⟨⟨fun x hx => ?_, fun hj => ?_, fun job hj => ?_⟩, hstuck⟩
  · cases hx
    exact hsound
  · rw [hst, ← hw]
    exact h.idle hj
  · rw [hst, ← hw, hstuck]
    exact h.job job hj

/-- A thread begins to construct or to destroy the player. -/
theorem GstPlayer.Inv.begin (h : p.Inv) (job : Job)
    (hchecked : Checked job.constructs (status p.workerThread) job.acts) :
    ({ p with job := some job } : GstPlayer).Inv ∧
      ¬ ({ p with job := some job } : GstPlayer).Stuck := by
  refine ⟨⟨h.sound, fun hj => (by cases hj), fun job' hj => ?_⟩, ?_⟩
  · cases hj
    exact Or.inl hchecked
  · rintro ⟨hj, hst⟩
    cases hj
    rcases hchecked.1 with h' | h'
    · cases hst.symm.trans h'
    · cases hst.symm.trans h'

/-- **One step of a player.** -/
theorem GstPlayer.Inv.step (h : p.Inv) {a : Step} (hstep : p.step a = some p') :
    p'.Inv ∧ (¬ p.Stuck → (p'.Stuck ↔ ¬ p.Good a)) := by
  cases a with
  | createGstGenericPlayer type =>
    simp only [GstPlayer.step] at hstep
    split_ifs at hstep with hcond
    cases hstep
    have hchecked := checked_createGstGenericPlayer (convertMediaType type)
    rw [← h.status_absent hcond.1 hcond.2] at hchecked
    obtain ⟨hinv, hnot⟩ := h.begin ⟨some .generic, _⟩ hchecked
    exact ⟨hinv, fun _ => ⟨fun hs => absurd hs hnot, fun hg => absurd trivial hg⟩⟩
  | createGstWebAudioPlayer =>
    simp only [GstPlayer.step] at hstep
    split_ifs at hstep with hcond
    cases hstep
    have hchecked := checked_createGstWebAudioPlayer
    rw [← h.status_absent hcond.1 hcond.2] at hchecked
    obtain ⟨hinv, hnot⟩ := h.begin ⟨some .webAudio, _⟩ hchecked
    exact ⟨hinv, fun _ => ⟨fun hs => absurd hs hnot, fun hg => absurd trivial hg⟩⟩
  | destroy =>
    simp only [GstPlayer.step] at hstep
    split at hstep
    · next kind hconstructed hjob =>
      cases hstep
      have hchecked := checked_destructor kind
      rw [← h.status_running hconstructed hjob] at hchecked
      obtain ⟨hinv, hnot⟩ := h.begin ⟨none, _⟩ hchecked
      exact ⟨hinv, fun _ => ⟨fun hs => absurd hs hnot, fun hg => absurd trivial hg⟩⟩
    · cases hstep
  | advance o =>
    obtain ⟨job, hjob, hadvance⟩ := Option.bind_eq_some_iff.mp hstep
    exact h.advance hjob hadvance
  | enqueueTask =>
    obtain ⟨w, hw, rfl⟩ := Option.map_eq_some_iff.mp hstep
    obtain ⟨hinv, hstuck⟩ := h.worker hw ((h.sound w hw).enqueueTask .other) status_enqueueTask
    exact ⟨hinv, fun hnot => ⟨fun hs => absurd (hstuck.mp hs) hnot, fun hg => absurd trivial hg⟩⟩
  | worker =>
    obtain ⟨w', hrun, rfl⟩ := Option.map_eq_some_iff.mp hstep
    obtain ⟨w, hw, hrun⟩ := Option.bind_eq_some_iff.mp hrun
    obtain ⟨hinv, hstuck⟩ := h.worker hw ((h.sound w hw).run hrun) (status_run hrun)
    exact ⟨hinv, fun hnot => ⟨fun hs => absurd (hstuck.mp hs) hnot, fun hg => absurd trivial hg⟩⟩

end Players

/-! ## Runs -/

def Inv (s : ℕ → GstPlayer) : Prop := ∀ i, (s i).Inv

def Safe (s : ℕ → GstPlayer) : Prop := ∀ i, (s i).Safe

/-- The condition on a step: a generic player gets to its pipeline only with MSE, and no call behind
the start of the worker throws. -/
def Good (s : ℕ → GstPlayer) (a : ℕ × Step) : Prop := (s a.1).Good a.2

instance (s : ℕ → GstPlayer) (a : ℕ × Step) : Decidable (Good s a) := by
  unfold Good
  infer_instance

theorem inv_init : Inv init := fun _ => GstPlayer.inv_absent

theorem step_spec {s t : ℕ → GstPlayer} {a : ℕ × Step} (hinv : Inv s) (hstep : step s a = some t) :
    Inv t ∧ (Safe s → (Safe t ↔ Good s a)) := by
  obtain ⟨p, hp, rfl⟩ := Option.map_eq_some_iff.mp hstep
  obtain ⟨hpinv, hstuck⟩ := (hinv a.1).step hp
  have hother : ∀ i ≠ a.1, Function.update s a.1 p i = s i := fun i hi =>
    Function.update_of_ne hi ..
  refine ⟨fun i => ?_, fun hsafe => ?_⟩
  · by_cases hi : i = a.1
    · rw [hi, Function.update_self]
      exact hpinv
    · rw [hother i hi]
      exact hinv i
  · have hiff : p.Safe ↔ Good s a := by
      rw [hpinv.safe_iff, hstuck ((hinv a.1).safe_iff.mp (hsafe a.1)), not_not]
      rfl
    rw [← hiff]
    refine ⟨fun ht => ?_, fun hps i => ?_⟩
    · have := ht a.1
      rwa [Function.update_self] at this
    · by_cases hi : i = a.1
      · rw [hi, Function.update_self]
        exact hps
      · rw [hother i hi]
        exact hsafe i

/-- **When every join is reached after a `Shutdown` task.** -/
theorem shutdown_iff {as : List (ℕ × Step)} {u : ℕ → GstPlayer}
    (hrun : Run step (fun _ _ => True) init as u) :
    (∀ pre post t, as = pre ++ post → Run step (fun _ _ => True) init pre t → Safe t) ↔
      ∀ a t, Occurs step (fun _ _ => True) init as a t → Good t a :=
  Run.always_iff Inv Safe Good inv_init (fun _ _ _ hs hstep => (step_spec hs hstep).1)
    (fun i => (inv_init i).safe_iff.mpr fun h => by cases h.1)
    (fun _ _ _ hinv hsafe hstep => (step_spec hinv hstep).2 hsafe) hrun

/-! ## The end of a join -/

section Terminates

variable {p p' : GstPlayer} {w : WorkerThread}

/-- While the join waits, only the worker and the threads that enqueue tasks go on. -/
theorem GstPlayer.JoinReached.step (h : p.JoinReached w) (hsound : w.Sound)
    (hshutdown : .shutdown ∈ w.enqueued) {a : Step} (ha : ∀ o, a ≠ .advance o)
    (hstep : p.step a = some p') : ∃ w', p'.JoinReached w' ∧ w'.Sound ∧ .shutdown ∈ w'.enqueued ∧
      [a].count .worker + w'.left = w.left := by
  obtain ⟨hw, hjoinable, job, acts, hjob, hacts⟩ := h
  cases a with
  | createGstGenericPlayer type =>
    simp only [GstPlayer.step] at hstep
    split_ifs at hstep with hcond
    cases hjob.symm.trans hcond.2
  | createGstWebAudioPlayer =>
    simp only [GstPlayer.step] at hstep
    split_ifs at hstep with hcond
    cases hjob.symm.trans hcond.2
  | destroy =>
    simp only [GstPlayer.step, hjob] at hstep
    split at hstep
    · next h' => cases h'
    · cases hstep
  | advance o => exact absurd rfl (ha o)
  | enqueueTask =>
    simp only [GstPlayer.step, hw, Option.map_some, Option.some.injEq] at hstep
    subst hstep
    refine ⟨_, ⟨rfl, hjoinable, job, acts, hjob, hacts⟩, hsound.enqueueTask .other,
      List.mem_append_left _ hshutdown, ?_⟩
    rw [hsound.left_enqueueTask hshutdown]
    exact Nat.zero_add _
  | worker =>
    simp only [GstPlayer.step, hw, Option.bind_some] at hstep
    obtain ⟨w', hrun, rfl⟩ := Option.map_eq_some_iff.mp hstep
    obtain ⟨henqueued, hjoinable'⟩ := WorkerThread.run_frame hrun
    refine ⟨w', ⟨rfl, hjoinable' ▸ hjoinable, job, acts, hjob, hacts⟩, hsound.run hrun,
      henqueued ▸ hshutdown, ?_⟩
    rw [hsound.left_run hrun, List.count_singleton_self, Nat.add_comm]

theorem GstPlayer.JoinReached.advance (h : p.JoinReached w) (hthread : w.taskThread = .returned)
    (o : Outcome) : ∃ p', p.step (.advance o) = some p' := by
  obtain ⟨hw, hjoinable, job, acts, hjob, hacts⟩ := h
  have hjoin : w.join = some { w with joinable := false } := by
    rw [WorkerThread.join, if_pos hjoinable, if_pos hthread]
  rcases hacts with hacts | hacts
  · simp [GstPlayer.step, hjob, GstPlayer.advance, hacts, execute, hw, hjoin]
  · simp [GstPlayer.step, hjob, GstPlayer.advance, hacts, execute, hw, hjoin]

theorem GstPlayer.JoinReached.worker (h : p.JoinReached w) {w' : WorkerThread}
    (hrun : w.run = some w') : ∃ p', p.step .worker = some p' :=
  ⟨_, by simp only [GstPlayer.step, h.1, Option.bind_some, hrun, Option.map_some]; rfl⟩

end Terminates

/-- **A join returns.** From where it waits for a worker with a `Shutdown` task, the steps that the
worker has made and those that are left are `left`; it can make the next one, and when it has
returned, the join does. -/
theorem join_terminates {s u : ℕ → GstPlayer} (hinv : Inv s) {i : ℕ} {w : WorkerThread}
    (hjoin : (s i).JoinReached w) (hshutdown : .shutdown ∈ w.enqueued) {as : List (ℕ × Step)}
    (hrun : Run step (fun _ a => ∀ o, a ≠ (i, .advance o)) s as u) :
    ∃ w', (u i).JoinReached w' ∧ as.count (i, .worker) + w'.left = w.left ∧
      (w'.left ≠ 0 → ∃ v, step u (i, .worker) = some v) ∧
      (w'.left = 0 → ∀ o, ∃ v, step u (i, .advance o) = some v) := by
  have hspec : ∃ w', (u i).JoinReached w' ∧ w'.Sound ∧ .shutdown ∈ w'.enqueued ∧
      as.count (i, .worker) + w'.left = w.left := by
    refine Run.history (P := fun as u => ∃ w', (u i).JoinReached w' ∧ w'.Sound ∧
      .shutdown ∈ w'.enqueued ∧ as.count (i, .worker) + w'.left = w.left)
      ⟨w, hjoin, (hinv i).sound w hjoin.1, hshutdown, Nat.zero_add _⟩ ?_ hrun
    rintro as t ⟨j, a⟩ v - ⟨w', ht, hsound, hshutdown', hcount⟩ hok hstep
    obtain ⟨p, hp, rfl⟩ := Option.map_eq_some_iff.mp hstep
    rw [List.count_append]
    by_cases hj : j = i
    · subst hj
      obtain ⟨w₁, hp', hsound₁, hshutdown₁, hcount₁⟩ :=
        ht.step hsound hshutdown' (fun o h => hok o (h ▸ rfl)) hp
      have hcount₂ : [(j, a)].count (j, Step.worker) = [a].count .worker := by
        simp only [List.count_singleton]
        congr 1
        simp
      refine ⟨w₁, ?_, hsound₁, hshutdown₁, ?_⟩
      · simp only [Function.update_self]
        exact hp'
      · omega
    · have hcount₂ : [(j, a)].count (i, Step.worker) = 0 := by
        rw [List.count_eq_zero, List.mem_singleton]
        exact fun h => hj (congrArg Prod.fst h).symm
      refine ⟨w', ?_, hsound, hshutdown', ?_⟩
      · simp only [Function.update_of_ne (Ne.symm hj)]
        exact ht
      · omega
  obtain ⟨w', hu, hsound, hshutdown', hcount⟩ := hspec
  refine ⟨w', hu, hcount, fun hleft => ?_, fun hleft o => ?_⟩
  · obtain ⟨w₁, hw₁⟩ :=
      hsound.exists_run hshutdown' fun h => hleft (WorkerThread.left_eq_zero.mpr h)
    obtain ⟨p, hp⟩ := hu.worker hw₁
    exact ⟨_, Option.map_eq_some_iff.mpr ⟨p, hp, rfl⟩⟩
  · obtain ⟨p, hp⟩ := hu.advance (WorkerThread.left_eq_zero.mp hleft) o
    exact ⟨_, Option.map_eq_some_iff.mpr ⟨p, hp, rfl⟩⟩

/-! ## Two runs -/

/-- The thread that constructs or destroys player `i` goes on `n` times, and every call succeeds. -/
def going (i n : ℕ) : List (ℕ × Step) := List.replicate n (i, .advance .ok)

/-- A generic player is constructed, gets a task and is destroyed; meanwhile, a web audio player has
no pipeline, and its worker is shut down. -/
def shuttingDown : List (ℕ × Step) :=
  List.flatten [[(0, .createGstGenericPlayer .mse)], going 0 10, [(1, .createGstWebAudioPlayer)],
    going 1 4, [(1, .advance .null), (1, .worker)], going 1 1,
    [(0, .enqueueTask), (1, .worker), (1, .worker), (1, .worker)], going 1 5, [(0, .destroy)],
    going 0 1, List.replicate 7 (0, .worker), going 0 3]

theorem shutdown_both : ∃ u, Run step (fun _ _ => True) init shuttingDown u ∧
    (u 0, u 1) = (.absent, .absent) ∧ Safe u := by
  obtain ⟨u, hgood, hu⟩ : ∃ u, Run step Good init shuttingDown u ∧
      (u 0, u 1) = (.absent, .absent) :=
    Run.exists_of_runsIf (fun u : ℕ → GstPlayer => (u 0, u 1)) _ (by decide +kernel)
      fun _ _ hu => hu
  have hrun : Run step (fun _ _ => True) init shuttingDown u := hgood.mono fun _ _ _ => trivial
  exact ⟨u, hrun, hu, (shutdown_iff hrun).mpr (fun a t h => hgood.occurs_ok h) _ []
    u (List.append_nil _).symm hrun⟩

/-- A generic player for a media type that is not known: the constructor throws, and joins a worker
that waits for a task. -/
theorem unknown_media_type_joined :
    ¬ ∀ as u, Run step (fun _ _ => True) init as u → Safe u := by
  intro hall
  obtain ⟨u, hrun, hu⟩ : ∃ u, Run step (fun _ _ => True) init
      ((0, .createGstGenericPlayer .unknown) :: going 0 8 ++ [(0, .worker)]) u ∧
      u 0 = ⟨some ⟨true, .waitForTask, true, [], []⟩, none, some ⟨none, [.resetWorkerThread]⟩⟩ :=
    Run.exists_of_runs (fun u : ℕ → GstPlayer => u 0) _ (by decide +kernel) fun _ _ hu => hu
  have hsafe := hall _ u hrun 0
  rw [hu] at hsafe
  exact (hsafe _ ⟨rfl, rfl, _, [], rfl, Or.inr rfl⟩).2 ⟨rfl, rfl, rfl⟩

end Rialto.Player.Shutdown
