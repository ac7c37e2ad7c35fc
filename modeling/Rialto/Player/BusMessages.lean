import Mathlib.Data.List.Infix
import Rialto.Client.MediaPipeline
import Rialto.Lib.Queue
import Rialto.Player.PlaybackRate

/-! # The messages of the bus

`GstDispatcherThread` takes the messages of a pipeline from its bus and gives them to its player,
which makes a task of each for its worker thread; the task tells the client. The dispatcher ends
when the pipeline has reported NULL or an error, or when the player is destroyed: the destructor
joins the dispatcher, puts a `Shutdown` task behind all others, and joins the worker.

A step is an iteration of a thread, or a part of one; any thread may put other tasks into the queue
of the worker. Some of these wait for the main thread in `enqueueTaskAndWait`, and it may be the
main thread that destroys the player.

* `report`, `reportWebAudio`: what the tasks of the two players do with a message.
* `Inv`: a message that was taken from the bus is done with, or on its way, in order; behind one
  that ends the dispatcher there is none.
* `messages_reported`: what the client is told at any time, and that in the end every message taken
  from the bus was handled, once.
* `stopped_is_last`: once a client is told STOPPED, no message tells it anything more.
* `destructor_returns`: when the destructor can return, and when it never does. -/

namespace Rialto.Player.BusMessages

open Rialto.Lib.Queue Rialto.Lib.Runs
open Rialto.Client.MediaPipeline (PlaybackState)
open Rialto.Media.Segment (MediaSourceType)
open Rialto.Player.PlaybackRate (GstState)

/-! ## Messages -/

inductive GstFormat
  | undefined
  | default
  | bytes
  | time
  | buffers
  | percent
  deriving DecidableEq, Repr

/-- The types of messages that the dispatcher asks for, with what the tasks read, and the others. -/
inductive Content
  | stateChanged (newState pending : GstState)
  | eos
  | qos (format : GstFormat) (processed dropped : ℕ) (klass : String)
  | error
  | other
  deriving DecidableEq

/-- A message, and whether it comes from the pipeline itself or from an element in it. -/
structure Message where
  fromPipeline : Bool
  content : Content
  deriving DecidableEq

/-- The filter of `gstBusTimedPopFiltered`. -/
def Message.wanted (m : Message) : Bool :=
  match m.content with
  | .other => false
  | _ => true

/-- The dispatcher ends with this message. -/
def Message.stops (m : Message) : Bool :=
  match m.content with
  | .stateChanged .null _ => m.fromPipeline
  | .error => m.fromPipeline
  | _ => false

/-! ## What the tasks do -/

inductive WebAudioPlayerState
  | unknown
  | idle
  | playing
  | paused
  | endOfStream
  | failure
  deriving DecidableEq, Repr

/-- What a task does; `setPendingPlaybackRate` is done if a rate is pending. -/
inductive Effect
  | notifyPlaybackState (state : PlaybackState)
  | notifyState (state : WebAudioPlayerState)
  | notifyQos (type : MediaSourceType) (processed dropped : ℕ)
  | setPendingPlaybackRate
  | startPositionReportingAndCheckAudioUnderflowTimer
  | gstMessageUnref
  deriving DecidableEq

/-- Whether a string has another in it. -/
def gStrrstr (haystack needle : String) : Bool := decide (needle.toList <:+: haystack.toList)

/-- The state changes of `generic::HandleBusMessage`. -/
def stateEffects (newState pending : GstState) : List Effect :=
  match newState with
  | .null => [.notifyPlaybackState .stopped]
  | .paused => if pending ≠ .paused then [.notifyPlaybackState .paused] else []
  | .playing =>
    [.notifyPlaybackState .playing, .setPendingPlaybackRate,
      .startPositionReportingAndCheckAudioUnderflowTimer]
  | .voidPending | .ready => []

def qosEffects (format : GstFormat) (processed dropped : ℕ) (klass : String) : List Effect :=
  if format = .buffers ∨ format = .default then
    if gStrrstr klass "Video" then [.notifyQos .video processed dropped]
    else if gStrrstr klass "Audio" then [.notifyQos .audio processed dropped]
    else []
  else []

/-- `generic::HandleBusMessage::execute`, for a player that has a client or not. -/
def report (client : Bool) (m : Message) : List Effect :=
  (match m.content with
  | .stateChanged newState pending =>
    if m.fromPipeline && client then stateEffects newState pending else []
  | .eos => if m.fromPipeline && client then [.notifyPlaybackState .endOfStream] else []
  | .qos format processed dropped klass =>
    if client then qosEffects format processed dropped klass else []
  | .error | .other => []) ++ [.gstMessageUnref]

/-- `webaudio::HandleBusMessage::execute` -/
def reportWebAudio (client : Bool) (m : Message) : List Effect :=
  (match m.content with
  | .stateChanged newState pending =>
    if m.fromPipeline && client then
      match newState with
      | .paused => if pending ≠ .paused then [.notifyState .paused] else []
      | .playing => [.notifyState .playing]
      | .ready => [.notifyState .idle]
      | .null | .voidPending => []
    else []
  | .eos => if m.fromPipeline && client then [.notifyState .endOfStream] else []
  | .qos _ _ _ _ | .error | .other => []) ++ [.gstMessageUnref]

/-! ## The threads -/

/-- Where the dispatcher is: at the condition of its loop, waiting for a message, with a message,
and past its end. -/
inductive Dispatcher
  | testing
  | popping
  | handling (m : Message)
  | exited
  deriving DecidableEq

def Dispatcher.inHand : Dispatcher → List Message
  | .handling m => [m]
  | _ => []

/-- `other` is any other task, which waits for the main thread or does not. -/
inductive Task
  | handleBusMessage (m : Message)
  | other (waits : Bool)
  | shutdown
  deriving DecidableEq

/-- The task waits for the main thread. -/
def Task.waits : Task → Bool
  | .other waits => waits
  | _ => false

def Task.message? : Task → Option Message
  | .handleBusMessage m => some m
  | _ => none

/-- The messages that wait in the queue. -/
def queued (tasks : List Task) : List Message := tasks.filterMap Task.message?

/-- Where the worker is: at the condition of its loop, waiting for a task, in a task, and past its
end. -/
inductive Worker
  | testing
  | waiting
  | executing (task : Task)
  | exited
  deriving DecidableEq

def Worker.inHand : Worker → List Message
  | .executing task => task.message?.toList
  | _ => []

/-- How far the destructor of the player is. -/
inductive Destructor
  | notCalled
  | joiningDispatcher
  | dispatcherJoined
  | joiningWorker
  | workerJoined
  deriving DecidableEq, Repr

/-- A player with its threads, its bus, and what its tasks have done; `onMainThread` is whether the
destructor is called by the main thread. -/
structure State where
  bus : Fifo Message
  isGstreamerDispatcherActive : Bool
  dispatcher : Dispatcher
  taskQueue : List Task
  isTaskThreadActive : Bool
  worker : Worker
  executed : List Message
  effects : List Effect
  destructor : Destructor
  onMainThread : Bool

def init : State := ⟨Fifo.empty, true, .testing, [], true, .testing, [], [], .notCalled, false⟩

/-- `gstBusTimedPopFiltered`: the first message that is wanted; those before it are dropped, and all
are if there is none before the time is up. -/
def gstBusTimedPopFiltered (s : State) : State :=
  match s.bus.contents.find? Message.wanted with
  | some m => { s with
      bus := s.bus.pop (s.bus.contents.findIdx Message.wanted + 1)
      dispatcher := .handling m }
  | none => { s with bus := s.bus.pop s.bus.contents.length, dispatcher := .testing }

/-- The rest of the loop of `gstBusEventHandler`, with `handleBusMessage`. -/
def dispatch (s : State) (m : Message) : State :=
  { s with
    isGstreamerDispatcherActive := s.isGstreamerDispatcherActive && !m.stops
    taskQueue := s.taskQueue ++ [.handleBusMessage m]
    dispatcher := .testing }

/-- The end of a task. -/
def execute (handle : Message → List Effect) (s : State) : Task → State
  | .handleBusMessage m => { s with
      worker := .testing
      executed := s.executed ++ [m]
      effects := s.effects ++ handle m }
  | .other _ => { s with worker := .testing }
  | .shutdown => { s with worker := .testing, isTaskThreadActive := false }

/-- `destroyOnMainThread` is the call of the destructor by the main thread. -/
inductive Act
  | post (m : Message)
  | dispatcher
  | enqueueOther (waits : Bool)
  | worker
  | destructor
  | destroyOnMainThread
  deriving DecidableEq

/-- The next step of the destructor, which waits for the threads in the joins. -/
def destroy (s : State) : Option State :=
  match s.destructor with
  | .notCalled => some { s with
      isGstreamerDispatcherActive := false
      destructor := .joiningDispatcher }
  | .joiningDispatcher =>
    if s.dispatcher = .exited then some { s with destructor := .dispatcherJoined } else none
  | .dispatcherJoined => some { s with
      taskQueue := s.taskQueue ++ [.shutdown]
      destructor := .joiningWorker }
  | .joiningWorker =>
    if s.worker = .exited then some { s with destructor := .workerJoined } else none
  | .workerJoined => none

def step (handle : Message → List Effect) (s : State) : Act → Option State
  | .post m => some { s with bus := s.bus.push [m] }
  | .dispatcher =>
    match s.dispatcher with
    | .testing => some { s with
        dispatcher := if s.isGstreamerDispatcherActive then .popping else .exited }
    | .popping => some (gstBusTimedPopFiltered s)
    | .handling m => some (dispatch s m)
    | .exited => none
  | .enqueueOther waits => some { s with taskQueue := s.taskQueue ++ [.other waits] }
  | .worker =>
    match s.worker with
    | .testing => some { s with worker := if s.isTaskThreadActive then .waiting else .exited }
    | .waiting =>
      match s.taskQueue with
      | [] => none
      | task :: tasks => some { s with taskQueue := tasks, worker := .executing task }
    | .executing task =>
      -- the main thread is in the destructor until the worker is joined
      if task.waits && s.onMainThread then none else some (execute handle s task)
    | .exited => none
  | .destructor => destroy s
  | .destroyOnMainThread =>
    if s.destructor = .notCalled then
      (destroy s).map fun s => { s with onMainThread := true }
    else none

/-! ## The invariant -/

/-- The messages that the dispatcher has been given. -/
def taken (s : State) : List Message := s.bus.popped.filter Message.wanted

/-- The dispatcher is joined before the shutdown task is put into the queue. -/
def Destructor.beforeShutdown : Destructor → Bool
  | .notCalled | .joiningDispatcher | .dispatcherJoined => true
  | _ => false

structure Inv (handle : Message → List Effect) (s : State) : Prop where
  order : s.executed ++ (s.worker.inHand ++ (queued s.taskQueue ++ s.dispatcher.inHand)) = taken s
  effects : s.effects = s.executed.flatMap handle
  stop : ∀ pre m post, taken s = pre ++ m :: post → m.stops = true → post = [] ∧
    (s.dispatcher = .handling m ∨ s.isGstreamerDispatcherActive = false ∧
      (s.dispatcher = .testing ∨ s.dispatcher = .exited))
  joined : s.destructor ≠ .notCalled → s.destructor ≠ .joiningDispatcher → s.dispatcher = .exited
  noShutdown : s.destructor.beforeShutdown = true →
    .shutdown ∉ s.taskQueue ∧ s.worker ≠ .executing .shutdown ∧ s.isTaskThreadActive = true
  last : ∀ pre post, s.taskQueue = pre ++ .shutdown :: post → queued post = []
  inactive : s.isTaskThreadActive = false ∨ s.worker = .executing .shutdown →
    queued s.taskQueue = []
  exited : s.worker = .exited → s.isTaskThreadActive = false
  done : s.destructor = .workerJoined → s.worker = .exited
  shutdown : s.destructor.beforeShutdown = false →
    .shutdown ∈ s.taskQueue ∨ s.worker = .executing .shutdown ∨
      s.isTaskThreadActive = false ∧ (s.worker = .testing ∨ s.worker = .exited)
  quiet : s.destructor ≠ .notCalled → s.isGstreamerDispatcherActive = false
  active : s.worker = .waiting ∨ (∃ task, s.worker = .executing task) →
    s.isTaskThreadActive = true

variable {handle : Message → List Effect} {s s' t : State} {as bs : List Act}

theorem inv_init (handle : Message → List Effect) : Inv handle init where
  order := rfl
  effects := rfl
  stop := fun pre _ _ h => by cases pre <;> cases h
  joined := fun h => absurd rfl h
  noShutdown := fun _ => ⟨List.not_mem_nil, nofun, rfl⟩
  last := fun pre _ h => by cases pre <;> cases h
  inactive := fun _ => rfl
  exited := fun h => by cases h
  done := fun h => by cases h
  shutdown := fun h => by cases h
  quiet := fun h => absurd rfl h
  active := fun h => by
    rcases h with h | ⟨task, h⟩
    · cases h
    · cases h

@[simp] theorem queued_append (tasks tasks' : List Task) :
    queued (tasks ++ tasks') = queued tasks ++ queued tasks' := List.filterMap_append

/-- A task that comes last is behind every shutdown task that is in the queue. -/
theorem last_snoc {tasks : List Task} (h : ∀ pre post, tasks = pre ++ .shutdown :: post →
    queued post = []) {task : Task} (htask : task.message? = none ∨ .shutdown ∉ tasks) :
    ∀ pre post, tasks ++ [task] = pre ++ .shutdown :: post → queued post = [] := by
  intro pre post heq
  rcases List.eq_nil_or_concat post with rfl | ⟨post', task', rfl⟩
  · rfl
  · have heq' : tasks ++ [task] = (pre ++ .shutdown :: post') ++ [task'] := by
      rw [heq, List.concat_eq_append, List.append_assoc, List.cons_append]
    obtain ⟨htasks, hlast⟩ := List.append_inj' heq' rfl
    obtain rfl : task = task' := (List.cons.inj hlast).1
    rcases htask with hnone | hnot
    · rw [List.concat_eq_append, queued_append, h pre post' htasks]
      show [] ++ [task].filterMap Task.message? = []
      rw [List.filterMap_cons_none hnone]
      rfl
    · exact absurd (htasks ▸ List.mem_append_right pre (List.mem_cons_self ..)) hnot

/-- Taking the first wanted message. -/
theorem taken_pop {contents : List Message} {m : Message}
    (h : contents.find? Message.wanted = some m) :
    (contents.take (contents.findIdx Message.wanted + 1)).filter Message.wanted = [m] := by
  induction contents with
  | nil => cases h
  | cons x rest ih =>
    rw [List.find?_cons] at h
    cases hx : x.wanted with
    | true =>
      rw [hx] at h
      cases h
      simp [List.findIdx_cons, hx]
    | false =>
      rw [hx] at h
      simp [List.findIdx_cons, hx, ih h]

theorem taken_pop_none {contents : List Message} (h : contents.find? Message.wanted = none) :
    (contents.take contents.length).filter Message.wanted = [] := by
  rw [List.take_length]
  exact List.filter_eq_nil_iff.mpr fun m hm => by simpa using List.find?_eq_none.mp h m hm

theorem taken_popped (s : State) (n : ℕ) {s' : State} (hbus : s'.bus = s.bus.pop n) :
    taken s' = taken s ++ (s.bus.contents.take n).filter Message.wanted := by
  unfold taken
  rw [hbus]
  exact List.filter_append ..

/-- The destructor waits for the threads. -/
theorem Inv.not_joined (h : Inv handle s) (hrunning : s.dispatcher ≠ .exited) :
    ¬(s.destructor ≠ .notCalled ∧ s.destructor ≠ .joiningDispatcher) := fun hd =>
  hrunning (h.joined hd.1 hd.2)

theorem Inv.not_done (h : Inv handle s) (hrunning : s.worker ≠ .exited) :
    s.destructor ≠ .workerJoined := fun hd => hrunning (h.done hd)

/-! ## The dispatcher -/

/-- While the dispatcher waits for a message, none that ends it has come. -/
theorem Inv.not_stopped (h : Inv handle s) (hpopping : s.dispatcher = .popping) :
    ∀ m ∈ taken s, m.stops = false := by
  intro m hm
  obtain ⟨pre, post, heq⟩ := List.append_of_mem hm
  by_contra hstops
  obtain ⟨-, hhandling | ⟨-, htesting | hexited⟩⟩ := h.stop pre m post heq (by simpa using hstops)
  · rw [hpopping] at hhandling
    cases hhandling
  · rw [hpopping] at htesting
    cases htesting
  · rw [hpopping] at hexited
    cases hexited

theorem inv_pop (h : Inv handle s) (hpopping : s.dispatcher = .popping) :
    Inv handle (gstBusTimedPopFiltered s) := by
  have horder := h.order
  rw [hpopping] at horder
  have hjoined := h.not_joined (by simp [hpopping])
  unfold gstBusTimedPopFiltered
  cases hfind : s.bus.contents.find? Message.wanted with
  | none =>
    have htaken : taken { s with
        bus := s.bus.pop s.bus.contents.length, dispatcher := .testing } = taken s := by
      rw [taken_popped s s.bus.contents.length rfl, taken_pop_none hfind, List.append_nil]
    refine ⟨by rw [htaken]; exact horder, h.effects, fun pre m post heq hstops => ?_,
      fun h1 h2 => absurd ⟨h1, h2⟩ hjoined, h.noShutdown, h.last, h.inactive, h.exited, h.done,
      h.shutdown, h.quiet, h.active⟩
    rw [htaken] at heq
    have hnot := h.not_stopped hpopping m (heq ▸ List.mem_append_right pre (List.mem_cons_self ..))
    rw [hnot] at hstops
    cases hstops
  | some m =>
    have htaken : taken { s with
        bus := s.bus.pop (s.bus.contents.findIdx Message.wanted + 1)
        dispatcher := .handling m } = taken s ++ [m] := by
      rw [taken_popped s (s.bus.contents.findIdx Message.wanted + 1) rfl, taken_pop hfind]
    refine ⟨?_, h.effects, fun pre m' post heq hstops => ?_,
      fun h1 h2 => absurd ⟨h1, h2⟩ hjoined, h.noShutdown, h.last, h.inactive, h.exited, h.done,
      h.shutdown, h.quiet, h.active⟩
    · rw [htaken, ← horder]
      simp [Dispatcher.inHand]
    · rw [htaken] at heq
      rcases List.eq_nil_or_concat post with rfl | ⟨post', m'', rfl⟩
      · obtain ⟨-, hlast⟩ := List.append_inj' heq rfl
        cases hlast
        exact ⟨rfl, Or.inl rfl⟩
      · -- a message that was taken before does not end the dispatcher
        have heq' : taken s ++ [m] = (pre ++ m' :: post') ++ [m''] := by
          rw [heq, List.concat_eq_append, List.append_assoc, List.cons_append]
        obtain ⟨hbefore, -⟩ := List.append_inj' heq' rfl
        have hnot := h.not_stopped hpopping m'
          (hbefore ▸ List.mem_append_right pre (List.mem_cons_self ..))
        rw [hnot] at hstops
        cases hstops

theorem inv_dispatch (h : Inv handle s) {m : Message} (hhandling : s.dispatcher = .handling m) :
    Inv handle (dispatch s m) := by
  have horder := h.order
  rw [hhandling] at horder
  have hnot := h.not_joined (by simp [hhandling])
  have hbefore : s.destructor.beforeShutdown = true := by
    rcases hd : s.destructor <;> rw [hd] at hnot <;> simp at hnot <;> rfl
  obtain ⟨hmem, hexec, hactive⟩ := h.noShutdown hbefore
  refine ⟨?_, h.effects, fun pre m' post heq hstops => ?_, fun h1 h2 => absurd ⟨h1, h2⟩ hnot,
    fun _ => ⟨?_, hexec, hactive⟩, last_snoc h.last (Or.inr hmem), ?_, h.exited, h.done,
    fun hafter => ?_, fun hcalled => ?_, h.active⟩
  · show s.executed ++ (s.worker.inHand ++ (queued (s.taskQueue ++ [.handleBusMessage m]) ++ [])) =
      taken s
    rw [queued_append, List.append_nil]
    exact horder
  · obtain ⟨hpost, hwhere⟩ := h.stop pre m' post heq hstops
    refine ⟨hpost, Or.inr ⟨?_, Or.inl rfl⟩⟩
    obtain heq' | ⟨hinactive, -⟩ := hwhere
    · rw [hhandling] at heq'
      cases heq'
      show (s.isGstreamerDispatcherActive && !m.stops) = false
      rw [hstops]
      simp
    · show (s.isGstreamerDispatcherActive && !m.stops) = false
      rw [hinactive]
      rfl
  · intro hin
    rcases List.mem_append.mp hin with hin | hin
    · exact hmem hin
    · cases List.mem_singleton.mp hin
  · rintro (hinactive | hshutdown)
    · exact absurd (hactive.symm.trans hinactive) Bool.noConfusion
    · exact absurd hshutdown hexec
  · exact absurd (hbefore.symm.trans hafter) Bool.noConfusion
  · show (s.isGstreamerDispatcherActive && !m.stops) = false
    rw [h.quiet hcalled]
    rfl

/-- The condition of the loop of the dispatcher. -/
theorem inv_test (h : Inv handle s) (htesting : s.dispatcher = .testing) :
    Inv handle { s with
      dispatcher := if s.isGstreamerDispatcherActive then .popping else .exited } := by
  have horder := h.order
  rw [htesting] at horder
  have hnot := h.not_joined (by simp [htesting])
  have hinHand : Dispatcher.inHand (if s.isGstreamerDispatcherActive then .popping else .exited)
      = [] := by
    split <;> rfl
  refine ⟨?_, h.effects, fun pre m post heq hstops => ?_, fun h1 h2 => absurd ⟨h1, h2⟩ hnot,
    h.noShutdown, h.last, h.inactive, h.exited, h.done, h.shutdown, h.quiet, h.active⟩
  · show s.executed ++ (s.worker.inHand ++ (queued s.taskQueue ++ _)) = taken s
    rw [hinHand]
    exact horder
  · obtain ⟨hpost, hhandling | ⟨hinactive, -⟩⟩ := h.stop pre m post heq hstops
    · rw [htesting] at hhandling
      cases hhandling
    · refine ⟨hpost, Or.inr ⟨hinactive, Or.inr ?_⟩⟩
      show (if s.isGstreamerDispatcherActive then Dispatcher.popping else .exited) = .exited
      rw [hinactive]
      rfl

/-! ## The worker -/

/-- A task that is not about a message comes into the queue. -/
theorem inv_enqueue (h : Inv handle s) {task : Task} (hnone : task.message? = none)
    {destructor : Destructor} (hdispatcher : destructor ≠ .notCalled →
      destructor ≠ .joiningDispatcher → s.dispatcher = .exited)
    (hbefore : destructor.beforeShutdown = true →
      s.destructor.beforeShutdown = true ∧ task ≠ .shutdown)
    (hafter : destructor.beforeShutdown = false →
      s.destructor.beforeShutdown = false ∨ task = .shutdown)
    (hdone : destructor = .workerJoined → s.worker = .exited)
    (hquiet : destructor ≠ .notCalled → s.isGstreamerDispatcherActive = false) :
    Inv handle { s with taskQueue := s.taskQueue ++ [task], destructor := destructor } := by
  have hqueued : queued (s.taskQueue ++ [task]) = queued s.taskQueue := by
    rw [queued_append]
    show queued s.taskQueue ++ [task].filterMap Task.message? = _
    rw [List.filterMap_cons_none hnone, List.filterMap_nil, List.append_nil]
  refine ⟨?_, h.effects, h.stop, hdispatcher, fun hd => ?_, last_snoc h.last (Or.inl hnone),
    fun hi => ?_, h.exited, hdone, fun hd => ?_, hquiet, h.active⟩
  · show s.executed ++ (s.worker.inHand ++ (queued (s.taskQueue ++ [task]) ++ _)) = taken s
    rw [hqueued]
    exact h.order
  · obtain ⟨hbefore', hne⟩ := hbefore hd
    obtain ⟨hmem, hrest⟩ := h.noShutdown hbefore'
    refine ⟨fun hin => ?_, hrest⟩
    rcases List.mem_append.mp hin with hin | hin
    · exact hmem hin
    · exact hne (List.mem_singleton.mp hin).symm
  · show queued (s.taskQueue ++ [task]) = []
    rw [hqueued]
    exact h.inactive hi
  · rcases hafter hd with hafter | rfl
    · exact (h.shutdown hafter).imp_left (List.mem_append_left _)
    · exact Or.inl (List.mem_append_right _ (List.mem_singleton.mpr rfl))

/-- The condition of the loop of the worker. -/
theorem inv_testWorker (h : Inv handle s) (htesting : s.worker = .testing) :
    Inv handle { s with worker := if s.isTaskThreadActive then .waiting else .exited } := by
  have horder := h.order
  rw [htesting] at horder
  have hinHand : Worker.inHand (if s.isTaskThreadActive then .waiting else .exited) = [] := by
    split <;> rfl
  have hnot : (if s.isTaskThreadActive then Worker.waiting else .exited) ≠
      .executing .shutdown := by
    split <;> nofun
  refine ⟨?_, h.effects, h.stop, h.joined,
    fun hd => ⟨(h.noShutdown hd).1, hnot, (h.noShutdown hd).2.2⟩, h.last,
    fun hi => h.inactive (Or.inl (hi.resolve_right hnot)), fun hexited => ?_, fun hd => ?_,
    fun hd => ?_, h.quiet, fun hwaiting => ?_⟩
  · show s.executed ++ (Worker.inHand _ ++ (queued s.taskQueue ++ s.dispatcher.inHand)) = taken s
    rw [hinHand]
    exact horder
  · show s.isTaskThreadActive = false
    by_contra hactive
    replace hexited :
        (if s.isTaskThreadActive then Worker.waiting else .exited) = .exited := hexited
    rw [if_pos (by simpa using hactive)] at hexited
    cases hexited
  · exact absurd hd (h.not_done (by simp [htesting]))
  · rcases h.shutdown hd with hmem | hexec | hinactive
    · exact Or.inl hmem
    · rw [htesting] at hexec
      cases hexec
    · refine Or.inr (Or.inr ⟨hinactive.1, Or.inr ?_⟩)
      show (if s.isTaskThreadActive then Worker.waiting else .exited) = .exited
      rw [hinactive.1]
      rfl
  · show s.isTaskThreadActive = true
    by_contra hinactive
    have hexited : (if s.isTaskThreadActive then Worker.waiting else .exited) = .exited :=
      if_neg hinactive
    rcases hwaiting with heq | ⟨task, heq⟩
    · cases hexited.symm.trans heq
    · cases hexited.symm.trans heq

/-- `waitForTask` -/
theorem inv_waitForTask (h : Inv handle s) (hwaiting : s.worker = .waiting) {task : Task}
    {tasks : List Task} (hqueue : s.taskQueue = task :: tasks) :
    Inv handle { s with taskQueue := tasks, worker := .executing task } := by
  have horder := h.order
  have hqueued : queued s.taskQueue = task.message?.toList ++ queued tasks := by
    rw [hqueue]
    cases task <;> rfl
  rw [hwaiting, hqueued, List.append_assoc] at horder
  refine ⟨horder, h.effects, h.stop, h.joined, fun hd => ?_, fun pre post heq => ?_, fun hi => ?_,
    fun hexited => ?_, fun hd => ?_, fun hd => ?_, h.quiet, fun _ => h.active (Or.inl hwaiting)⟩
  · obtain ⟨hmem, -, hactive⟩ := h.noShutdown hd
    rw [hqueue] at hmem
    refine ⟨fun hin => hmem (List.mem_cons_of_mem _ hin), fun heq => ?_, hactive⟩
    cases heq
    exact hmem (List.mem_cons_self ..)
  · exact h.last (task :: pre) post (hqueue.trans (congrArg (task :: ·) heq))
  · rcases hi with hinactive | heq
    · have hnil := h.inactive (Or.inl hinactive)
      rw [hqueued] at hnil
      exact (List.append_eq_nil_iff.mp hnil).2
    · cases heq
      exact h.last [] tasks hqueue
  · cases hexited
  · exact absurd hd (h.not_done (by simp [hwaiting]))
  · rcases h.shutdown hd with hmem | hexec | hinactive
    · rw [hqueue] at hmem
      rcases List.mem_cons.mp hmem with rfl | hmem
      · exact Or.inr (Or.inl rfl)
      · exact Or.inl hmem
    · rw [hwaiting] at hexec
      cases hexec
    · rw [hwaiting] at hinactive
      rcases hinactive.2 with heq | heq <;> cases heq

/-- The end of a task. -/
theorem inv_execute (h : Inv handle s) {task : Task} (hexecuting : s.worker = .executing task) :
    Inv handle (execute handle s task) := by
  have horder := h.order
  rw [hexecuting] at horder
  have hnotDone := h.not_done (by simp [hexecuting])
  have hshutdown : task ≠ .shutdown → s.destructor.beforeShutdown = false →
      .shutdown ∈ s.taskQueue := fun hne hd => by
    rcases h.shutdown hd with hmem | hexec | hinactive
    · exact hmem
    · rw [hexecuting] at hexec
      cases hexec
      exact absurd rfl hne
    · rw [hexecuting] at hinactive
      rcases hinactive.2 with heq | heq <;> cases heq
  have hactive : ∀ p : Prop, p → s.isTaskThreadActive = true := fun _ _ =>
    h.active (Or.inr ⟨task, hexecuting⟩)
  cases task with
  | handleBusMessage m =>
    refine ⟨?_, ?_, h.stop, h.joined, fun hd => ⟨(h.noShutdown hd).1, nofun, (h.noShutdown hd).2.2⟩,
      h.last, fun hi => h.inactive (Or.inl (hi.resolve_right nofun)), nofun,
      fun hd => absurd hd hnotDone, fun hd => Or.inl (hshutdown nofun hd), h.quiet, hactive _⟩
    · show (s.executed ++ [m]) ++ ([] ++ (queued s.taskQueue ++ s.dispatcher.inHand)) = taken s
      rw [List.append_assoc]
      exact horder
    · show s.effects ++ handle m = (s.executed ++ [m]).flatMap handle
      rw [List.flatMap_append, h.effects, List.flatMap_singleton]
  | other waits =>
    exact ⟨horder, h.effects, h.stop, h.joined,
      fun hd => ⟨(h.noShutdown hd).1, nofun, (h.noShutdown hd).2.2⟩, h.last,
      fun hi => h.inactive (Or.inl (hi.resolve_right nofun)), nofun, fun hd => absurd hd hnotDone,
      fun hd => Or.inl (hshutdown nofun hd), h.quiet, hactive _⟩
  | shutdown =>
    exact ⟨horder, h.effects, h.stop, h.joined,
      fun hd => absurd hexecuting (h.noShutdown hd).2.1, h.last,
      fun _ => h.inactive (Or.inr hexecuting), nofun, fun hd => absurd hd hnotDone,
      fun _ => Or.inr (Or.inr ⟨rfl, Or.inl rfl⟩), h.quiet, fun hw => hw.elim nofun nofun⟩

/-! ## Every run -/

theorem inv_destroy (h : Inv handle s) (hstep : destroy s = some s') : Inv handle s' := by
  unfold destroy at hstep
  rcases hd : s.destructor with _ | _ | _ | _ | _ <;> rw [hd] at hstep <;> dsimp only at hstep
  · cases hstep
    refine ⟨h.order, h.effects, fun pre m post heq hstops => ?_, fun _ hne => absurd rfl hne,
      fun _ => h.noShutdown (by rw [hd]; rfl), h.last, h.inactive, h.exited, nofun, nofun,
      fun _ => rfl, h.active⟩
    obtain ⟨hpost, hwhere⟩ := h.stop pre m post heq hstops
    exact ⟨hpost, hwhere.imp_right fun hq => ⟨rfl, hq.2⟩⟩
  · split_ifs at hstep with hexited
    cases hstep
    exact ⟨h.order, h.effects, h.stop, fun _ _ => hexited,
      fun _ => h.noShutdown (by rw [hd]; rfl), h.last, h.inactive, h.exited, nofun, nofun,
      fun _ => h.quiet (by rw [hd]; nofun), h.active⟩
  · cases hstep
    exact inv_enqueue h rfl (fun _ _ => h.joined (by rw [hd]; nofun) (by rw [hd]; nofun)) nofun
      (fun _ => Or.inr rfl) nofun fun _ => h.quiet (by rw [hd]; nofun)
  · split_ifs at hstep with hexited
    cases hstep
    exact ⟨h.order, h.effects, h.stop,
      fun _ _ => h.joined (by rw [hd]; nofun) (by rw [hd]; nofun), nofun, h.last, h.inactive,
      h.exited, fun _ => hexited, fun _ => h.shutdown (by rw [hd]; rfl),
      fun _ => h.quiet (by rw [hd]; nofun), h.active⟩
  · cases hstep

theorem step_inv (h : Inv handle s) {a : Act} (hstep : step handle s a = some s') :
    Inv handle s' := by
  cases a with
  | post m =>
    cases hstep
    exact ⟨h.order, h.effects, h.stop, h.joined, h.noShutdown, h.last, h.inactive, h.exited,
      h.done, h.shutdown, h.quiet, h.active⟩
  | dispatcher =>
    unfold step at hstep
    rcases hd : s.dispatcher with _ | _ | m | _ <;> rw [hd] at hstep <;> cases hstep
    · exact inv_test h hd
    · exact inv_pop h hd
    · exact inv_dispatch h hd
  | enqueueOther waits =>
    cases hstep
    exact inv_enqueue h rfl h.joined (fun hd => ⟨hd, nofun⟩) (fun hd => Or.inl hd) h.done h.quiet
  | worker =>
    unfold step at hstep
    rcases hw : s.worker with _ | _ | task | _ <;> rw [hw] at hstep <;> dsimp only at hstep
    · cases hstep
      exact inv_testWorker h hw
    · rcases hqueue : s.taskQueue with _ | ⟨task, tasks⟩ <;> rw [hqueue] at hstep <;> cases hstep
      exact inv_waitForTask h hw hqueue
    · split_ifs at hstep
      cases hstep
      exact inv_execute h hw
    · cases hstep
  | destructor => exact inv_destroy h hstep
  | destroyOnMainThread =>
    obtain ⟨-, hstep⟩ := Option.ite_none_right_eq_some.mp hstep
    obtain ⟨s₁, hdestroy, rfl⟩ := Option.map_eq_some_iff.mp hstep
    obtain ⟨h1, h2, h3, h4, h5, h6, h7, h8, h9, h10, h11, h12⟩ := inv_destroy h hdestroy
    exact ⟨h1, h2, h3, h4, h5, h6, h7, h8, h9, h10, h11, h12⟩

abbrev anyStep (_ : State) (_ : Act) : Prop := True

theorem run_inv (h : Inv handle s) (hrun : Run (step handle) anyStep s as t) : Inv handle t :=
  hrun.invariant (Inv handle) (fun _ _ _ hs _ hstep => step_inv hs hstep) h

/-- What has been done with the messages of the bus. -/
structure Reported (handle : Message → List Effect) (s : State) : Prop where
  effects : s.effects = s.executed.flatMap handle
  executed : s.executed <+: taken s
  wanted : taken s <+: s.bus.pushed.filter Message.wanted
  last : ∀ pre m post, taken s = pre ++ m :: post → m.stops = true → post = []
  all : s.destructor = .workerJoined → s.executed = taken s

/-- **The client is told of each message once, in the order of the bus**: of those that the
dispatcher asks for, up to the one that ends it. Once the destructor has joined the threads, all
that were taken from the bus have been handled. -/
theorem messages_reported (handle : Message → List Effect)
    (h : Run (step handle) anyStep init as s) : Reported handle s := by
  have hs := run_inv (inv_init handle) h
  refine ⟨hs.effects, ⟨_, hs.order⟩, ?_, fun pre m post heq hstops => (hs.stop _ _ _ heq hstops).1,
    fun hdone => ?_⟩
  · rw [← s.bus.conserved, List.filter_append]
    exact List.prefix_append ..
  · have hexited := hs.done hdone
    have hdispatcher := hs.joined (by rw [hdone]; nofun) (by rw [hdone]; nofun)
    have horder := hs.order
    rw [hexited, hs.inactive (Or.inl (hs.exited hexited)), hdispatcher] at horder
    simpa [Worker.inHand, Dispatcher.inHand] using horder

/-- A pipeline that plays and stops while an element reports what nobody asks for; an end of stream
that comes later is left in the bus. -/
def playedAndStopped : List Act :=
  [.post ⟨true, .stateChanged .playing .voidPending⟩, .post ⟨false, .other⟩,
    .post ⟨true, .stateChanged .null .voidPending⟩, .post ⟨true, .eos⟩] ++
  List.replicate 7 .dispatcher ++ List.replicate 3 .destructor ++ List.replicate 10 .worker ++
  [.destructor]

theorem messages_reported_played : ∃ s, Run (step (report true)) anyStep init playedAndStopped s ∧
    s.executed = taken s ∧ taken s = [⟨true, .stateChanged .playing .voidPending⟩,
      ⟨true, .stateChanged .null .voidPending⟩] := by
  have hs : Run (step (report true)) anyStep init playedAndStopped _ := Run.of_runs rfl
  exact ⟨_, hs, (messages_reported _ hs).all rfl, rfl⟩

/-! ## STOPPED -/

/-- A client is told STOPPED by a message that ends the dispatcher, and this is the last that is
done about a message before it is released. -/
theorem stopped_of_mem {client : Bool} {m : Message}
    (h : .notifyPlaybackState .stopped ∈ report client m) :
    m.stops = true ∧ report client m = [.notifyPlaybackState .stopped, .gstMessageUnref] := by
  obtain ⟨fromPipeline, content⟩ := m
  unfold report at h ⊢
  unfold Message.stops
  cases content with
  | stateChanged newState pending =>
    cases hcond : fromPipeline && client <;> simp only [hcond] at h ⊢
    · simp at h
    · rw [Bool.and_eq_true] at hcond
      cases newState with
      | null => exact ⟨hcond.1, rfl⟩
      | paused =>
        simp only [if_true, stateEffects] at h
        split_ifs at h <;> simp at h
      | playing => simp [stateEffects] at h
      | ready => simp [stateEffects] at h
      | voidPending => simp [stateEffects] at h
  | eos => cases hcond : fromPipeline && client <;> simp [hcond] at h
  | qos format processed dropped klass =>
    exfalso
    simp only [qosEffects] at h
    split_ifs at h <;> simp at h
  | error => simp at h
  | other => simp at h

/-- Nothing is done about a message behind one that ends the dispatcher. -/
theorem Inv.executed_last (h : Inv handle s) (pre : List Message) (m : Message)
    (post : List Message) (heq : s.executed = pre ++ m :: post) (hstops : m.stops = true) :
    post = [] := by
  have horder := h.order
  rw [heq, List.append_assoc, List.cons_append] at horder
  exact (List.append_eq_nil_iff.mp (h.stop _ _ _ horder.symm hstops).1).1

theorem destroy_executed (hstep : destroy s = some s') : s'.executed = s.executed := by
  unfold destroy at hstep
  split at hstep <;> (try split_ifs at hstep) <;> cases hstep <;> rfl

theorem step_executed {a : Act} (hstep : step handle s a = some s') :
    s.executed <+: s'.executed := by
  cases a with
  | post m =>
    cases hstep
    exact List.prefix_rfl
  | dispatcher =>
    unfold step at hstep
    rcases hd : s.dispatcher with _ | _ | m | _ <;> rw [hd] at hstep <;> cases hstep
    · exact List.prefix_rfl
    · unfold gstBusTimedPopFiltered
      split <;> exact List.prefix_rfl
    · exact List.prefix_rfl
  | enqueueOther waits =>
    cases hstep
    exact List.prefix_rfl
  | worker =>
    unfold step at hstep
    rcases hw : s.worker with _ | _ | task | _ <;> rw [hw] at hstep <;> dsimp only at hstep
    · cases hstep
      exact List.prefix_rfl
    · split at hstep <;> cases hstep
      exact List.prefix_rfl
    · split_ifs at hstep
      cases hstep
      cases task with
      | handleBusMessage m => exact List.prefix_append ..
      | other waits => exact List.prefix_rfl
      | shutdown => exact List.prefix_rfl
    · cases hstep
  | destructor => exact (destroy_executed hstep) ▸ List.prefix_rfl
  | destroyOnMainThread =>
    obtain ⟨-, hstep⟩ := Option.ite_none_right_eq_some.mp hstep
    obtain ⟨s₁, hdestroy, rfl⟩ := Option.map_eq_some_iff.mp hstep
    exact (destroy_executed hdestroy) ▸ List.prefix_rfl

theorem executed_extends (hrun : Run (step handle) anyStep s as t) : s.executed <+: t.executed :=
  hrun.invariant (fun v => s.executed <+: v.executed)
    (fun _ _ _ hv _ hstep => hv.trans (step_executed hstep)) List.prefix_rfl

/-- **STOPPED is the last that a message tells a client**: behind it nothing is done about any
message, but that its own is released. -/
theorem stopped_is_last {client : Bool} (h : Run (step (report client)) anyStep init as s)
    (hstopped : .notifyPlaybackState .stopped ∈ s.effects)
    (hrun : Run (step (report client)) anyStep s bs t) :
    t.effects = s.effects ∧ ∃ before,
      s.effects = before ++ [.notifyPlaybackState .stopped, .gstMessageUnref] ∧
      .notifyPlaybackState .stopped ∉ before := by
  have hs := run_inv (inv_init _) h
  have ht := run_inv hs hrun
  rw [hs.effects, List.mem_flatMap] at hstopped
  obtain ⟨m, hm, hmem⟩ := hstopped
  obtain ⟨hstops, hreport⟩ := stopped_of_mem hmem
  obtain ⟨pre, post, heq⟩ := List.append_of_mem hm
  obtain rfl := hs.executed_last pre m post heq hstops
  obtain ⟨rest, hrest⟩ := executed_extends hrun
  have hnil : rest = [] := by
    refine ht.executed_last pre m rest ?_ hstops
    rw [← hrest, heq, List.append_assoc]
    rfl
  rw [hnil, List.append_nil] at hrest
  refine ⟨by rw [ht.effects, hs.effects, hrest], pre.flatMap (report client), ?_, fun hin => ?_⟩
  · rw [hs.effects, heq, List.flatMap_append, List.flatMap_singleton, hreport]
  · obtain ⟨m', hm', hmem'⟩ := List.mem_flatMap.mp hin
    obtain ⟨before, after, rfl⟩ := List.append_of_mem hm'
    have hafter := hs.executed_last before m' (after ++ [m])
      (by rw [heq, List.append_assoc, List.cons_append]) (stopped_of_mem hmem').1
    simp at hafter

theorem stopped_is_last_played :
    ∃ s, Run (step (report true)) anyStep init playedAndStopped s ∧
      ∀ bs t, Run (step (report true)) anyStep s bs t → t.effects = s.effects := by
  have hs : Run (step (report true)) anyStep init playedAndStopped _ := Run.of_runs rfl
  exact ⟨_, hs, fun bs t hrun => (stopped_is_last hs (by decide) hrun).1⟩

/-! ## The destructor -/

/-- The tasks that the worker still has to run before it ends, the one that it is in first. -/
def toRun (s : State) : List Task :=
  match s.worker with
  | .executing task =>
    if task = .shutdown then [] else task :: s.taskQueue.takeWhile (· ≠ .shutdown)
  | .testing | .waiting =>
    if s.isTaskThreadActive then s.taskQueue.takeWhile (· ≠ .shutdown) else []
  | .exited => []

/-- The main thread is in the destructor, and the worker comes to a task that waits for it. -/
def Stuck (s : State) : Prop := s.onMainThread = true ∧ (toRun s).any Task.waits = true

/-- The steps of the threads of the player. -/
def ownStep (_ : State) (a : Act) : Prop := a = .dispatcher ∨ a = .worker ∨ a = .destructor

/-- What comes behind does not take away a task that the worker comes to. -/
theorem any_takeWhile_append (tasks : List Task) (task : Task) :
    ((tasks ++ [task]).takeWhile (· ≠ .shutdown)).any Task.waits =
      ((tasks.takeWhile (· ≠ .shutdown)).any Task.waits ||
        decide (.shutdown ∉ tasks) && task.waits) := by
  induction tasks with
  | nil => cases task <;> simp [Task.waits]
  | cons first rest ih =>
    by_cases hfirst : first = .shutdown
    · simp [hfirst]
    · simp only [List.cons_append, ne_eq, hfirst, not_false_eq_true, decide_true,
        List.takeWhile_cons_of_pos, List.any_cons, List.mem_cons, Ne.symm hfirst, false_or,
        Bool.or_assoc] at ih ⊢
      rw [ih]

/-- A task that comes into the queue adds at most that it waits itself. -/
theorem any_toRun_enqueue (s : State) (task : Task) : ∃ b,
    (toRun { s with taskQueue := s.taskQueue ++ [task] }).any Task.waits =
      ((toRun s).any Task.waits || b && task.waits) := by
  have happend := any_takeWhile_append s.taskQueue task
  unfold toRun
  dsimp only
  rcases s.worker with _ | _ | first | _ <;> dsimp only
  · split_ifs
    · exact ⟨_, happend⟩
    · exact ⟨false, rfl⟩
  · split_ifs
    · exact ⟨_, happend⟩
    · exact ⟨false, rfl⟩
  · split_ifs
    · exact ⟨false, rfl⟩
    · refine ⟨decide (.shutdown ∉ s.taskQueue), ?_⟩
      rw [List.any_cons, List.any_cons, happend, Bool.or_assoc]
  · exact ⟨false, rfl⟩

/-- A task that does not wait. -/
theorem any_toRun_of_not_waits (s : State) (task : Task) (h : task.waits = false) :
    (toRun { s with taskQueue := s.taskQueue ++ [task] }).any Task.waits =
      (toRun s).any Task.waits := by
  obtain ⟨b, hb⟩ := any_toRun_enqueue s task
  rw [hb, h, Bool.and_false, Bool.or_false]

theorem any_toRun_worker (hs : Inv handle s) (hstep : step handle s .worker = some s') :
    s'.onMainThread = s.onMainThread ∧
      (s.onMainThread = true → (toRun s').any Task.waits = (toRun s).any Task.waits) := by
  unfold step at hstep
  rcases hw : s.worker with _ | _ | task | _ <;> rw [hw] at hstep <;> dsimp only at hstep
  · cases hstep
    refine ⟨rfl, fun _ => ?_⟩
    unfold toRun
    rw [hw]
    by_cases hactive : s.isTaskThreadActive = true
    · simp only [hactive, if_true]
    · simp only [hactive, if_false, Bool.false_eq_true]
  · have hactive := hs.active (Or.inl hw)
    rcases hqueue : s.taskQueue with _ | ⟨task, tasks⟩ <;> rw [hqueue] at hstep <;> cases hstep
    refine ⟨rfl, fun _ => ?_⟩
    unfold toRun
    rw [hw, hqueue]
    dsimp only
    rw [if_pos hactive]
    by_cases hshutdown : task = .shutdown
    · simp [hshutdown]
    · simp [hshutdown]
  · have hactive := hs.active (Or.inr ⟨task, hw⟩)
    split_ifs at hstep with hwaits
    cases hstep
    refine ⟨by cases task <;> rfl, fun hmain => ?_⟩
    have hnot : task.waits = false := by simpa [hmain] using hwaits
    unfold toRun
    rw [hw]
    cases task with
    | shutdown => rfl
    | handleBusMessage m => simp [execute, hactive, Task.waits]
    | other waits => simp [execute, hactive, hnot]
  · cases hstep

theorem any_toRun_destroy (hstep : destroy s = some s') :
    s'.onMainThread = s.onMainThread ∧
      (toRun s').any Task.waits = (toRun s).any Task.waits := by
  unfold destroy at hstep
  split at hstep
  · cases hstep
    exact ⟨rfl, rfl⟩
  · split_ifs at hstep
    cases hstep
    exact ⟨rfl, rfl⟩
  · cases hstep
    exact ⟨rfl, any_toRun_of_not_waits s .shutdown rfl⟩
  · split_ifs at hstep
    cases hstep
    exact ⟨rfl, rfl⟩
  · cases hstep

/-- By the threads of the player, what the worker comes to changes only if the main thread is not in
the destructor. -/
theorem own_step (hs : Inv handle s) {a : Act} (ha : ownStep s a)
    (hstep : step handle s a = some s') : s'.onMainThread = s.onMainThread ∧
      (s.onMainThread = true → (toRun s').any Task.waits = (toRun s).any Task.waits) := by
  rcases ha with rfl | rfl | rfl
  · unfold step at hstep
    rcases hd : s.dispatcher with _ | _ | m | _ <;> rw [hd] at hstep <;> cases hstep
    · exact ⟨rfl, fun _ => rfl⟩
    · unfold gstBusTimedPopFiltered
      split <;> exact ⟨rfl, fun _ => rfl⟩
    · exact ⟨rfl, fun _ => any_toRun_of_not_waits s (.handleBusMessage m) rfl⟩
  · exact any_toRun_worker hs hstep
  · exact ⟨(any_toRun_destroy hstep).1, fun _ => (any_toRun_destroy hstep).2⟩

/-- The main thread that waits for the worker, and the worker for it, do so for ever. -/
theorem stuck_step (hs : Inv handle s) (h : Stuck s) {a : Act}
    (hstep : step handle s a = some s') : Stuck s' := by
  have hown : ownStep s a → Stuck s' := fun ha => by
    obtain ⟨hmain, hsame⟩ := own_step hs ha hstep
    exact ⟨hmain.trans h.1, (hsame h.1).trans h.2⟩
  cases a with
  | post m =>
    cases hstep
    exact h
  | dispatcher => exact hown (Or.inl rfl)
  | enqueueOther waits =>
    cases hstep
    obtain ⟨b, hb⟩ := any_toRun_enqueue s (.other waits)
    exact ⟨h.1, by rw [hb, h.2]; rfl⟩
  | worker => exact hown (Or.inr (Or.inl rfl))
  | destructor => exact hown (Or.inr (Or.inr rfl))
  | destroyOnMainThread =>
    obtain ⟨-, hstep⟩ := Option.ite_none_right_eq_some.mp hstep
    obtain ⟨s₁, hdestroy, rfl⟩ := Option.map_eq_some_iff.mp hstep
    exact ⟨rfl, (any_toRun_destroy hdestroy).2.trans h.2⟩

theorem not_stuck_step (hs : Inv handle s) (h : ¬Stuck s) {a : Act} (ha : ownStep s a)
    (hstep : step handle s a = some s') : ¬Stuck s' := by
  rintro ⟨hmain, hany⟩
  obtain ⟨hmain', hsame⟩ := own_step hs ha hstep
  have hbefore := hmain'.symm.trans hmain
  exact h ⟨hbefore, (hsame hbefore).symm.trans hany⟩

/-- A dispatcher that is told to end does, at the latest when it waits for a message no more. -/
theorem dispatcher_exits (handle : Message → List Effect)
    (hquiet : s.isGstreamerDispatcherActive = false) :
    ∃ bs t, Run (step handle) ownStep s bs t ∧ t.dispatcher = .exited ∧
      t.destructor = s.destructor := by
  have htesting : ∀ u : State, u.dispatcher = .testing → u.isGstreamerDispatcherActive = false →
      ∃ bs t, Run (step handle) ownStep u bs t ∧ t.dispatcher = .exited ∧
        t.destructor = u.destructor := fun u hd hinactive => by
    have hstep : step handle u .dispatcher = some { u with
        dispatcher := if u.isGstreamerDispatcherActive then .popping else .exited } := by
      unfold step
      rw [hd]
    refine ⟨_, _, .cons (Or.inl rfl) hstep (.nil _), ?_, rfl⟩
    show (if u.isGstreamerDispatcherActive then Dispatcher.popping else .exited) = .exited
    rw [hinactive]
    rfl
  have hhandling : ∀ (u : State) m, u.dispatcher = .handling m →
      u.isGstreamerDispatcherActive = false → ∃ bs t, Run (step handle) ownStep u bs t ∧
        t.dispatcher = .exited ∧ t.destructor = u.destructor := fun u m hd hinactive => by
    have hstep : step handle u .dispatcher = some (dispatch u m) := by
      unfold step
      rw [hd]
    obtain ⟨bs, t, hrun, hexited, hdestructor⟩ := htesting (dispatch u m) rfl (by
      show (u.isGstreamerDispatcherActive && !m.stops) = false
      rw [hinactive]
      rfl)
    exact ⟨_, t, .cons (Or.inl rfl) hstep hrun, hexited, hdestructor⟩
  rcases hd : s.dispatcher with _ | _ | m | _
  · exact htesting s hd hquiet
  · have hstep : step handle s .dispatcher = some (gstBusTimedPopFiltered s) := by
      unfold step
      rw [hd]
    unfold gstBusTimedPopFiltered at hstep
    cases hfind : s.bus.contents.find? Message.wanted with
    | some m =>
      rw [hfind] at hstep
      obtain ⟨bs, t, hrun, hrest⟩ := hhandling { s with
        bus := s.bus.pop (s.bus.contents.findIdx Message.wanted + 1)
        dispatcher := .handling m } m rfl hquiet
      exact ⟨_, t, .cons (Or.inl rfl) hstep hrun, hrest⟩
    | none =>
      rw [hfind] at hstep
      obtain ⟨bs, t, hrun, hrest⟩ := htesting { s with
        bus := s.bus.pop s.bus.contents.length, dispatcher := .testing } rfl hquiet
      exact ⟨_, t, .cons (Or.inl rfl) hstep hrun, hrest⟩
  · exact hhandling s m hd hquiet
  · exact ⟨[], s, .nil s, hd, rfl⟩

/-- The steps that a worker takes at most, if no other task comes. -/
def remaining (s : State) : ℕ :=
  3 * s.taskQueue.length +
    match s.worker with
    | .executing _ => 2
    | .testing => 1
    | .waiting | .exited => 0

/-- A worker that does not wait for the main thread comes to its shutdown task and ends. -/
theorem worker_exits (hs : Inv handle s) (hclear : ¬Stuck s)
    (hafter : s.destructor.beforeShutdown = false) :
    ∃ bs t, Run (step handle) ownStep s bs t ∧ t.worker = .exited ∧
      t.destructor = s.destructor := by
  induction hn : remaining s using Nat.strong_induction_on generalizing s with
  | _ n ih =>
    have hnext : ∀ u, step handle s .worker = some u → u.destructor = s.destructor →
        remaining u < n → ∃ bs t, Run (step handle) ownStep s bs t ∧ t.worker = .exited ∧
          t.destructor = s.destructor := fun u hstep hdestructor hlt => by
      obtain ⟨bs, t, hrun, hexited, hd⟩ :=
        ih _ hlt (step_inv hs hstep) (not_stuck_step hs hclear (Or.inr (Or.inl rfl)) hstep)
          (by rw [hdestructor]; exact hafter) rfl
      exact ⟨_, t, .cons (Or.inr (Or.inl rfl)) hstep hrun, hexited, hd.trans hdestructor⟩
    unfold remaining at hn
    rcases hw : s.worker with _ | _ | task | _ <;> rw [hw] at hn <;> dsimp only at hn
    · refine hnext { s with worker := if s.isTaskThreadActive then .waiting else .exited } ?_ rfl ?_
      · unfold step
        rw [hw]
      · unfold remaining
        dsimp only
        split_ifs <;> dsimp only <;> omega
    · -- it waits, so the shutdown task is in the queue
      obtain ⟨task, tasks, hqueue⟩ : ∃ task tasks, s.taskQueue = task :: tasks := by
        rcases hs.shutdown hafter with hmem | hexec | ⟨-, hwhere⟩
        · exact List.exists_cons_of_ne_nil (List.ne_nil_of_mem hmem)
        · rw [hw] at hexec
          cases hexec
        · rw [hw] at hwhere
          rcases hwhere with heq | heq <;> cases heq
      refine hnext { s with taskQueue := tasks, worker := .executing task } ?_ rfl ?_
      · unfold step
        rw [hw, hqueue]
      · rw [hqueue, List.length_cons] at hn
        unfold remaining
        dsimp only
        omega
    · refine hnext (execute handle s task) ?_ (by cases task <;> rfl) ?_
      · have hfree : ¬(task.waits && s.onMainThread) = true := fun hwaits => by
          rw [Bool.and_eq_true] at hwaits
          refine hclear ⟨hwaits.2, ?_⟩
          unfold toRun
          rw [hw]
          cases task with
          | other waits => simp [hwaits.1]
          | _ => exact Bool.noConfusion hwaits.1
        unfold step
        rw [hw]
        exact if_neg hfree
      · unfold remaining
        cases task <;> simp only [execute] <;> omega
    · exact ⟨[], s, .nil s, hw, rfl⟩

/-- A destructor that has been called. -/
theorem destructor_goes_on (hs : Inv handle s) (hclear : ¬Stuck s)
    (hcalled : s.destructor ≠ .notCalled) :
    ∃ bs t, Run (step handle) ownStep s bs t ∧ t.destructor = .workerJoined := by
  have hown : ∀ {u v : State} {cs : List Act}, Run (step handle) ownStep u cs v →
      Inv handle u ∧ ¬Stuck u → Inv handle v ∧ ¬Stuck v := fun hrun hu =>
    hrun.invariant (fun v => Inv handle v ∧ ¬Stuck v)
      (fun _ _ _ hv ha hstep => ⟨step_inv hv.1 hstep, not_stuck_step hv.1 hv.2 ha hstep⟩) hu
  have hdestructor : ∀ {u v : State}, destroy u = some v →
      Run (step handle) ownStep u [.destructor] v := fun hstep =>
    .cons (Or.inr (Or.inr rfl)) hstep (.nil _)
  have hworker : ∀ u : State, Inv handle u ∧ ¬Stuck u → u.destructor = .joiningWorker →
      ∃ bs t, Run (step handle) ownStep u bs t ∧ t.destructor = .workerJoined :=
    fun u hu hd => by
      obtain ⟨bs, t, hrun, hexited, hdestructed⟩ := worker_exits hu.1 hu.2 (by rw [hd]; rfl)
      have hstep : destroy t = some { t with destructor := .workerJoined } := by
        unfold destroy
        rw [hdestructed, hd]
        exact if_pos hexited
      exact ⟨_, _, hrun.append (hdestructor hstep), rfl⟩
  have hjoined : ∀ u : State, Inv handle u ∧ ¬Stuck u → u.destructor = .dispatcherJoined →
      ∃ bs t, Run (step handle) ownStep u bs t ∧ t.destructor = .workerJoined :=
    fun u hu hd => by
      have hstep : destroy u = some { u with
          taskQueue := u.taskQueue ++ [.shutdown], destructor := .joiningWorker } := by
        unfold destroy
        rw [hd]
      obtain ⟨bs, t, hrun, hdone⟩ := hworker _ (hown (hdestructor hstep) hu) rfl
      exact ⟨_, t, (hdestructor hstep).append hrun, hdone⟩
  rcases hd : s.destructor with _ | _ | _ | _ | _
  · exact absurd hd hcalled
  · obtain ⟨bs, t, hrun, hexited, hdestructed⟩ :=
      dispatcher_exits handle (hs.quiet (by rw [hd]; nofun))
    have hstep : destroy t = some { t with destructor := .dispatcherJoined } := by
      unfold destroy
      rw [hdestructed, hd]
      exact if_pos hexited
    have hlong := hrun.append (hdestructor hstep)
    obtain ⟨cs, v, hrun', hdone⟩ := hjoined _ (hown hlong ⟨hs, hclear⟩) rfl
    exact ⟨_, v, hlong.append hrun', hdone⟩
  · exact hjoined s ⟨hs, hclear⟩ hd
  · exact hworker s ⟨hs, hclear⟩ hd
  · exact ⟨[], s, .nil s, hd⟩

/-- **When the destructor returns**: once it is called, it does so by steps of the threads alone,
unless the main thread is in it and the worker comes to a task that waits for the main thread; then
it never does. -/
theorem destructor_returns (h : Run (step handle) anyStep init as s)
    (hcalled : s.destructor ≠ .notCalled) :
    (¬Stuck s ↔ ∃ bs t, Run (step handle) ownStep s bs t ∧ t.destructor = .workerJoined) ∧
    (Stuck s → ∀ bs t, Run (step handle) anyStep s bs t → t.destructor ≠ .workerJoined) := by
  have hs := run_inv (inv_init handle) h
  have hstuck : Stuck s → ∀ bs t, Run (step handle) anyStep s bs t →
      t.destructor ≠ .workerJoined := fun hstuck bs t hrun hdone => by
    obtain ⟨ht, -, hany⟩ := hrun.invariant (fun v => Inv handle v ∧ Stuck v)
      (fun _ _ _ hv _ hstep => ⟨step_inv hv.1 hstep, stuck_step hv.1 hv.2 hstep⟩) ⟨hs, hstuck⟩
    unfold toRun at hany
    rw [ht.done hdone] at hany
    exact Bool.noConfusion hany
  refine ⟨⟨fun hclear => destructor_goes_on hs hclear hcalled, ?_⟩, hstuck⟩
  rintro ⟨bs, t, hrun, hdone⟩ hs'
  exact hstuck hs' bs t (hrun.mono fun _ _ _ => trivial) hdone

/-- A task that waits for the main thread is in the queue: another thread can destroy the player,
the main thread cannot. -/
theorem destructor_returns_waiting :
    (∃ s, Run (step (reportWebAudio true)) anyStep init
      [.dispatcher, .worker, .enqueueOther true, .post ⟨true, .eos⟩, .destructor] s ∧
      ∃ bs t, Run (step (reportWebAudio true)) ownStep s bs t ∧ t.destructor = .workerJoined) ∧
    ∃ s, Run (step (report true)) anyStep init [.enqueueOther true, .destroyOnMainThread] s ∧
      ∀ bs t, Run (step (report true)) anyStep s bs t → t.destructor ≠ .workerJoined := by
  have hother : Run (step (reportWebAudio true)) anyStep init
    [.dispatcher, .worker, .enqueueOther true, .post ⟨true, .eos⟩, .destructor] _ :=
    Run.of_runs rfl
  have hmain : Run (step (report true)) anyStep init [.enqueueOther true, .destroyOnMainThread] _ :=
    Run.of_runs rfl
  refine ⟨⟨_, hother, (destructor_returns hother nofun).1.mp fun h => ?_⟩,
    _, hmain, (destructor_returns hmain nofun).2 ⟨rfl, rfl⟩⟩
  exact Bool.noConfusion h.1

end Rialto.Player.BusMessages
