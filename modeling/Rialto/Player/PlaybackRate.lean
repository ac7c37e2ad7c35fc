import Mathlib.Algebra.GroupWithZero.Nat
import Rialto.Lib.Runs

/-! # The playback rate

A request for a playback rate becomes a task of the worker thread. The task is postponed while the
pipeline is below PLAYING: the rate is kept as pending, and the message that the pipeline is PLAYING
makes a new task of it. The messages come from the bus of the pipeline through the dispatcher
thread, which ends with a message that the pipeline is NULL or has an error.

* `Task.execute`: `SetPlaybackRate` and `HandleBusMessage`.
* `Settled`: the pipeline is PLAYING and nothing is left to do.
* `Orderly`: no step leaves an outdated rate pending, puts one behind a newer request or starts a
  pipeline whose messages are not dispatched.
* `last_rate_wins`: in every run of orderly steps, a settled player has the rate that was requested
  last and no pending rate. -/

namespace Rialto.Player.PlaybackRate

open Rialto.Lib.Runs

inductive GstState
  | voidPending
  | null
  | ready
  | paused
  | playing
  deriving DecidableEq

/-- The messages on the bus: those of the pipeline about its state and about an error; `other` is
any of its other messages, and any message of one of its elements. -/
inductive BusMessage
  | stateChanged (newState : GstState)
  | error
  | other
  deriving DecidableEq

/-- The dispatcher thread ends with this message. -/
def BusMessage.stops : BusMessage → Bool
  | .stateChanged .null | .error => true
  | _ => false

/-- The tasks of the worker thread; `other` is any that has nothing to do with the rate. -/
inductive Task (R : Type*)
  | setPlaybackRate (rate : R)
  | handleBusMessage (message : BusMessage)
  | other

/-- The player with its pipeline, the queue of the worker thread and the messages on the bus.
`lastRequest` records the latest request. -/
structure State (R : Type*) where
  playbackRate : R
  pendingPlaybackRate : R
  pipeline : Option GstState
  queue : List (Task R)
  bus : List BusMessage
  isGstreamerDispatcherActive : Bool
  lastRequest : R

section player

variable {R : Type*} [DecidableEq R] [Zero R] [One R]

/-- `kNoPendingPlaybackRate` is zero. -/
def init : State R := ⟨1, 0, some .null, [], [], true, 1⟩

def enqueueTask (s : State R) (task : Task R) : State R := { s with queue := s.queue ++ [task] }

/-- `GstGenericPlayer::setPlaybackRate` -/
def setPlaybackRate (s : State R) (rate : R) : State R := enqueueTask s (.setPlaybackRate rate)

/-- `setPlaybackRateInternal` refuses a rate of zero. -/
def request (s : State R) (rate : R) : State R :=
  if rate = 0 then s else setPlaybackRate { s with lastRequest := rate } rate

def setPendingPlaybackRate (s : State R) : State R := setPlaybackRate s s.pendingPlaybackRate

/-- `SetPlaybackRate::execute`, with the event accepted. -/
def executeSetPlaybackRate (s : State R) (rate : R) : State R :=
  if s.playbackRate = rate then s
  else
    match s.pipeline with
    | some .playing => { s with pendingPlaybackRate := 0, playbackRate := rate }
    -- there is no pipeline or it is below PLAYING
    | _ => { s with pendingPlaybackRate := rate }

/-- What `HandleBusMessage::execute` does about the rate. -/
def executeHandleBusMessage (s : State R) (message : BusMessage) : State R :=
  match s.pipeline, message with
  | some _, .stateChanged .playing =>
    if s.pendingPlaybackRate ≠ 0 then setPendingPlaybackRate s else s
  | _, _ => s

def Task.execute (s : State R) : Task R → State R
  | .setPlaybackRate rate => executeSetPlaybackRate s rate
  | .handleBusMessage message => executeHandleBusMessage s message
  | .other => s

/-- An iteration of the worker thread. -/
def taskHandler (s : State R) : Option (State R) :=
  match s.queue with
  | [] => none
  | task :: queue => some (task.execute { s with queue := queue })

/-- An iteration of the dispatcher thread. -/
def gstBusEventHandler (s : State R) : Option (State R) :=
  if s.isGstreamerDispatcherActive then
    match s.bus with
    | [] => none
    | message :: bus => some (enqueueTask { s with
        bus := bus, isGstreamerDispatcherActive := !message.stops } (.handleBusMessage message))
  else none

/-- A message is put on the bus. -/
def post (s : State R) (message : BusMessage) : State R := { s with bus := s.bus ++ [message] }

/-- The pipeline changes its state and puts a message on its bus. -/
def changeState (s : State R) (newState : GstState) : Option (State R) :=
  s.pipeline.map fun _ => post { s with pipeline := some newState } (.stateChanged newState)

/-- The pipeline has an error and puts a message on its bus. -/
def postError (s : State R) : Option (State R) := s.pipeline.map fun _ => post s .error

inductive Act (R : Type*)
  | setPlaybackRate (rate : R)
  | enqueueOther
  | changeState (newState : GstState)
  | postError
  | postOther
  | dispatch
  | runTask

def step (s : State R) : Act R → Option (State R)
  | .setPlaybackRate rate => some (request s rate)
  | .enqueueOther => some (enqueueTask s .other)
  | .changeState newState => changeState s newState
  | .postError => postError s
  | .postOther => some (post s .other)
  | .dispatch => gstBusEventHandler s
  | .runTask => taskHandler s

/-- The pipeline is PLAYING, no task waits, and no message that is still to be dispatched. -/
def Settled (s : State R) : Prop :=
  s.pipeline = some .playing ∧ s.queue = [] ∧ (s.isGstreamerDispatcherActive = true → s.bus = [])

def Task.rate? : Task R → Option R
  | .setPlaybackRate rate => some rate
  | _ => none

/-- The rates that wait in the queue. -/
def rates (queue : List (Task R)) : List R := queue.filterMap Task.rate?

/-- What the source does not take care of: the last waiting rate is already set while another is
pending; the pending rate is put behind a newer one; the pipeline becomes PLAYING with a pending
rate when its messages are no longer dispatched. -/
def Orderly (s : State R) : Act R → Prop
  | .runTask =>
    match s.queue with
    | .setPlaybackRate rate :: queue =>
      rates queue = [] → rate = s.playbackRate → s.pendingPlaybackRate = 0
    | .handleBusMessage (.stateChanged .playing) :: queue =>
      s.pendingPlaybackRate ≠ 0 → rates queue ≠ [] → s.pendingPlaybackRate = s.lastRequest
    | _ => True
  | .changeState .playing =>
    s.pendingPlaybackRate ≠ 0 → rates s.queue = [] →
      s.isGstreamerDispatcherActive = true ∧ ∀ message ∈ s.bus, message.stops = false
  | _ => True

end player

/-! ## The invariant -/

section invariant

variable {R : Type*} [Zero R]

/-- A message that the pipeline is PLAYING is in the queue, or on the bus and will be dispatched. -/
def Announced (s : State R) : Prop :=
  .handleBusMessage (.stateChanged .playing) ∈ s.queue ∨ s.isGstreamerDispatcherActive = true ∧
    ∃ pre rest, s.bus = pre ++ .stateChanged .playing :: rest ∧
      ∀ message ∈ pre, message.stops = false

/-- No rate waits: the last one is set, or it is pending until the pipeline is PLAYING. -/
def Idle (s : State R) : Prop :=
  s.pendingPlaybackRate = 0 ∧ s.playbackRate = s.lastRequest ∨
    s.pendingPlaybackRate ≠ 0 ∧ s.pendingPlaybackRate = s.lastRequest ∧
      (s.pipeline ≠ some .playing ∨ Announced s)

structure Inv (s : State R) : Prop where
  nonzero : ∀ rate ∈ rates s.queue, rate ≠ 0
  last : ∀ rate, (rates s.queue).getLast? = some rate → rate = s.lastRequest
  idle : rates s.queue = [] → Idle s

variable {s s' : State R}

omit [Zero R] in
theorem rates_append (q q' : List (Task R)) : rates (q ++ q') = rates q ++ rates q' :=
  List.filterMap_append

/-- The queue gets the latest request at its end. -/
theorem inv_setPlaybackRate (hnonzero : ∀ r ∈ rates s.queue, r ≠ 0) {rate : R} (hne : rate ≠ 0)
    (hlast : rate = s.lastRequest) : Inv (setPlaybackRate s rate) := by
  have hrates : rates (setPlaybackRate s rate).queue = rates s.queue ++ [rate] :=
    rates_append _ _
  refine ⟨fun r hr => ?_, fun r hr => ?_, fun h => ?_⟩
  · rw [hrates] at hr
    rcases List.mem_append.mp hr with hr | hr
    · exact hnonzero r hr
    · rw [List.mem_singleton.mp hr]
      exact hne
  · rw [hrates, List.getLast?_concat] at hr
    cases hr
    exact hlast
  · rw [hrates] at h
    exact absurd h (by simp)

/-- A task that sets no rate is put into the queue. -/
theorem Inv.enqueueTask (hinv : Inv s) {task : Task R} (h : task.rate? = none) :
    Inv (enqueueTask s task) := by
  have hrates : rates (PlaybackRate.enqueueTask s task).queue = rates s.queue := by
    show rates (s.queue ++ [task]) = rates s.queue
    have htask : rates [task] = [] := by
      rw [rates, List.filterMap_cons, h]
      rfl
    rw [rates_append, htask, List.append_nil]
  refine ⟨?_, ?_, fun hidle => ?_⟩
  · rw [hrates]
    exact hinv.nonzero
  · rw [hrates]
    exact hinv.last
  · rw [hrates] at hidle
    rcases hinv.idle hidle with h1 | ⟨hne, heq, h | h⟩
    · exact Or.inl h1
    · exact Or.inr ⟨hne, heq, Or.inl h⟩
    · exact Or.inr ⟨hne, heq, Or.inr (h.imp_left (List.mem_append_left _))⟩

theorem inv_changeState (hinv : Inv s) {newState : GstState}
    (horderly : Orderly s (.changeState newState)) (h : changeState s newState = some s') :
    Inv s' := by
  obtain ⟨-, -, rfl⟩ := Option.map_eq_some_iff.mp h
  refine ⟨hinv.nonzero, hinv.last, fun hidle => ?_⟩
  rcases hinv.idle hidle with h1 | ⟨hne, heq, -⟩
  · exact Or.inl h1
  · refine Or.inr ⟨hne, heq, ?_⟩
    by_cases hplaying : newState = .playing
    · subst hplaying
      obtain ⟨hactive, hbus⟩ := horderly hne hidle
      exact Or.inr (Or.inr ⟨hactive, s.bus, [], rfl, hbus⟩)
    · exact Or.inl fun hp => hplaying (Option.some.inj hp)

/-- A message that is put behind the others takes nothing away. -/
theorem Inv.post (hinv : Inv s) (message : BusMessage) : Inv (post s message) := by
  refine ⟨hinv.nonzero, hinv.last, fun hidle => ?_⟩
  rcases hinv.idle hidle with h1 | ⟨hne, heq, h | h | ⟨hactive, pre, rest, hbus, hpre⟩⟩
  · exact Or.inl h1
  · exact Or.inr ⟨hne, heq, Or.inl h⟩
  · exact Or.inr ⟨hne, heq, Or.inr (Or.inl h)⟩
  · have hsplit : (PlaybackRate.post s message).bus =
        pre ++ .stateChanged .playing :: (rest ++ [message]) := by
      show s.bus ++ [message] = _
      rw [hbus, List.append_assoc, List.cons_append]
    exact Or.inr ⟨hne, heq, Or.inr (Or.inr ⟨hactive, pre, _, hsplit, hpre⟩)⟩

theorem inv_dispatch (hinv : Inv s) (h : gstBusEventHandler s = some s') : Inv s' := by
  unfold gstBusEventHandler at h
  split_ifs at h with hactive
  split at h
  · cases h
  · rename_i message bus hbus
    cases h
    -- as if the message were still on the bus
    have hrate : (Task.handleBusMessage message : Task R).rate? = none := rfl
    have hput := hinv.enqueueTask hrate
    refine ⟨hput.nonzero, hput.last, fun hidle => ?_⟩
    rcases hput.idle hidle with h1 | ⟨hne, heq, h | h⟩
    · exact Or.inl h1
    · exact Or.inr ⟨hne, heq, Or.inl h⟩
    · refine Or.inr ⟨hne, heq, Or.inr ?_⟩
      rcases h with h | ⟨-, pre, rest, hsplit, hpre⟩
      · exact Or.inl h
      · rw [show (PlaybackRate.enqueueTask s (.handleBusMessage message)).bus = s.bus from rfl,
          hbus] at hsplit
        cases pre with
        | nil =>
          cases hsplit
          exact Or.inl (List.mem_append_right _ (List.mem_singleton.mpr rfl))
        | cons first pre =>
          cases hsplit
          obtain ⟨hfirst, hpre⟩ := List.forall_mem_cons.mp hpre
          refine Or.inr ⟨?_, pre, rest, rfl, hpre⟩
          show (!message.stops) = true
          rw [hfirst]
          rfl

/-- A task that sets no rate is taken from the queue; it is not the announcement, or there is
nothing that waits for it. -/
theorem Inv.drop (hinv : Inv s) {task : Task R} {queue : List (Task R)}
    (hq : s.queue = task :: queue) (htask : task.rate? = none)
    (hnot : task = .handleBusMessage (.stateChanged .playing) → s.pendingPlaybackRate ≠ 0 →
      s.pipeline ≠ some .playing) : Inv { s with queue := queue } := by
  have hrates : rates s.queue = rates queue := by
    rw [hq, rates, List.filterMap_cons, htask]
    rfl
  refine ⟨?_, ?_, fun hidle => ?_⟩
  · exact hrates ▸ hinv.nonzero
  · exact hrates ▸ hinv.last
  · rcases hinv.idle (hrates.trans hidle) with h | ⟨hne, heq, h | h⟩
    · exact Or.inl h
    · exact Or.inr ⟨hne, heq, Or.inl h⟩
    · refine Or.inr ⟨hne, heq, ?_⟩
      rcases h with h | h
      · rw [hq] at h
        rcases List.mem_cons.mp h with hhead | hrest
        · exact Or.inl (hnot hhead.symm hne)
        · exact Or.inr (Or.inl hrest)
      · exact Or.inr (Or.inr h)

theorem inv_init [One R] : Inv (init : State R) :=
  ⟨(nomatch ·, ·), (nomatch ·, ·), fun _ => Or.inl ⟨rfl, rfl⟩⟩

/-- What is announced keeps the player from being settled. -/
theorem Inv.settled (hinv : Inv s) (h : Settled s) :
    s.playbackRate = s.lastRequest ∧ s.pendingPlaybackRate = 0 := by
  obtain ⟨hplaying, hqueue, hbus⟩ := h
  have hidle : rates s.queue = [] := by rw [hqueue]; rfl
  rcases hinv.idle hidle with ⟨h0, heq⟩ | ⟨-, -, h | h | ⟨hactive, pre, rest, hsplit, -⟩⟩
  · exact ⟨heq, h0⟩
  · exact absurd hplaying h
  · rw [hqueue] at h
    exact nomatch h
  · rw [hbus hactive] at hsplit
    exact absurd hsplit (by simp)

end invariant

section steps

variable {R : Type*} [DecidableEq R] [Zero R] {s s' : State R}

theorem inv_request (hinv : Inv s) (rate : R) : Inv (request s rate) := by
  unfold request
  split_ifs with h0
  · exact hinv
  · exact inv_setPlaybackRate (s := { s with lastRequest := rate }) hinv.nonzero h0 rfl

theorem executeSetPlaybackRate_frame (s : State R) (rate : R) :
    (executeSetPlaybackRate s rate).queue = s.queue ∧
      (executeSetPlaybackRate s rate).lastRequest = s.lastRequest := by
  unfold executeSetPlaybackRate
  split_ifs
  · exact ⟨rfl, rfl⟩
  · split
    · exact ⟨rfl, rfl⟩
    · exact ⟨rfl, rfl⟩

/-- A rate that is taken from the queue. -/
theorem inv_executeSetPlaybackRate (hinv : Inv s) {rate : R} {queue : List (Task R)}
    (hq : s.queue = .setPlaybackRate rate :: queue)
    (horderly : rates queue = [] → rate = s.playbackRate → s.pendingPlaybackRate = 0) :
    Inv (executeSetPlaybackRate { s with queue := queue } rate) := by
  have hrates : rates s.queue = rate :: rates queue := by rw [hq]; rfl
  obtain ⟨hqueue, hrequest⟩ := executeSetPlaybackRate_frame { s with queue := queue } rate
  refine ⟨fun r hr => ?_, fun r hr => ?_, fun hidle => ?_⟩
  · rw [hqueue] at hr
    refine hinv.nonzero r ?_
    rw [hrates]
    exact List.mem_cons_of_mem _ hr
  · rw [hqueue] at hr
    rw [hrequest]
    refine hinv.last r ?_
    rw [hrates, List.getLast?_cons, hr]
    rfl
  · rw [hqueue] at hidle
    have hlast : rate = s.lastRequest := hinv.last rate (by rw [hrates, hidle]; rfl)
    have hne : rate ≠ 0 := hinv.nonzero rate (by rw [hrates]; exact List.mem_cons_self)
    unfold executeSetPlaybackRate
    by_cases heq : s.playbackRate = rate
    · rw [if_pos heq]
      exact Or.inl ⟨horderly hidle heq.symm, heq.trans hlast⟩
    · rw [if_neg heq]
      by_cases hplaying : s.pipeline = some .playing
      · simp only [hplaying]
        exact Or.inl ⟨rfl, hlast⟩
      · split
        · rename_i hp
          exact absurd hp hplaying
        · exact Or.inr ⟨hne, hlast, Or.inl hplaying⟩

theorem inv_executeHandleBusMessage (hinv : Inv s) {message : BusMessage} {queue : List (Task R)}
    (hq : s.queue = .handleBusMessage message :: queue)
    (horderly : message = .stateChanged .playing → s.pendingPlaybackRate ≠ 0 → rates queue ≠ [] →
      s.pendingPlaybackRate = s.lastRequest) :
    Inv (executeHandleBusMessage { s with queue := queue } message) := by
  have hrates : rates s.queue = rates queue := by rw [hq]; rfl
  unfold executeHandleBusMessage
  split
  · rename_i state hp
    split_ifs with hne
    · refine inv_setPlaybackRate (fun r hr => hinv.nonzero r (hrates ▸ hr)) hne ?_
      by_cases hempty : rates queue = []
      · rcases hinv.idle (hrates.trans hempty) with h | h
        · exact absurd h.1 hne
        · exact h.2.1
      · exact horderly rfl hne hempty
    · exact hinv.drop hq rfl fun _ h => absurd h hne
  · rename_i hnone
    refine hinv.drop hq rfl fun htask _ hp => ?_
    cases htask
    exact hnone .playing hp rfl

theorem inv_runTask (hinv : Inv s) (horderly : Orderly s .runTask)
    (h : taskHandler s = some s') : Inv s' := by
  unfold taskHandler at h
  split at h
  · cases h
  · rename_i task queue hq
    cases h
    unfold Orderly at horderly
    rw [hq] at horderly
    cases task with
    | setPlaybackRate rate => exact inv_executeSetPlaybackRate hinv hq horderly
    | handleBusMessage message =>
      refine inv_executeHandleBusMessage hinv hq fun hplaying => ?_
      subst hplaying
      exact horderly
    | other => exact hinv.drop hq rfl nofun

theorem inv_step (hinv : Inv s) {a : Act R} (horderly : Orderly s a) (h : step s a = some s') :
    Inv s' := by
  cases a with
  | setPlaybackRate rate =>
    cases h
    exact inv_request hinv rate
  | enqueueOther =>
    cases h
    exact hinv.enqueueTask rfl
  | changeState newState => exact inv_changeState hinv horderly h
  | postError =>
    obtain ⟨-, -, rfl⟩ := Option.map_eq_some_iff.mp h
    exact hinv.post .error
  | postOther =>
    cases h
    exact hinv.post .other
  | dispatch => exact inv_dispatch hinv h
  | runTask => exact inv_runTask hinv horderly h

/-- **The last request wins**: in every run of orderly steps, whenever the pipeline is PLAYING and
nothing is left to do, the rate is the one requested last and no rate is pending. -/
theorem last_rate_wins [One R] {as : List (Act R)} {t : State R} (hrun : Run step Orderly init as t)
    (h : Settled t) : t.playbackRate = t.lastRequest ∧ t.pendingPlaybackRate = 0 :=
  (hrun.invariant Inv (fun _ _ _ hinv hok hstep => inv_step hinv hok hstep) inv_init).settled h

end steps

/-- A rate that is requested while the pipeline is paused is set once it is playing. -/
theorem rate_two_wins : ∃ t : State ℕ, Run step Orderly init
    [.changeState .paused, .setPlaybackRate 2, .runTask, .changeState .playing, .dispatch,
      .dispatch, .runTask, .runTask, .runTask] t ∧
    t.lastRequest = 2 ∧ t.playbackRate = t.lastRequest ∧ t.pendingPlaybackRate = 0 := by
  have hrun : Run step Orderly (init : State ℕ)
      [.changeState .paused, .setPlaybackRate 2, .runTask, .changeState .playing, .dispatch,
        .dispatch, .runTask, .runTask, .runTask] _ :=
    Run.cons trivial rfl <| Run.cons trivial rfl <| Run.cons (fun _ _ => rfl) rfl <|
    Run.cons (fun _ _ => ⟨rfl, by decide⟩) rfl <| Run.cons trivial rfl <| Run.cons trivial rfl <|
    Run.cons trivial rfl <| Run.cons (fun _ h => absurd rfl h) rfl <|
    Run.cons (fun _ h => absurd h (by decide)) rfl <| Run.nil _
  exact ⟨_, hrun, rfl, last_rate_wins hrun ⟨rfl, rfl, fun _ => rfl⟩⟩

/-- While the pipeline is paused, a rate of 2 is requested and then the rate of 1 that is set: the
pending 2 is left, and set once the pipeline is playing. -/
theorem outdated_rate_wins : ¬∀ (as : List (Act ℕ)) (t : State ℕ),
    Run step (fun _ _ => True) init as t → Settled t →
      t.playbackRate = t.lastRequest ∧ t.pendingPlaybackRate = 0 := by
  intro hall
  have h := hall [.changeState .paused, .setPlaybackRate 2, .runTask, .setPlaybackRate 1, .runTask,
    .changeState .playing, .dispatch, .dispatch, .runTask, .runTask, .runTask] _
    (Run.of_runs rfl) ⟨rfl, rfl, fun _ => rfl⟩
  exact absurd h.1 (by decide)

end Rialto.Player.PlaybackRate
