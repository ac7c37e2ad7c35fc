import Mathlib.Data.Nat.Notation
import Mathlib.Logic.Function.Basic
import Rialto.Service.SessionServer

/-! # The applications of the server manager

`SessionServerAppManager` launches a session server for an application id and keeps it in a map, and
`Controller` keeps the IPC client of it in another one. A session server is known here by the number
of its launch. What it reports, the loss of its connection and the end of its startup timer are put
into the queue of the event thread by the application id only; `emitter` records who it was.

Requests come from any number of threads. Both maps have a lock of their own; a step is the
beginning of a request, one section of a request under a lock, or one section of the handling of an
event. `log` records what the handling of events has done, and to whom.

* `launch`, `connect`: the sections of `addSessionServer`;
* `Handling`, `handleSection`: `handleSessionServerStateChange`, section by section. -/

namespace Rialto.Manager.AppManager

open Rialto.Service.SessionServer (SessionServerState)

/-! ## Applications and events -/

/-- A call of `handleSessionServerStateChange` in the queue of the event thread. -/
structure Event where
  appId : String
  emitter : ℕ
  newState : SessionServerState

/-- The sections of `handleSessionServerStateChange`. -/
inductive Part
  | cancelStartupTimer
  | configure
  | removeClient
  | removeSessionServer
  | stateChanged
  deriving DecidableEq

/-- The event in the hands of the event thread, with the section that is next. -/
structure Handling where
  event : Event
  next : Part

/-- What is left of a request: `addSessionServer` before the launch, before the look-up of the
socket, with the socket of the session server found, and before the removal after a failure, and
`changeSessionServerState`. -/
inductive Call
  | adding (appId : String)
  | launched (appId : String)
  | connecting (appId : String) (socket : Option ℕ)
  | failed (appId : String)
  | changing (appId : String) (newState : SessionServerState)

/-- What the handling of an event does to a session server. -/
inductive Effect
  | timerCancelled
  | configured
  | disconnected
  | removed
  | reported (newState : SessionServerState)
  deriving DecidableEq

structure Entry where
  emitter : ℕ
  target : ℕ
  effect : Effect
  deriving DecidableEq

structure State where
  sessionServerApps : String → Option ℕ
  clients : String → Option ℕ
  nextInstance : ℕ
  timers : ℕ → Bool
  killed : List ℕ
  calls : List Call
  queue : List Event
  handling : Option Handling
  log : List Entry

def init : State := ⟨fun _ => none, fun _ => none, 0, fun _ => false, [], [], [], none, []⟩

def State.start (s : State) (call : Call) : State := { s with calls := s.calls ++ [call] }

def State.emit (s : State) (e : Event) : State := { s with queue := s.queue ++ [e] }

/-- The destruction of a session server cancels its timer. -/
def State.remove (s : State) (appId : String) (n : ℕ) : State :=
  { s with
    sessionServerApps := Function.update s.sessionServerApps appId none
    timers := Function.update s.timers n false }

/-! ## Requests -/

/-- `setSessionServerState` up to the look-up of the application. -/
def setSessionServerState (s : State) (appId : String) (newState : SessionServerState) : State :=
  if (s.sessionServerApps appId).isSome then s.start (.changing appId newState)
  else if newState ≠ .notRunning then s.start (.adding appId)
  else s

/-- What the surroundings decide in a section of a request: whether it succeeds, whether there is a
startup timer, and whether that ends at once. -/
structure Outcome where
  succeeds : Bool
  timed : Bool
  expires : Bool
  deriving DecidableEq

/-- `launchSessionServer`. The map keeps an application that it has already; the new session server
is destroyed then. -/
def launch (s : State) (appId : String) (o : Outcome) : State :=
  let n := s.nextInstance
  let s := { s with nextInstance := n + 1 }
  let s := if o.expires then s.emit ⟨appId, n, .error⟩ else s
  if !o.succeeds then s
  else if (s.sessionServerApps appId).isSome then s.start (.launched appId)
  else State.start { s with
    sessionServerApps := Function.update s.sessionServerApps appId (some n)
    timers := Function.update s.timers n (o.timed && !o.expires) } (.launched appId)

/-- `Controller::createClient`: there is no client for the id yet, and its channel can be made. -/
def connect (s : State) (appId : String) (socket : Option ℕ) (succeeds : Bool) : State :=
  match socket with
  | none => s.start (.failed appId)
  | some n =>
    if (s.clients appId).isNone && succeeds then
      { s with clients := Function.update s.clients appId (some n) }
    else s.start (.failed appId)

/-- `removeSessionServer` with `killApp`. -/
def killSessionServer (s : State) (appId : String) : State :=
  match s.sessionServerApps appId with
  | none => s
  | some n => { s.remove appId n with killed := s.killed ++ [n] }

/-- The next section of a request. -/
def resume (s : State) (o : Outcome) : Call → State
  | .adding appId => launch s appId o
  | .launched appId => s.start (.connecting appId (s.sessionServerApps appId))
  | .connecting appId socket => connect s appId socket o.succeeds
  | .failed appId => killSessionServer s appId
  | .changing _ _ => s

/-! ## Events -/

/-- The first section for a state. -/
def firstPart : SessionServerState → Part
  | .uninitialized => .cancelStartupTimer
  | .error | .notRunning => .removeClient
  | .inactive | .active => .stateChanged

/-- The handling of an event goes on. -/
def Handling.goOn (h : Handling) (next : Part) : Option Handling := some { h with next := next }

/-- Record what was done to a session server, if there is one. -/
def State.note (s : State) (h : Handling) (target : Option ℕ) (effect : Effect) : State :=
  match target with
  | none => s
  | some n => { s with log := s.log ++ [⟨h.event.emitter, n, effect⟩] }

/-- One section of `handleSessionServerStateChange`. Without an application the state that is
reported is that of the session server that was there last, the emitter of the event. -/
def handleSection (s : State) (h : Handling) (succeeds : Bool) : State :=
  let appId := h.event.appId
  match h.next with
  | .cancelStartupTimer =>
    let s := match s.sessionServerApps appId with
      | none => s
      | some n => { s with timers := Function.update s.timers n false }
    { s.note h (s.sessionServerApps appId) .timerCancelled with handling := h.goOn .configure }
  | .configure =>
    if (s.sessionServerApps appId).isSome && (s.clients appId).isSome && succeeds then
      { s.note h (s.clients appId) .configured with handling := h.goOn .stateChanged }
    else { s with
      handling := some ⟨{ h.event with newState := .error }, .removeClient⟩ }
  | .removeClient =>
    { s.note h (s.clients appId) .disconnected with
      clients := Function.update s.clients appId none
      handling := h.goOn .removeSessionServer }
  | .removeSessionServer =>
    let s' := match s.sessionServerApps appId with
      | none => s
      | some n => s.remove appId n
    { s'.note h (s.sessionServerApps appId) .removed with handling := h.goOn .stateChanged }
  | .stateChanged =>
    { s.note h (some ((s.sessionServerApps appId).getD h.event.emitter))
        (.reported h.event.newState) with handling := none }

/-! ## Steps -/

inductive Act
  | setSessionServerState (appId : String) (newState : SessionServerState)
  | proceed (i : ℕ) (o : Outcome)
  | emit (appId : String) (newState : SessionServerState)
  | expire (appId : String)
  | take
  | handle (succeeds : Bool)

/-- One step. A session server reports a state, or its connection is lost (`NOT_RUNNING`), while
there is a client for it. The startup timer kills its own session server. -/
def step (s : State) : Act → Option State
  | .setSessionServerState appId newState => some (setSessionServerState s appId newState)
  | .proceed i o =>
    match s.calls[i]? with
    | none => none
    | some call => some (resume { s with calls := s.calls.eraseIdx i } o call)
  | .emit appId newState =>
    match s.clients appId with
    | none => none
    | some n => some (s.emit ⟨appId, n, newState⟩)
  | .expire appId =>
    match s.sessionServerApps appId with
    | none => none
    | some n =>
      if s.timers n then
        some { s.emit ⟨appId, n, .error⟩ with
          timers := Function.update s.timers n false
          killed := s.killed ++ [n] }
      else none
  | .take =>
    match s.handling, s.queue with
    | none, e :: rest => some { s with queue := rest, handling := some ⟨e, firstPart e.newState⟩ }
    | _, _ => none
  | .handle succeeds =>
    match s.handling with
    | none => none
    | some h => some (handleSection s h succeeds)

end Rialto.Manager.AppManager
