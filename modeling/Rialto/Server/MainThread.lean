import Mathlib.Data.Finset.Erase
import Mathlib.Data.Finset.Insert
import Rialto.Lib.Queue
import Rialto.Lib.Word

/-! # The main thread of the server

`MainThread` runs tasks from a queue on one thread. A caller of `enqueueTaskAndWait` holds the mutex
of its task while it puts the task into the queue, gives it up by waiting on the condition variable
of the task, and returns when it is woken, by the notification of the main thread or without one.

A step is a section of code under a lock, or a part of the loop of the main thread; a condition
variable may wake its waiter at any time. Tasks are numbered in the order of the queue. `log`
records what becomes of the tasks, the oldest entry first. -/

namespace Rialto.Server.MainThread

open Rialto.Lib.Queue Rialto.Lib.Word

/-- What a task does: that of `registerClient` inserts the client, that of the destructor stops the
loop. -/
inductive Body
  | user
  | registers (clientId : ℕ)
  | shutdown
  deriving DecidableEq, Repr

/-- `TaskInfo`; `waited` is whether it has a mutex and a condition variable. -/
structure TaskInfo where
  id : ℕ
  clientId : ℕ
  body : Body
  waited : Bool
  deriving DecidableEq, Repr

/-- Where the main thread is: before `waitForTask`, waiting in it for a task, before the check of
the client, in the task, and before the notification. -/
inductive Main
  | idle
  | waiting
  | checking (taskInfo : TaskInfo)
  | running (taskInfo : TaskInfo)
  | finished (taskInfo : TaskInfo)
  deriving DecidableEq, Repr

/-- The task in the hands of the main thread, until it is over. -/
def Main.current : Main → List ℕ
  | .checking taskInfo => [taskInfo.id]
  | .running taskInfo => [taskInfo.id]
  | _ => []

/-- The task that is being run. -/
def Main.inTask : Main → List ℕ
  | .running taskInfo => [taskInfo.id]
  | _ => []

/-- Where a caller of `enqueueTaskAndWait` is: holding the mutex of its task, waiting, woken and
about to take the mutex again, and returned. -/
inductive Caller
  | locked
  | waiting
  | woken
  | returned
  deriving DecidableEq, Repr

/-- What becomes of a task; `taken` records whether its client is registered then. -/
inductive Entry
  | taken (id : ℕ) (registered : Bool)
  | started (id : ℕ)
  | ran (id : ℕ)
  | dropped (id : ℕ)
  deriving DecidableEq, Repr

/-- `MainThread` with its callers. `registering` are the clients whose task is still to be put into
the queue by `registerClient`. -/
structure State where
  nextClientId : ℕ
  registering : List ℕ
  registeredClients : Finset ℕ
  taskQueue : Fifo TaskInfo
  isMainThreadRunning : Bool
  main : Main
  callers : ℕ → Option Caller
  log : List Entry

def mainThreadClientId : ℕ := 0

def init : State :=
  ⟨1, [], {mainThreadClientId}, Fifo.empty, true, .idle, fun _ => none, []⟩

/-- The number of the next task. -/
def State.nextTask (s : State) : ℕ := s.taskQueue.pushed.length

def State.push (s : State) (clientId : ℕ) (body : Body) (waited : Bool) : State :=
  { s with taskQueue := s.taskQueue.push [⟨s.nextTask, clientId, body, waited⟩] }

def State.setCaller (s : State) (id : ℕ) (c : Caller) : State :=
  { s with callers := fun i => if i = id then some c else s.callers i }

def State.note (s : State) (e : Entry) : State := { s with log := s.log ++ [e] }

/-! ## Steps -/

/-- `waitForTask`: with nothing in the queue the thread waits, or goes back to waiting. -/
def waitForTask (s : State) : State :=
  match s.taskQueue.contents with
  | [] => { s with main := .waiting }
  | taskInfo :: _ =>
    { s with taskQueue := s.taskQueue.pop 1, main := .checking taskInfo }.note
      (.taken taskInfo.id (decide (taskInfo.clientId ∈ s.registeredClients)))

/-- The check of `mainThreadLoop`. -/
def checkClient (s : State) (taskInfo : TaskInfo) : State :=
  if taskInfo.clientId ∈ s.registeredClients then
    { s with main := .running taskInfo }.note (.started taskInfo.id)
  else { s with main := .finished taskInfo }.note (.dropped taskInfo.id)

/-- The end of a task. -/
def finishTask (s : State) (taskInfo : TaskInfo) : State :=
  match taskInfo.body with
  | .user => { s with main := .finished taskInfo }.note (.ran taskInfo.id)
  | .registers clientId =>
    { s with
      main := .finished taskInfo
      registeredClients := insert clientId s.registeredClients }.note (.ran taskInfo.id)
  | .shutdown =>
    { s with main := .finished taskInfo, isMainThreadRunning := false }.note (.ran taskInfo.id)

/-- The notification at the end of an iteration, under the mutex of the task. -/
def notify (s : State) (taskInfo : TaskInfo) : Option State :=
  if taskInfo.waited then
    match s.callers taskInfo.id with
    | some .locked => none
    | some .waiting => some { s.setCaller taskInfo.id .woken with main := .idle }
    | _ => some { s with main := .idle }
  else some { s with main := .idle }

/-- The steps. `takeClientId` and `registerClient` are the two halves of `registerClient`,
`destructor` is what the destructor enqueues. `unregisterClient` is called by a task. -/
inductive Act
  | takeClientId
  | registerClient (clientId : ℕ)
  | enqueueTask (clientId : ℕ)
  | enqueueTaskAndWait (clientId : ℕ)
  | destructor
  | wait (id : ℕ)
  | spuriousWakeUp (id : ℕ)
  | returns (id : ℕ)
  | waitForTask
  | checkClient
  | unregisterClient (clientId : ℕ)
  | finishTask
  | notify
  deriving DecidableEq, Repr

def step (s : State) : Act → Option State
  | .takeClientId =>
    some { s with
      nextClientId := add32 s.nextClientId 1
      registering := s.registering ++ [s.nextClientId] }
  | .registerClient clientId =>
    if clientId ∈ s.registering then
      some ({ s with registering := s.registering.erase clientId }.push mainThreadClientId
        (.registers clientId) false)
    else none
  | .enqueueTask clientId => some (s.push clientId .user false)
  | .enqueueTaskAndWait clientId =>
    some ((s.push clientId .user true).setCaller s.nextTask .locked)
  | .destructor => some (s.push mainThreadClientId .shutdown false)
  | .wait id => if s.callers id = some .locked then some (s.setCaller id .waiting) else none
  | .spuriousWakeUp id =>
    if s.callers id = some .waiting then some (s.setCaller id .woken) else none
  | .returns id => if s.callers id = some .woken then some (s.setCaller id .returned) else none
  | .waitForTask =>
    match s.main with
    | .idle => if s.isMainThreadRunning then some (waitForTask s) else none
    | .waiting => some (waitForTask s)
    | _ => none
  | .checkClient =>
    match s.main with
    | .checking taskInfo => some (checkClient s taskInfo)
    | _ => none
  | .unregisterClient clientId =>
    match s.main with
    | .running ⟨_, _, .user, _⟩ =>
      some { s with registeredClients := s.registeredClients.erase clientId }
    | _ => none
  | .finishTask =>
    match s.main with
    | .running taskInfo => some (finishTask s taskInfo)
    | _ => none
  | .notify =>
    match s.main with
    | .finished taskInfo => notify s taskInfo
    | _ => none

end Rialto.Server.MainThread
