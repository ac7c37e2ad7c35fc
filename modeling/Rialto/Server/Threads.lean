import Mathlib.Logic.Function.Basic
import Mathlib.Order.Nat
import Mathlib.Tactic.SplitIfs
import Rialto.Lib.Runs

/-! # The threads of the server

The main thread, the IPC thread, the worker of a player and a streaming thread of its pipeline, with
what makes one of them wait for another: `MainThread::enqueueTaskAndWait`, the join of the worker in
the destructor of the player, and `CdmService::m_mediaKeysMutex`. A thread is the list of the
blocking acts that are left of what it executes; everything else that it does is left out.

* `Operation.acts`, `MainTask.acts`, `WorkerTask.acts`: what the operations of the client and the
  tasks of the main thread and of the worker do;
* `exec`, `step`: one act, and one step of the server;
* `waitsFor`: the thread that a thread waits for. -/

namespace Rialto.Server.Threads

/-! ## Acts -/

inductive Thread
  | main
  | ipc
  | worker
  | streaming
  deriving DecidableEq

/-- An encrypted segment from which a buffer is created: how far its key session is looked for in
`m_mediaKeys`, and whether its key system is found to be Netflix. -/
structure EncryptedSegment where
  more : ℕ
  netflix : Bool
  deriving DecidableEq

/-- The tasks of the main thread: those that block nowhere, `loadInternal`, and `haveDataInternal`
with the segments added to the request. The lists hold what there is of encrypted buffers in the
player that is destroyed and of encrypted segments. -/
inductive MainTask
  | plain
  | load (buffers : List ℕ)
  | haveDataSegments (segments : List EncryptedSegment)
  deriving DecidableEq

/-- What `CdmService` does while it holds `m_mediaKeysMutex`: look for the media keys that have a
session and call them, call the media keys of a handle, or create, destroy or clear media keys. -/
inductive Locked
  | lookup (more : ℕ)
  | mediaKeysCall (handle waits : ℕ)
  | createMediaKeys (handle : ℕ) (created : Bool)
  | destroyMediaKeys (handle : ℕ)
  | clear
  deriving DecidableEq

/-- The acts of a thread. -/
inductive Act
  | lock (body : Locked)
  | unlock
  | lookup (more : ℕ)
  | enqueueTaskAndWait (task : MainTask)
  | shutdownAndJoin
  | createPlayer
  | emplaceMediaKeys (handle : ℕ)
  | eraseMediaKeys (handle : ℕ)
  deriving DecidableEq

/-- `std::find_if` over `m_mediaKeys` with `hasSession`, and the call that follows when there is
one: each is a wait for the main thread. The handle is found after at least one question. -/
def hasSessions (mediaKeys : List ℕ) (more : ℕ) : List Act :=
  if mediaKeys = [] then []
  else List.replicate (min more mediaKeys.length + 1) (.enqueueTaskAndWait .plain)

/-- What is done under the mutex. -/
def Locked.acts (mediaKeys : List ℕ) : Locked → List Act
  | .lookup more => hasSessions mediaKeys more
  | .mediaKeysCall handle waits =>
    if handle ∈ mediaKeys then List.replicate waits (.enqueueTaskAndWait .plain) else []
  | .createMediaKeys handle created =>
    if handle ∈ mediaKeys then []
    else .enqueueTaskAndWait .plain :: if created then [.emplaceMediaKeys handle] else []
  | .destroyMediaKeys handle =>
    if handle ∈ mediaKeys then [.eraseMediaKeys handle, .enqueueTaskAndWait .plain] else []
  | .clear => mediaKeys.flatMap fun handle => [.eraseMediaKeys handle, .enqueueTaskAndWait .plain]

/-! ## The decryption service -/

def isNetflixKeySystem (more : ℕ) : List Act := [.lookup more]

def selectKeyId (more : ℕ) : List Act := [.lookup more]

def decrypt (more : ℕ) : List Act := [.lock (.lookup more)]

def incrementSessionIdUsageCounter (more : ℕ) : List Act := [.lock (.lookup more)]

def decrementSessionIdUsageCounter (more : ℕ) : List Act := [.lock (.lookup more)]

/-! ## The player -/

/-- `GstGenericPlayer::createBuffer` for an encrypted segment. -/
def createBuffer (segment : EncryptedSegment) : List Act :=
  isNetflixKeySystem segment.more ++ (if segment.netflix then selectKeyId segment.more else []) ++
    incrementSessionIdUsageCounter segment.more

/-- Unreferencing encrypted buffers. -/
def unrefBuffers (buffers : List ℕ) : List Act := buffers.flatMap decrementSessionIdUsageCounter

/-- `GstGenericPlayer::~GstGenericPlayer`. -/
def destroyPlayer (buffers : List ℕ) : List Act := .shutdownAndJoin :: unrefBuffers buffers

/-- The tasks of the worker, with whether the client is asked for data. -/
inductive WorkerTask
  | needData (asks : Bool)
  | attachSource (asks : Bool)
  | finishSetupSource (audio video : Bool)
  | attachSamples (asks : Bool)
  | readShmDataAndAttachSamples (segments : List EncryptedSegment) (asks : Bool)
  | setPosition (buffers : List ℕ) (audio video : Bool)
  | removeSource (buffers : List ℕ)
  | shutdown
  | other
  deriving DecidableEq

/-- `IGstGenericPlayerClient::notifyNeedMediaData`. -/
def notifyNeedMediaData (asks : Bool) : List Act :=
  if asks then [.enqueueTaskAndWait .plain] else []

def WorkerTask.acts : WorkerTask → List Act
  | .needData asks | .attachSource asks | .attachSamples asks => notifyNeedMediaData asks
  | .finishSetupSource audio video => notifyNeedMediaData audio ++ notifyNeedMediaData video
  | .readShmDataAndAttachSamples segments asks =>
    segments.flatMap createBuffer ++ notifyNeedMediaData asks
  | .setPosition buffers audio video =>
    unrefBuffers buffers ++ notifyNeedMediaData audio ++ notifyNeedMediaData video
  | .removeSource buffers => unrefBuffers buffers
  | .shutdown | .other => []

/-! ## The server -/

/-- A thread executes its acts, has enqueued a task and waits for it, or joins the worker. -/
inductive Status
  | running
  | awaiting
  | joining
  deriving DecidableEq

/-- A task in the queue of the main thread, and the thread that waits for it. -/
structure Entry where
  task : MainTask
  waiter : Option Thread
  deriving DecidableEq

/-- The server. `stopped` says that the function of the worker's thread has returned, or that there
is none. -/
structure State where
  mediaKeys : List ℕ
  holder : Option Thread
  acts : Thread → List Act
  status : Thread → Status
  current : Option Entry
  mainQueue : List Entry
  player : Bool
  workerQueue : List WorkerTask
  stopped : Bool

def init : State where
  mediaKeys := []
  holder := none
  acts := fun _ => []
  status := fun _ => .running
  current := none
  mainQueue := []
  player := false
  workerQueue := []
  stopped := true

/-- What a task does on the main thread. `attachSamples` of the server-only `haveData` creates the
buffers in the constructor of its task. -/
def MainTask.acts (player : Bool) : MainTask → List Act
  | .plain => []
  | .load buffers => (if player then destroyPlayer buffers else []) ++ [.createPlayer]
  | .haveDataSegments segments => segments.flatMap createBuffer

/-- The operations of the client, which the IPC thread executes one after the other. -/
inductive Operation
  | load (buffers : List ℕ)
  | attachSource
  | removeSource
  | haveData
  | haveDataSegments (segments : List EncryptedSegment)
  | setPosition
  | otherPipelineCall
  | destroySession (buffers : List ℕ)
  | createMediaKeys (handle : ℕ) (created : Bool)
  | destroyMediaKeys (handle : ℕ)
  | createKeySession (handle : ℕ) (clientKnown : Bool)
  | generateRequest (handle : ℕ)
  | loadSession (handle : ℕ)
  | updateSession (handle : ℕ)
  | closeKeySession (handle : ℕ)
  | removeKeySession (handle : ℕ)
  | getCdmKeySessionId (handle : ℕ)
  | containsKey (handle : ℕ)
  | setDrmHeader (handle : ℕ)
  | otherMediaKeysCall (handle : ℕ)
  | switchToInactive
  deriving DecidableEq

/-- What an operation does on the IPC thread. -/
def Operation.acts (c : State) : Operation → List Act
  | .load buffers => [.enqueueTaskAndWait (.load buffers)]
  | .attachSource | .removeSource | .haveData | .setPosition | .otherPipelineCall =>
    [.enqueueTaskAndWait .plain]
  | .haveDataSegments segments => [.enqueueTaskAndWait (.haveDataSegments segments)]
  | .destroySession buffers =>
    .enqueueTaskAndWait .plain :: if c.player then destroyPlayer buffers else []
  | .createMediaKeys handle created => [.lock (.createMediaKeys handle created)]
  | .destroyMediaKeys handle => [.lock (.destroyMediaKeys handle)]
  | .createKeySession handle clientKnown =>
    [.lock (.mediaKeysCall handle (if clientKnown then 2 else 1))]
  | .generateRequest handle | .loadSession handle | .updateSession handle | .closeKeySession handle
  | .removeKeySession handle | .getCdmKeySessionId handle => [.lock (.mediaKeysCall handle 1)]
  | .containsKey handle | .setDrmHeader handle | .otherMediaKeysCall handle =>
    if handle ∈ c.mediaKeys then [.enqueueTaskAndWait .plain] else []
  | .switchToInactive => [.lock .clear]

/-- The acts that are left to a thread. -/
def setActs (c : State) (t : Thread) (acts : List Act) : State :=
  { c with acts := Function.update c.acts t acts }

/-- Whether a thread waits. -/
def setStatus (c : State) (t : Thread) (status : Status) : State :=
  { c with status := Function.update c.status t status }

/-- The first act of a thread, `none` while it cannot be executed. The body of a lock is found when
the mutex has been taken. -/
def exec (c : State) (t : Thread) (rest : List Act) : Act → Option State
  | .lock body =>
    if c.holder = none then
      some { setActs c t (body.acts c.mediaKeys ++ .unlock :: rest) with holder := some t }
    else none
  | .unlock => some { setActs c t rest with holder := none }
  | .lookup more => some (setActs c t (hasSessions c.mediaKeys more ++ rest))
  | .enqueueTaskAndWait task =>
    some { setStatus (setActs c t rest) t .awaiting with
      mainQueue := c.mainQueue ++ [⟨task, some t⟩] }
  | .shutdownAndJoin =>
    some { setStatus (setActs c t rest) t .joining with
      workerQueue := c.workerQueue ++ [.shutdown] }
  | .createPlayer =>
    some { setActs c t rest with player := true, workerQueue := [], stopped := false }
  | .emplaceMediaKeys handle => some { setActs c t rest with mediaKeys := handle :: c.mediaKeys }
  | .eraseMediaKeys handle => some { setActs c t rest with mediaKeys := c.mediaKeys.erase handle }

/-- The main thread has executed its task and signals the thread that waits for it. -/
def finish (c : State) (waiter : Option Thread) : State :=
  match waiter with
  | none => { c with current := none }
  | some t => { setStatus c t .running with current := none }

/-- What can happen next: the client calls an operation, a task is enqueued to the worker or posted
to the main thread, the pipeline decrypts a buffer or frees buffers, or a thread makes a step. -/
inductive Action
  | call (operation : Operation)
  | enqueueWorkerTask (task : WorkerTask)
  | post
  | decryptBuffer (more : ℕ)
  | freeBuffers (buffers : List ℕ)
  | run (t : Thread)
  deriving DecidableEq

/-- A step of a thread that has acts left. -/
def runActs (c : State) (t : Thread) : Option State :=
  match c.status t, c.acts t with
  | .running, act :: rest => exec c t rest act
  | .joining, _ =>
    if c.stopped then some { setStatus c t .running with player := false } else none
  | _, _ => none

/-- A thread without acts. -/
def idle (c : State) (t : Thread) : Bool := c.status t == .running && c.acts t == []

/-- A step of a thread, which takes its next task when it is idle. -/
def runThread (c : State) : Thread → Option State
  | .main =>
    match c.current with
    | some entry => if idle c .main then some (finish c entry.waiter) else runActs c .main
    | none =>
      match c.mainQueue with
      | [] => none
      | entry :: queue =>
        some { setActs c .main (entry.task.acts c.player) with
          current := some entry, mainQueue := queue }
  | .worker =>
    if c.stopped then none
    else if idle c .worker then
      match c.workerQueue with
      | [] => none
      | .shutdown :: queue => some { c with workerQueue := queue, stopped := true }
      | task :: queue => some { setActs c .worker task.acts with workerQueue := queue }
    else runActs c .worker
  | .ipc => runActs c .ipc
  | .streaming => runActs c .streaming

/-- One action. -/
def step (c : State) : Action → Option State
  | .call operation => if idle c .ipc then some (setActs c .ipc (operation.acts c)) else none
  | .enqueueWorkerTask task =>
    if c.player && task != .shutdown then some { c with workerQueue := c.workerQueue ++ [task] }
    else none
  | .post => some { c with mainQueue := c.mainQueue ++ [⟨.plain, none⟩] }
  | .decryptBuffer more =>
    if idle c .streaming then
      some (setActs c .streaming (decrypt more ++ decrementSessionIdUsageCounter more))
    else none
  | .freeBuffers buffers =>
    if idle c .streaming then some (setActs c .streaming (unrefBuffers buffers)) else none
  | .run t => runThread c t

/-- The thread that a thread waits for. -/
def waitsFor (c : State) (t : Thread) : Option Thread :=
  match c.status t, c.acts t with
  | .awaiting, _ => some .main
  | .joining, _ => if c.stopped then none else some .worker
  | .running, .lock _ :: _ => c.holder
  | .running, _ => none

end Rialto.Server.Threads
