import Mathlib.Logic.Function.Basic
import Mathlib.Order.Nat
import Rialto.Lib.OrdMap
import Rialto.Lib.Runs
import Rialto.Lib.Word

/-! # A media session: the need-data protocol

`MediaPipelineServerInternal` on the main thread and the tasks of `GstGenericPlayer` on the worker
thread, each with its queue, the resend timers, the client and GStreamer. The state is that of a
session with a loaded player whose sources have been set up.

A task of the main thread runs in one step. A task of the worker runs until it is finished, until it
waits for the main thread in `notifyNeedMediaData`, or, in `SetPosition`, up to the seek of the
pipeline, which is a step of its own; what is left of it are the `ops` of the worker.

* `notifyNeedMediaDataInternal`, `scheduleNotifyNeedMediaData`, `haveData`: the main thread;
* `startTask`, `runOps`: the worker;
* `step`: the session with its surroundings. -/

namespace Rialto.Pipeline.Session

open Rialto.Lib.OrdMap Rialto.Lib.Runs Rialto.Lib.Word

/-! ## Requests, samples and tasks -/

/-- The media source types that can be attached. -/
inductive Source
  | audio
  | video
  deriving DecidableEq

inductive MediaSourceStatus
  | ok
  | eos
  | error
  | codecChanged
  | noAvailableSamples
  deriving DecidableEq

/-- An entry of `ActiveRequests`: its type and the segments added to it, of which only the type is
kept (`none` for a segment whose class does not match its type, of which no buffer is queued). Of
its history it records the seek that was flushed last and the seeks whose requests had been cleared
when it was issued. -/
structure Request where
  type : Source
  segments : List (Option Source)
  flush : ℕ
  clears : ℕ
  deriving DecidableEq

/-- The tasks of the main thread: calls of the client, and what the worker and the timers post. -/
inductive MainTask
  | haveData (status : MediaSourceStatus) (numFrames needDataRequestId : ℕ)
  | haveDataSegments (status : MediaSourceStatus) (needDataRequestId : ℕ)
  | addSegment (needDataRequestId : ℕ) (segment : Option Source) (fits : Bool)
  | attachSource (t : Source) (mimeTypeKnown : Bool)
  | removeSource (t : Source)
  | setPosition
  | needMediaData (t : Source)
  | clearActiveRequests
  | invalidateActiveRequests (t : Source)
  | resend (t : Source)
  deriving DecidableEq

/-- The calls of the client. -/
def MainTask.isCall : MainTask → Bool
  | .haveData _ _ _ | .haveDataSegments _ _ | .addSegment _ _ _ | .attachSource _ _
  | .removeSource _ | .setPosition => true
  | _ => false

/-- The tasks that the worker posts. -/
def MainTask.fromWorker : MainTask → Bool
  | .needMediaData _ | .clearActiveRequests | .invalidateActiveRequests _ => true
  | _ => false

/-- The versions of the frames in the shared memory. -/
inductive MetadataVersion
  | v1
  | v2
  deriving DecidableEq

/-- The tasks of the worker. The attach tasks carry the request they answer. -/
inductive WorkerTask
  | needData (t : Source)
  | enoughData (t : Source)
  | setPosition
  | attachSource (t : Source) (mimeTypeKnown : Bool)
  | removeSource (t : Source)
  | readShmDataAndAttachSamples (request : Request) (numFrames : ℕ) (version : MetadataVersion)
  | attachSamples (request : Request)
  | eos (t : Source)
  deriving DecidableEq

/-- What can be left of the task that the worker is executing. -/
inductive Op
  | seek
  | needData (t : Source)
  | notifyNeedMediaData (t : Source)
  deriving DecidableEq

/-- A resend timer. A timer that has fired is active until its thread has ended. -/
inductive ResendTimer
  | absent
  | armed
  | fired
  | ended
  deriving DecidableEq

/-- `Timer::isActive`. -/
def ResendTimer.isActive : ResendTimer → Bool
  | .armed | .fired => true
  | .absent | .ended => false

/-- A buffer pushed to an appsrc: the request its sample answers, and the seek flushed last. -/
structure Push where
  request : Request
  flush : ℕ
  deriving DecidableEq

/-- The session. A sample in `buffers` is represented by the request it answers. `regions` has the
request whose frames can be in the region of a source: the one for which it was cleared last, or
whose `haveData` was executed since. `eosSignalled` holds from the `haveData` that announced the end
of the stream to the next seek or removal; `seeks`, `clears` and `flushed` number the seeks begun,
those whose requests have been cleared and the one flushed last; `overwritten` says that a region
was cleared with a task queued that still had to read it. -/
structure State where
  attachedSources : Source → Bool
  timers : Source → ResendTimer
  activeRequests : OMap ℕ Request
  currentId : ℕ
  mainQueue : List MainTask
  streamInfo : Source → Bool
  needData : Source → Bool
  needDataPending : Source → Bool
  audioSourceRemoved : Bool
  buffers : Source → List Request
  workerQueue : List WorkerTask
  ops : List Op
  waiting : Option Source
  eosSignalled : Source → Bool
  seeks : ℕ
  clears : ℕ
  flushed : ℕ
  pushed : List Push
  regions : Source → Option Request
  overwritten : Bool

/-- A session without sources. -/
def init : State where
  attachedSources := fun _ => false
  timers := fun _ => .absent
  activeRequests := OMap.empty
  currentId := 0
  mainQueue := []
  streamInfo := fun _ => false
  needData := fun _ => false
  needDataPending := fun _ => false
  audioSourceRemoved := false
  buffers := fun _ => []
  workerQueue := []
  ops := []
  waiting := none
  eosSignalled := fun _ => false
  seeks := 0
  clears := 0
  flushed := 0
  pushed := []
  regions := fun _ => none
  overwritten := false

/-- What the surroundings decide while a task runs: whether a need-data event can be sent, whether
the shared memory has a region for the source and which supported version its metadata has, whether
the client has written the frames that are to be read, and whether GStreamer accepts a seek. -/
structure Env where
  sends : Bool
  region : Bool
  version : Option MetadataVersion
  readable : Bool
  seekAccepted : Bool
  deriving DecidableEq

/-- Everything succeeds. -/
def Env.willing : Env := ⟨true, true, some .v2, true, true⟩

/-! ## The main thread -/

/-- The task reads the region of the source. -/
def WorkerTask.reads (t : Source) : WorkerTask → Bool
  | .readShmDataAndAttachSamples request _ _ => request.type = t
  | _ => false

/-- `notifyNeedMediaDataInternal`: the state after it and what it returns. The region is cleared
whether or not there will be a request. The map does not replace a request that has the next id
already. -/
def notifyNeedMediaDataInternal (c : State) (env : Env) (t : Source) : State × Bool :=
  let request : Request := ⟨t, [], c.flushed, c.clears⟩
  let c' := { c with
    timers := Function.update c.timers t .absent
    regions := Function.update c.regions t none
    overwritten := c.overwritten || c.workerQueue.any (WorkerTask.reads t) }
  if !c.attachedSources t || !env.sends then (c', false)
  else ({ c' with
    activeRequests := c.activeRequests.emplace c.currentId request
    regions := Function.update c.regions t (some request)
    currentId := add32 c.currentId 1 }, true)

/-- `scheduleNotifyNeedMediaData`. -/
def scheduleNotifyNeedMediaData (c : State) (t : Source) : State :=
  if (c.timers t).isActive then c else { c with timers := Function.update c.timers t .armed }

/-- The task that a resend timer posts. -/
def resendNeedMediaData (c : State) (env : Env) (t : Source) : State :=
  match notifyNeedMediaDataInternal
      { c with timers := Function.update c.timers t .absent } env t with
  | (c', true) => c'
  | (c', false) => scheduleNotifyNeedMediaData c' t

/-- `attachSamples` and, at the end of the stream, `setEos`: the tasks for the worker, with the note
that the end of the stream has been signalled. -/
def attachAndSetEos (c : State) (t : Source) (attach : List WorkerTask)
    (status : MediaSourceStatus) :
    State :=
  if status = .eos then { c with
    workerQueue := c.workerQueue ++ (attach ++ [.eos t])
    eosSignalled := Function.update c.eosSignalled t true }
  else { c with workerQueue := c.workerQueue ++ attach }

/-- `haveDataInternal` with a number of frames in the shared memory. -/
def haveData (c : State) (env : Env) (status : MediaSourceStatus) (numFrames id : ℕ) : State :=
  match c.activeRequests.find? id with
  | none => c
  | some request =>
    let c' := { c with activeRequests := c.activeRequests.erase id }
    if status ≠ .ok ∧ status ≠ .eos then scheduleNotifyNeedMediaData c' request.type
    else if !env.region then c'
    else if numFrames = 0 then attachAndSetEos c' request.type [] status
    else match env.version with
      | none => c'
      | some version =>
        attachAndSetEos { c' with
            regions := Function.update c.regions request.type (some request) }
          request.type [.readShmDataAndAttachSamples request numFrames version] status

/-- `haveDataInternal` with the segments added to the request. -/
def haveDataSegments (c : State) (status : MediaSourceStatus) (id : ℕ) : State :=
  match c.activeRequests.find? id with
  | none => c
  | some request =>
    let c' := { c with activeRequests := c.activeRequests.erase id }
    if status ≠ .ok ∧ status ≠ .eos then scheduleNotifyNeedMediaData c' request.type
    else attachAndSetEos c' request.type [.attachSamples request] status

/-- `addSegmentInternal`; whether the data fits the request is decided outside. -/
def addSegment (c : State) (id : ℕ) (segment : Option Source) (fits : Bool) : State :=
  match c.activeRequests.find? id with
  | none => c
  | some request =>
    let request' := { request with segments := request.segments ++ [segment] }
    if fits then { c with activeRequests := c.activeRequests.insert id request' } else c

/-- `attachSourceInternal`. -/
def attachSource (c : State) (t : Source) (mimeTypeKnown : Bool) : State :=
  { c with
    workerQueue := c.workerQueue ++ [.attachSource t mimeTypeKnown]
    attachedSources := Function.update c.attachedSources t true }

/-- `removeSourceInternal`. -/
def removeSource (c : State) (t : Source) : State :=
  if c.attachedSources t then { c with
    workerQueue := c.workerQueue ++ [.removeSource t]
    attachedSources := Function.update c.attachedSources t false } else c

/-! ## The worker -/

/-- Post a task to the main thread. -/
def post (c : State) (task : MainTask) : State := { c with mainQueue := c.mainQueue ++ [task] }

/-- `IGstGenericPlayerClient::notifyNeedMediaData`: post the task and wait for it. -/
def ask (c : State) (t : Source) : State :=
  { c with mainQueue := c.mainQueue ++ [.needMediaData t], waiting := some t }

/-- The body of `NeedData::execute` for the source of the given type. -/
def needDataOp (c : State) (t : Source) : State :=
  let c' := { c with needData := Function.update c.needData t true }
  if !c.needDataPending t && !(t = .audio && c.audioSourceRemoved) then ask c' t else c'

/-- `GstGenericPlayer::notifyNeedMediaData` for one source. -/
def notifyOp (c : State) (t : Source) : State :=
  let c' := { c with needDataPending := Function.update c.needDataPending t false }
  if c.needData t then ask c' t else c'

/-- Run what is left of a task, up to a wait or a seek. -/
def runOps (c : State) : List Op → State
  | [] => { c with ops := [] }
  | .seek :: ops => { c with ops := .seek :: ops }
  | .needData t :: ops =>
    let c' := needDataOp c t
    if c'.waiting.isSome then { c' with ops := ops } else runOps c' ops
  | .notifyNeedMediaData t :: ops =>
    let c' := notifyOp c t
    if c'.waiting.isSome then { c' with ops := ops } else runOps c' ops

/-- `attachAudioData` and `attachVideoData`. -/
def attachData (c : State) (t : Source) : State :=
  if c.needData t && c.streamInfo t then { c with
    pushed := c.pushed ++ (c.buffers t).map fun r => ⟨r, c.flushed⟩
    buffers := Function.update c.buffers t [] } else c

/-- Queue one buffer and push what can be pushed. -/
def attachSample (request : Request) (t : Source) (c : State) : State :=
  attachData { c with buffers := Function.update c.buffers t (c.buffers t ++ [request]) } t

/-- Queue a number of buffers of one source. -/
def attachMany (request : Request) (t : Source) : ℕ → State → State
  | 0, c => c
  | n + 1, c => attachMany request t n (attachSample request t c)

/-- The source that an attach task notifies: the first of the flags of `notifyNeedMediaData`. -/
def notified (segments : List (Option Source)) : Option Source :=
  if some .audio ∈ segments then some .audio
  else if some .video ∈ segments then some .video
  else none

/-- The `NeedData` tasks at the end of `SetPosition`. -/
def needDataOps (c : State) : List Op :=
  (if c.streamInfo .audio then [.needData .audio] else []) ++
    if c.streamInfo .video then [.needData .video] else []

/-- `SetPosition::execute` up to the seek. -/
def startSetPosition (c : State) : State :=
  { c with
    mainQueue := c.mainQueue ++ [.clearActiveRequests]
    needData := fun _ => false
    needDataPending := fun _ => false
    buffers := fun _ => []
    eosSignalled := fun _ => false
    seeks := c.seeks + 1
    ops := .seek :: needDataOps c }

/-- `RemoveSource::execute` for audio; the other types are not supported. -/
def removeAudio (c : State) : State :=
  { c with
    mainQueue := c.mainQueue ++ [.invalidateActiveRequests .audio]
    buffers := Function.update c.buffers .audio []
    needData := Function.update c.needData .audio false
    needDataPending := Function.update c.needDataPending .audio false
    eosSignalled := Function.update c.eosSignalled .audio false
    audioSourceRemoved := true }

/-- `IDataReader::readData` on the region as it is now: the request whose frames the reader finds. A
reader of version 2 finds none in a region that was cleared and not written since; one of version 1
finds frames of no bytes there, which stand for the request that its task answers. -/
def readData (c : State) (env : Env) (request : Request) : MetadataVersion → Option Request
  | .v1 => if env.readable then (c.regions request.type).or (some request) else some request
  | .v2 => if env.readable then c.regions request.type else none

/-- Execute a task of the worker. -/
def startTask (c : State) (env : Env) : WorkerTask → State
  | .needData t => if c.streamInfo t then runOps c [.needData t] else c
  | .enoughData t =>
    if c.streamInfo t then { c with needData := Function.update c.needData t false } else c
  | .setPosition => startSetPosition c
  | .attachSource t mimeTypeKnown =>
    if !c.streamInfo t then { c with streamInfo := Function.update c.streamInfo t true }
    else if t = .audio && c.audioSourceRemoved && mimeTypeKnown then
      runOps { c with
        needData := Function.update c.needData .audio true
        audioSourceRemoved := false } [.notifyNeedMediaData .audio]
    else c
  | .removeSource t => if t = .audio then removeAudio c else c
  | .readShmDataAndAttachSamples request numFrames version =>
    match readData c env request version with
    | none => c
    | some found =>
      runOps (attachMany found request.type numFrames c)
        (if numFrames = 0 then [] else [.notifyNeedMediaData request.type])
  | .attachSamples request =>
    let c' := attachMany request .audio (request.segments.count (some .audio)) c
    let c'' := attachMany request .video (request.segments.count (some .video)) c'
    runOps c'' ((notified request.segments).toList.map .notifyNeedMediaData)
  | .eos _ => c

/-- The seek of the pipeline, and the rest of `SetPosition`. -/
def seek (c : State) (env : Env) (ops : List Op) : State :=
  if env.seekAccepted then runOps { c with flushed := c.seeks, ops := [] } ops
  else { c with ops := [] }

/-- The answer of the main thread to the waiting worker, which goes on with its task. -/
def answer (c : State) (t : Source) (result : Bool) : State :=
  runOps { c with
    needDataPending := Function.update c.needDataPending t result
    waiting := none } c.ops

/-- Execute a task of the main thread. -/
def mainTask (c : State) (env : Env) : MainTask → State
  | .haveData status numFrames id => haveData c env status numFrames id
  | .haveDataSegments status id => haveDataSegments c status id
  | .addSegment id segment fits => addSegment c id segment fits
  | .attachSource t mimeTypeKnown => attachSource c t mimeTypeKnown
  | .removeSource t => removeSource c t
  | .setPosition => { c with workerQueue := c.workerQueue ++ [.setPosition] }
  | .needMediaData t =>
    let (c', result) := notifyNeedMediaDataInternal c env t
    answer c' t result
  | .clearActiveRequests => { c with activeRequests := OMap.empty, clears := c.clears + 1 }
  | .invalidateActiveRequests t =>
    { c with activeRequests := c.activeRequests.eraseIf fun e => e.2.type = t }
  | .resend t => resendNeedMediaData c env t

/-! ## The session with its surroundings -/

/-- What can happen next: a call of the client, a callback of GStreamer, a resend timer that fires
or ends, a task of the main thread, or a step of the worker. -/
inductive Action
  | call (task : MainTask)
  | needDataCallback (t : Source)
  | enoughDataCallback (t : Source)
  | timerFires (t : Source)
  | timerEnds (t : Source)
  | main (env : Env)
  | work (env : Env)
  deriving DecidableEq

/-- The callback of a resend timer. -/
def fireTimer (c : State) (t : Source) : State :=
  { c with
    mainQueue := c.mainQueue ++ [.resend t]
    timers := Function.update c.timers t .fired }

/-- One action. -/
def step (c : State) (a : Action) : Option State :=
  match a with
  | .call task => if task.isCall then some (post c task) else none
  | .needDataCallback t => some { c with workerQueue := c.workerQueue ++ [.needData t] }
  | .enoughDataCallback t => some { c with workerQueue := c.workerQueue ++ [.enoughData t] }
  | .timerFires t => if c.timers t = .armed then
      some (fireTimer c t) else none
  | .timerEnds t => if c.timers t = .fired then
      some { c with timers := Function.update c.timers t .ended } else none
  | .main env =>
    match c.mainQueue with
    | [] => none
    | task :: queue => some (mainTask { c with mainQueue := queue } env task)
  | .work env =>
    if c.waiting.isSome then none
    else match c.ops, c.workerQueue with
      | .seek :: ops, _ => some (seek c env ops)
      | _ :: _, _ => none
      | [], [] => none
      | [], task :: queue => some (startTask { c with workerQueue := queue } env task)

/-- A source is attached, GStreamer asks for its data, and the first need-data event is sent. -/
def firstRequest (t : Source) : List Action :=
  [.call (.attachSource t true), .main .willing, .work .willing, .needDataCallback t,
    .work .willing, .main .willing]

/-! ## What a step can do -/

/-- The task attaches the samples of the request. -/
def WorkerTask.attaches (request : Request) : WorkerTask → Prop
  | .readShmDataAndAttachSamples r _ _ => r = request
  | .attachSamples r => r = request
  | _ => False

/-- The cases of `haveData`, in both variants. -/
inductive Handled (c : State) (id : ℕ) : State → Prop
  | unknown : Handled c id c
  | rescheduled {request : Request} (h : c.activeRequests.find? id = some request) :
      Handled c id (scheduleNotifyNeedMediaData
        { c with activeRequests := c.activeRequests.erase id } request.type)
  | failed {request : Request} (h : c.activeRequests.find? id = some request) :
      Handled c id { c with activeRequests := c.activeRequests.erase id }
  | attached {request : Request} (h : c.activeRequests.find? id = some request)
      {attach : List WorkerTask} (hattach : ∀ task ∈ attach, task.attaches request)
      (hlength : attach.length ≤ 1) {regions : Source → Option Request}
      (hregions : regions = c.regions ∨
        regions = Function.update c.regions request.type (some request))
      (status : MediaSourceStatus) :
      Handled c id (attachAndSetEos { c with
        activeRequests := c.activeRequests.erase id
        regions := regions } request.type attach status)

theorem Handled.of_haveData (c : State) (env : Env) (status : MediaSourceStatus) (n id : ℕ) :
    Handled c id (haveData c env status n id) := by
  unfold haveData
  rcases h : c.activeRequests.find? id with _ | request
  · exact .unknown
  · dsimp only
    split_ifs
    · exact .rescheduled h
    · exact .failed h
    · exact .attached h (by simp) (by simp) (Or.inl rfl) status
    · rcases env.version with _ | version
      · exact .failed h
      · exact .attached h (by simp [WorkerTask.attaches]) (by simp) (Or.inr rfl) status

theorem Handled.of_haveDataSegments (c : State) (status : MediaSourceStatus) (id : ℕ) :
    Handled c id (haveDataSegments c status id) := by
  unfold haveDataSegments
  rcases h : c.activeRequests.find? id with _ | request
  · exact .unknown
  · dsimp only
    split_ifs
    · exact .rescheduled h
    · exact .attached h (by simp [WorkerTask.attaches]) (by simp) (Or.inl rfl) status

/-- The cases of `step`, with their guards. -/
inductive Step (c : State) : Action → State → Prop
  | call {task : MainTask} (h : task.isCall = true) : Step c (.call task) (post c task)
  | needDataCallback (t : Source) : Step c (.needDataCallback t)
      { c with workerQueue := c.workerQueue ++ [.needData t] }
  | enoughDataCallback (t : Source) : Step c (.enoughDataCallback t)
      { c with workerQueue := c.workerQueue ++ [.enoughData t] }
  | timerFires {t : Source} (h : c.timers t = .armed) : Step c (.timerFires t)
      (fireTimer c t)
  | timerEnds {t : Source} (h : c.timers t = .fired) : Step c (.timerEnds t)
      { c with timers := Function.update c.timers t .ended }
  | main {task : MainTask} {queue : List MainTask} (h : c.mainQueue = task :: queue) (env : Env) :
      Step c (.main env) (mainTask { c with mainQueue := queue } env task)
  | seek {ops : List Op} (hw : c.waiting = none) (h : c.ops = .seek :: ops) (env : Env) :
      Step c (.work env) (seek c env ops)
  | work {task : WorkerTask} {queue : List WorkerTask} (hw : c.waiting = none) (ho : c.ops = [])
      (h : c.workerQueue = task :: queue) (env : Env) :
      Step c (.work env) (startTask { c with workerQueue := queue } env task)

theorem Step.of_step {c c' : State} {a : Action} (h : step c a = some c') : Step c a c' := by
  cases a with
  | call task =>
    simp only [step] at h
    split_ifs at h with hcall
    cases h
    exact .call hcall
  | needDataCallback t => cases h; exact .needDataCallback t
  | enoughDataCallback t => cases h; exact .enoughDataCallback t
  | timerFires t =>
    simp only [step] at h
    split_ifs at h with ht
    cases h
    exact .timerFires ht
  | timerEnds t =>
    simp only [step] at h
    split_ifs at h with ht
    cases h
    exact .timerEnds ht
  | main env =>
    simp only [step] at h
    rcases hq : c.mainQueue with _ | ⟨task, queue⟩
    · simp [hq] at h
    · rw [hq] at h
      cases h
      exact .main hq env
  | work env =>
    simp only [step] at h
    split_ifs at h with hw
    have hw' : c.waiting = none := by simpa using hw
    rcases ho : c.ops with _ | ⟨op, ops⟩
    · rcases hq : c.workerQueue with _ | ⟨task, queue⟩
      · simp [ho, hq] at h
      · have hstep := Step.work hw' ho hq env
        rw [ho] at hstep
        rw [ho, hq] at h
        cases h
        exact hstep
    · cases op with
      | seek => rw [ho] at h; cases h; exact .seek hw' ho env
      | needData t => rw [ho] at h; cases h
      | notifyNeedMediaData t => rw [ho] at h; cases h

end Rialto.Pipeline.Session
