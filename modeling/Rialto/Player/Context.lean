import Mathlib.Logic.Function.Basic
import Rialto.Lib.Runs
import Rialto.Pipeline.Session

/-! # The generic player

The context of `GstGenericPlayer` and the tasks of its worker, as far as buffers, underflows and the
state of the pipeline are concerned. A buffer is known by a number, in the order of creation, and
`created` has the type of the segment it was created for: `AttachSamples` creates its buffers when
it is constructed, `ReadShmDataAndAttachSamples` when it is executed. The player is destroyed when
its worker has executed all tasks.

Of what happens outside, the state has the buffers pushed to each appsrc and those unreferenced, the
state last asked of the pipeline, whether it was asked by an underflow (`held`), the sources whose
stream was ended, the client's most recent request to play or to pause, and for each recovery from
an underflow what that request was (`recoveries`). -/

namespace Rialto.Player.Context

open Rialto.Lib.Runs
open Rialto.Pipeline.Session (Source)

/-! ## State -/

/-- A segment: its type, unless unknown, and whether its class is the one of its type. -/
structure Segment where
  type : Option Source
  classMatches : Bool
  deriving DecidableEq

inductive GstState
  | null
  | paused
  | playing
  deriving DecidableEq

/-- The requests of the client. -/
inductive Wish
  | play
  | pause
  deriving DecidableEq

/-- The tasks of the worker. An `AttachSamples` has its buffers, an `Underflow` the flag that
enabled it when it was scheduled. -/
inductive Task
  | attachSamples (audioData videoData : List ℕ)
  | readShmDataAndAttachSamples (segments : List Segment)
  | needData (t : Source)
  | enoughData (t : Source)
  | setPosition
  | attachSource (t : Source) (mimeTypeKnown : Bool)
  | removeSource (t : Source)
  | eos (t : Source)
  | underflow (t : Source) (enabled : Bool)
  | checkAudioUnderflow
  | setupAudioDecoder
  | finishSetupSource
  | play
  | pause
  | stop
  deriving DecidableEq

structure State where
  streamInfo : Source → Bool
  appSrc : Source → Bool
  needData : Source → Bool
  needDataPending : Source → Bool
  dataPushed : Source → Bool
  bufferedNotificationSent : Bool
  buffers : Source → List ℕ
  underflowOccured : Source → Bool
  audioUnderflowEnabled : Bool
  audioSourceRemoved : Bool
  created : List (Option Source)
  queue : List Task
  pushed : Source → List ℕ
  unreffed : List ℕ
  pipeline : GstState
  held : Bool
  ended : Source → Bool
  requested : Option Wish
  recoveries : List (Option Wish)
  destroyed : Bool

def init : State where
  streamInfo := fun _ => false
  appSrc := fun _ => false
  needData := fun _ => false
  needDataPending := fun _ => false
  dataPushed := fun _ => false
  bufferedNotificationSent := false
  buffers := fun _ => []
  underflowOccured := fun _ => false
  audioUnderflowEnabled := false
  audioSourceRemoved := false
  created := []
  queue := []
  pushed := fun _ => []
  unreffed := []
  pipeline := .null
  held := false
  ended := fun _ => false
  requested := none
  recoveries := []
  destroyed := false

/-- The number of the next buffer. -/
def State.nextBuffer (s : State) : ℕ := s.created.length

/-- What is decided outside while a task runs: whether a need-data event is sent, whether GStreamer
accepts a seek, and whether the position is beyond the last audio sample while the pipeline
plays. -/
structure Env where
  sends : Bool
  seekAccepted : Bool
  late : Bool
  deriving DecidableEq

/-! ## The player -/

def other : Source → Source
  | .audio => .video
  | .video => .audio

def changePipelineState (s : State) (newState : GstState) : State :=
  { s with pipeline := newState, held := false }

/-- `cancelUnderflow` for the flag of a source. -/
def cancelUnderflow (s : State) (t : Source) : State :=
  if !s.underflowOccured t then s
  else
    let s' := { s with underflowOccured := Function.update s.underflowOccured t false }
    if s.underflowOccured (other t) then s'
    else { changePipelineState s' .playing with recoveries := s.recoveries ++ [s.requested] }

/-- The appsrc of a source is looked up when it is needed first. -/
def findAppSrc (s : State) (t : Source) : State :=
  { s with appSrc := Function.update s.appSrc t (s.appSrc t || s.streamInfo t) }

/-- `attachAudioData` and `attachVideoData`. -/
def attachData (s : State) (t : Source) : State :=
  if s.buffers t = [] || !s.needData t then s
  else
    let s' := findAppSrc s t
    if s'.appSrc t then
      cancelUnderflow { s' with
        pushed := Function.update s.pushed t (s.pushed t ++ s.buffers t)
        buffers := Function.update s.buffers t []
        dataPushed := Function.update s.dataPushed t true
        bufferedNotificationSent := s.bufferedNotificationSent || s.dataPushed (other t) } t
    else s'

/-- A buffer is queued and attached. -/
def attachBuffer (s : State) (t : Source) (buffer : ℕ) : State :=
  attachData { s with buffers := Function.update s.buffers t (s.buffers t ++ [buffer]) } t

/-- `notifyNeedMediaData` for one source. -/
def notifyNeedMediaData (s : State) (env : Env) (t : Source) : State :=
  { s with needDataPending := Function.update s.needDataPending t (s.needData t && env.sends) }

/-! ## The tasks -/

/-- The buffers of a source among those created for segments, from a number on. -/
def dataOf (t : Source) : List Segment → ℕ → List ℕ
  | [], _ => []
  | segment :: segments, n =>
    if segment.type = some t && segment.classMatches then n :: dataOf t segments (n + 1)
    else dataOf t segments (n + 1)

/-- The loop of `AttachSamples::execute` over the data of one source. -/
def attachAll (t : Source) : List ℕ → State → State
  | [], s => s
  | buffer :: buffers, s => attachAll t buffers (attachBuffer (findAppSrc s t) t buffer)

/-- The loop of `ReadShmDataAndAttachSamples::execute`. -/
def readAll : List Segment → State → State
  | [], s => s
  | segment :: segments, s =>
    let buffer := s.nextBuffer
    let s := { s with created := s.created ++ [segment.type] }
    match segment.type with
    | none => readAll segments s
    | some t =>
      readAll segments (attachBuffer (if segment.classMatches then findAppSrc s t else s) t buffer)

/-- `NeedData::execute`. -/
def needDataTask (s : State) (env : Env) (t : Source) : State :=
  if s.streamInfo t then
    let s' := { s with needData := Function.update s.needData t true }
    if !s.needDataPending t && !(t = .audio && s.audioSourceRemoved) then
      { s' with needDataPending := Function.update s.needDataPending t env.sends }
    else s'
  else s

/-- `SetPosition::execute`. -/
def setPosition (s : State) (env : Env) : State :=
  let s' := { s with
    needData := fun _ => false
    needDataPending := fun _ => false
    unreffed := s.unreffed ++ s.buffers .audio ++ s.buffers .video
    buffers := fun _ => [] }
  if env.seekAccepted then
    needDataTask (needDataTask { s' with ended := fun _ => false } env .audio) env .video
  else s'

/-- `RemoveSource::execute`; only audio is supported. -/
def removeSource (s : State) (t : Source) : State :=
  if t = .audio then { s with
    buffers := Function.update s.buffers .audio []
    needData := Function.update s.needData .audio false
    needDataPending := Function.update s.needDataPending .audio false
    audioUnderflowEnabled := false
    audioSourceRemoved := true } else s

/-- `AttachSource::execute`. -/
def attachSource (s : State) (env : Env) (t : Source) (mimeTypeKnown : Bool) : State :=
  if !s.streamInfo t then { s with streamInfo := Function.update s.streamInfo t true }
  else if t = .audio && s.audioSourceRemoved && mimeTypeKnown then
    notifyNeedMediaData { s with
      needData := Function.update s.needData .audio true
      audioUnderflowEnabled := true
      audioSourceRemoved := false } env .audio
  else s

/-- `Eos::execute`. -/
def eos (s : State) (t : Source) : State :=
  let s' := cancelUnderflow s t
  if s'.streamInfo t then { s' with ended := Function.update s'.ended t true } else s'

/-- `Underflow::execute`, which executes a `Pause`. -/
def underflow (s : State) (t : Source) (underflowEnabled : Bool) : State :=
  if !underflowEnabled then s
  else if s.underflowOccured t then s
  else { changePipelineState s .paused with
    underflowOccured := Function.update s.underflowOccured t true, held := true }

/-- `FinishSetupSource::execute`. -/
def finishSetupSource (s : State) (env : Env) : State :=
  let s' := if s.streamInfo .audio then notifyNeedMediaData s env .audio else s
  if s'.streamInfo .video then notifyNeedMediaData s' env .video else s'

/-- Execute a task. -/
def execute (s : State) (env : Env) : Task → State
  | .attachSamples audioData videoData =>
    let s' := attachAll .video videoData (attachAll .audio audioData s)
    if audioData ≠ [] then notifyNeedMediaData s' env .audio
    else if videoData ≠ [] then notifyNeedMediaData s' env .video
    else s'
  | .readShmDataAndAttachSamples segments =>
    match segments.head?.bind Segment.type with
    | none => readAll segments s
    | some t => notifyNeedMediaData (readAll segments s) env t
  | .needData t => needDataTask s env t
  | .enoughData t =>
    if s.streamInfo t then { s with needData := Function.update s.needData t false } else s
  | .setPosition => setPosition s env
  | .attachSource t mimeTypeKnown => attachSource s env t mimeTypeKnown
  | .removeSource t => removeSource s t
  | .eos t => eos s t
  | .underflow t enabled => underflow s t enabled
  | .checkAudioUnderflow =>
    if s.appSrc .audio && env.late then underflow s .audio s.audioUnderflowEnabled else s
  | .setupAudioDecoder => { s with audioUnderflowEnabled := true }
  | .finishSetupSource => finishSetupSource s env
  | .play => changePipelineState s .playing
  | .pause => changePipelineState s .paused
  | .stop => { changePipelineState s .null with needData := fun _ => false }

/-! ## Steps -/

/-- What can happen next: `attachSamples`, the underflow callbacks and the client's requests, any
other task that is enqueued, a task of the worker, the end of the player. -/
inductive Act
  | attachSamples (mediaSegments : List Segment)
  | underflowCallback (t : Source)
  | request (wish : Wish)
  | enqueue (task : Task)
  | work (env : Env)
  | destroy
  deriving DecidableEq

/-- The tasks that are enqueued as they are. -/
def Task.isPlain : Task → Bool
  | .attachSamples _ _ | .underflow _ _ | .play | .pause => false
  | _ => true

def Wish.task : Wish → Task
  | .play => .play
  | .pause => .pause

/-- The destructor, when the worker has ended. -/
def destroy (s : State) : State :=
  { changePipelineState s .null with
    unreffed := s.unreffed ++ s.buffers .audio ++ s.buffers .video
    buffers := fun _ => []
    needData := fun _ => false
    destroyed := true }

def step (s : State) (a : Act) : Option State :=
  if s.destroyed then none
  else match a with
    | .attachSamples mediaSegments =>
      some { s with
        created := s.created ++ mediaSegments.map Segment.type
        queue := s.queue ++ [.attachSamples (dataOf .audio mediaSegments s.nextBuffer)
          (dataOf .video mediaSegments s.nextBuffer)] }
    | .underflowCallback t =>
      some { s with queue := s.queue ++
        [.underflow t (if t = .audio then s.audioUnderflowEnabled else true)] }
    | .request wish => some { s with queue := s.queue ++ [wish.task], requested := some wish }
    | .enqueue task => if task.isPlain then some { s with queue := s.queue ++ [task] } else none
    | .work env =>
      match s.queue with
      | [] => none
      | task :: rest => some (execute { s with queue := rest } env task)
    | .destroy => if s.queue = [] then some (destroy s) else none

end Rialto.Player.Context
