import Rialto.Lib.OrdMap
import Rialto.Media.FrameWriter
import Rialto.Pipeline.Session

/-! # The media pipeline of the client

`MediaPipeline` keeps the need-data requests of the server in a map until the application answers
them. Its functions are called by the threads of the application and by the event thread; they
protect the map and the sources each by a lock of its own, the state is atomic, and the calls to the
server are made outside of the locks.

A step is the beginning of a call, up to its first section under a lock or its read of the state, or
one more such part of a call that is under way. `log` records what becomes of the requests, the
oldest entry first.

* `notifyNeedMediaData`, `haveData`, `setPosition`, `resume`: the calls, part by part;
* `addSegment`: one section under the lock on the map. -/

namespace Rialto.Client.MediaPipeline

open Rialto.Lib.OrdMap Rialto.Lib.Memory Rialto.Media.Segment Rialto.Media.Frames
open Rialto.Media.FrameWriter
open Rialto.Pipeline.Session (MediaSourceStatus)

/-! ## States -/

/-- `MediaPipeline::State`. -/
inductive PipelineState
  | idle
  | buffering
  | playing
  | seeking
  | failure
  | endOfStream
  deriving DecidableEq, Repr

inductive PlaybackState
  | unknown
  | idle
  | playing
  | paused
  | seeking
  | flushed
  | stopped
  | endOfStream
  | failure
  deriving DecidableEq, Repr

inductive NetworkState
  | unknown
  | idle
  | buffering
  | bufferingProgress
  | buffered
  | stalled
  | formatError
  | networkError
  | decodeError
  deriving DecidableEq, Repr

/-- `updateState` with a playback state. -/
def PipelineState.updatePlayback (state : PipelineState) : PlaybackState → PipelineState
  | .playing | .paused => .playing
  | .seeking => .seeking
  | .stopped => .idle
  | .flushed => .buffering
  | .endOfStream => .endOfStream
  | .failure => .failure
  | .unknown | .idle => state

/-- `updateState` with a network state. -/
def PipelineState.updateNetwork (state : PipelineState) : NetworkState → PipelineState
  | .buffering | .bufferingProgress | .stalled => .buffering
  | .formatError | .networkError | .decodeError => .failure
  | .unknown | .idle | .buffered => state

/-- The states in which requests are taken and answered. -/
def PipelineState.takesData : PipelineState → Bool
  | .buffering | .playing => true
  | _ => false

/-- The states in which a position can be set. -/
def PipelineState.takesPosition : PipelineState → Bool
  | .buffering | .playing | .seeking | .endOfStream => true
  | _ => false

/-! ## The pipeline -/

/-- `NeedDataRequest`. -/
structure NeedDataRequest where
  shmInfo : MediaPlayerShmInfo
  frameWriter : Option AnyWriter

/-- What becomes of a request; it is `delivered` when `IMediaPipelineClient` is called. -/
inductive Entry
  | ignored (id : ℕ)
  | delivered (id : ℕ)
  | segment (id : ℕ) (status : AddSegmentStatus)
  | discarded (id : ℕ)
  | dropped (id : ℕ)
  | forwarded (id : ℕ) (status : MediaSourceStatus) (numFrames : ℕ)
  deriving DecidableEq

/-- What is left of a call: `notifyNeedMediaData` before its read of the state and before its
section, and after it before the client is called; `haveData` before its section and before its call
to the server, `setPosition` likewise, `attachSource` with the id that the server has returned, and
`removeSource` before its call to the server. -/
inductive Call
  | known (id : ℕ) (region : Region)
  | inserting (id : ℕ) (region : Region)
  | delivering (id : ℕ)
  | answering (status : MediaSourceStatus) (id : ℕ)
  | discarding (id : ℕ)
  | sending (status : MediaSourceStatus) (numFrames id : ℕ)
  | clearing
  | positioning
  | adding (sourceId : ℕ) (type : MediaSourceType)
  | removing (sourceId : ℕ)

/-- `MediaPipeline`, with the calls under way and the ids that the server has sent so far. The
application owns the `client`, to which `m_mediaPipelineClient` is a weak pointer. -/
structure State where
  currentState : PipelineState
  attachedSources : OMap ℕ MediaSourceType
  needDataRequestMap : OMap ℕ NeedDataRequest
  shm : Mem UInt8
  calls : List Call
  notified : List ℕ
  client : Bool
  log : List Entry

def init (shm : Mem UInt8) : State := ⟨.idle, OMap.empty, OMap.empty, shm, [], [], true, []⟩

/-- The library for the metadata and the version that the frame writers are made with. -/
structure Env where
  pb : Protobuf
  metadataVersion : ℤ

def State.note (s : State) (e : Entry) : State := { s with log := s.log ++ [e] }

def State.start (s : State) (call : Call) : State := { s with calls := s.calls ++ [call] }

/-! ## Calls -/

/-- `AttachedSources::get`. -/
def getSource (s : State) (sourceId : ℕ) : MediaSourceType :=
  (s.attachedSources.find? sourceId).getD .unknown

/-- `notifyNeedMediaData`, up to the look-up of the source. The server describes the region of the
source. -/
def notifyNeedMediaData (s : State) (sourceId requestId : ℕ) (region : Region) : State :=
  let s := { s with notified := s.notified ++ [requestId] }
  if getSource s sourceId = .unknown then s.note (.ignored requestId)
  else s.start (.known requestId region)

/-- `haveData`, up to the read of the state. -/
def haveData (s : State) (status : MediaSourceStatus) (needDataRequestId : ℕ) : State :=
  if s.currentState.takesData then s.start (.answering status needDataRequestId)
  else s.start (.discarding needDataRequestId)

/-- `setPosition`, up to the read of the state. -/
def setPosition (s : State) : State :=
  if s.currentState.takesPosition then s.start .clearing else s

/-- The section of `handleSetPosition`, and `notifyBufferTerm`. -/
def clear (s : State) : State :=
  { s with
    needDataRequestMap := OMap.empty
    log := s.log ++ s.needDataRequestMap.keys.map .dropped }

/-- `removeSource`, up to the call to the server. -/
def removeSource (s : State) (sourceId : ℕ) : State :=
  { s with attachedSources := s.attachedSources.erase sourceId }.start (.removing sourceId)

/-- The number of frames that `handleHaveData` sends. -/
def NeedDataRequest.numFrames (request : NeedDataRequest) : ℕ :=
  match request.frameWriter with
  | some writer => writer.getNumFrames
  | none => 0

/-- The section of `handleHaveData`, with what is left of the call. -/
def takeRequest (s : State) (status : MediaSourceStatus) (id : ℕ) : State × List Call :=
  match s.needDataRequestMap.find? id with
  | none => (s, [])
  | some request =>
    ({ s with needDataRequestMap := s.needDataRequestMap.erase id },
      [.sending status request.numFrames id])

def discardNeedDataRequest (s : State) (id : ℕ) : State :=
  match s.needDataRequestMap.find? id with
  | none => s
  | some _ =>
    { s with needDataRequestMap := s.needDataRequestMap.erase id }.note (.discarded id)

/-- The next part of a call, with what is left of it. -/
def resume (s : State) : Call → State × List Call
  | .known id region =>
    if s.currentState.takesData then (s, [.inserting id region]) else (s.note (.ignored id), [])
  | .inserting id region =>
    ({ s with needDataRequestMap :=
        s.needDataRequestMap.insert id ⟨needMediaData region, none⟩ }, [.delivering id])
  | .delivering id => (if s.client then s.note (.delivered id) else s, [])
  | .answering status id => takeRequest s status id
  | .discarding id => (discardNeedDataRequest s id, [])
  | .sending status numFrames id => (s.note (.forwarded id status numFrames), [])
  | .clearing => (clear s, [.positioning])
  | .positioning => (s, [])
  | .adding sourceId type =>
    ({ s with attachedSources := s.attachedSources.emplace sourceId type }, [])
  | .removing _ => (s, [])

/-! ## Adding segments -/

/-- What `addSegment` is given and meets: the segment, `none` for one without data, whether there is
a shared memory buffer, the key id that `KeyIdMap` has for the session of the segment, and whether a
frame writer can be made. -/
structure Segment where
  mediaSegment : Option MediaSegment
  buffer : Bool
  keyId : List UInt8
  created : Bool

/-- The key id of an encrypted segment is replaced by that of `KeyIdMap`. -/
def withKeyId (mediaSegment : MediaSegment) (keyId : List UInt8) : MediaSegment :=
  if mediaSegment.encrypted ∧ keyId ≠ [] then { mediaSegment with keyId := keyId }
  else mediaSegment

/-- The frame writer of a request, made now if there is none. -/
def frameWriter (env : Env) (s : State) (request : NeedDataRequest) (data : MediaSegment)
    (created : Bool) : Option AnyWriter :=
  match request.frameWriter with
  | some writer => some (writer.onMemory s.shm)
  | none =>
    if data.type = .unknown then none
    else if created then some (createFrameWriter env.metadataVersion s.shm request.shmInfo)
    else none

def addSegment (env : Env) (s : State) (id : ℕ) (a : Segment) : State × AddSegmentStatus :=
  match a.mediaSegment with
  | none => (s, .error)
  | some mediaSegment =>
    match s.needDataRequestMap.find? id with
    | none => (s, .error)
    | some request =>
      if !a.buffer then (s, .error)
      else
        match frameWriter env s request (withKeyId mediaSegment a.keyId) a.created with
        | none => (s, .error)
        | some writer =>
          match writer.writeFrame env.pb (withKeyId mediaSegment a.keyId) with
          | (writer, status) =>
            ({ s with
              shm := writer.shmBuffer
              needDataRequestMap :=
                s.needDataRequestMap.insert id { request with frameWriter := some writer } },
              status)

/-! ## Steps -/

inductive Act
  | notifyNeedMediaData (sourceId requestId : ℕ) (region : Region)
  | haveData (status : MediaSourceStatus) (needDataRequestId : ℕ)
  | setPosition
  | stop
  | notifyBufferTerm
  | notifyPlaybackState (state : PlaybackState)
  | notifyNetworkState (state : NetworkState)
  | attachSource (sourceId : ℕ) (type : MediaSourceType)
  | removeSource (sourceId : ℕ)
  | addSegment (needDataRequestId : ℕ) (a : Segment)
  | releaseClient
  | proceed (i : ℕ)

/-- The call at a place goes on. -/
def proceed (s : State) (i : ℕ) : Option State :=
  match s.calls[i]? with
  | none => none
  | some call =>
    match resume { s with calls := s.calls.eraseIdx i } call with
    | (s, rest) => some { s with calls := s.calls ++ rest }

def step (env : Env) (s : State) : Act → Option State
  | .notifyNeedMediaData sourceId requestId region =>
    some (notifyNeedMediaData s sourceId requestId region)
  | .haveData status id => some (haveData s status id)
  | .setPosition => some (setPosition s)
  | .stop => some { s with currentState := .idle }
  | .notifyBufferTerm => some (clear s)
  | .notifyPlaybackState state =>
    some { s with currentState := s.currentState.updatePlayback state }
  | .notifyNetworkState state =>
    some { s with currentState := s.currentState.updateNetwork state }
  | .attachSource sourceId type => some (s.start (.adding sourceId type))
  | .removeSource sourceId => some (removeSource s sourceId)
  | .addSegment id a =>
    match addSegment env s id a with
    | (s, status) => some (s.note (.segment id status))
  | .releaseClient => some { s with client := false }
  | .proceed i => proceed s i

end Rialto.Client.MediaPipeline
