import Rialto.Client.MediaPipeline
import Rialto.Pipeline.Session

/-! # A media pipeline of the client and its session on the server

The calls of the client reach the server in the order in which they are sent; the IPC thread of the
server hands a call to the main thread and waits for it before it reads the next one. The replies
and the events of the server come back over the same connection in the order in which they are sent.
A reply wakes the thread of the application that waits for it; an event is handed to the event
thread, which handles the events one after the other.

Of the replies only those of `attachSource` carry something. Which playback and network states the
server reports, and when, is left open. A call of the client can fail, before it has an effect on
the server or, for `attachSource`, also after it.

* `proceed`, `take`, `handle`: the client and its threads;
* `receive`, `main`: the server;
* `step`: both with the connection. -/

namespace Rialto.Link.Connection

open Rialto.Media.Segment Rialto.Media.Frames Rialto.Client.MediaPipeline
open Rialto.Pipeline.Session (Source MainTask MediaSourceStatus mainTask post)

/-! ## Messages -/

/-- The calls of the client. -/
inductive Message
  | attachSource (t : Source) (mimeTypeKnown : Bool)
  | removeSource (sourceId : ℕ)
  | setPosition
  | haveData (status : MediaSourceStatus) (numFrames needDataRequestId : ℕ)

/-- The events of the server. -/
inductive Event
  | needMediaData (sourceId requestId : ℕ) (region : Region)
  | playbackState (state : PlaybackState)
  | networkState (state : NetworkState)

/-- What the server sends: the reply to `attachSource` and the events. -/
inductive Delivery
  | attached (sourceId : ℕ) (t : Source)
  | event (e : Event)

/-- Both sides with the messages on their way. `sourceIds` are the ids in the `m_attachedSources` of
the server, for the types that are attached, `events` is the queue of the event thread, and `failed`
are the requests whose `haveData` call has failed. -/
structure State where
  client : Client.MediaPipeline.State
  server : Pipeline.Session.State
  sourceIds : Source → ℕ
  nextSourceId : ℕ
  toServer : List Message
  toClient : List Delivery
  events : List Event
  failed : List ℕ

def init (shm : Rialto.Lib.Memory.Mem UInt8) : State where
  client := Client.MediaPipeline.init shm
  server := Pipeline.Session.init
  sourceIds := fun _ => 0
  nextSourceId := 1
  toServer := []
  toClient := []
  events := []
  failed := []

/-! ## The client -/

def mediaType : Source → MediaSourceType
  | .audio => .audio
  | .video => .video

/-- The calls of the application but for `attachSource`. -/
def isCall : Client.MediaPipeline.Act → Bool
  | .haveData _ _ | .setPosition | .stop | .removeSource _ | .addSegment _ _ => true
  | _ => false

/-- The message that a part of a call sends. -/
def message : Call → Option Message
  | .sending status numFrames id => some (.haveData status numFrames id)
  | .positioning => some .setPosition
  | .removing sourceId => some (.removeSource sourceId)
  | _ => none

/-- The request whose answer is lost when the part fails. -/
def lostBy : Call → List ℕ
  | .sending _ _ id => [id]
  | _ => []

/-- The call at a place goes on; a message that it sends can fail to reach the server. -/
def proceed (s : State) (i : ℕ) (succeeds : Bool) : Option State :=
  match s.client.calls[i]?, Client.MediaPipeline.proceed s.client i with
  | some call, some client =>
    if succeeds then
      some { s with client := client, toServer := s.toServer ++ (message call).toList }
    else some { s with client := client, failed := s.failed ++ lostBy call }
  | _, _ => none

/-- The IPC thread takes the next message. A reply that nobody waits for any more is dropped. -/
def take (s : State) (awaited : Bool) : Option State :=
  match s.toClient with
  | [] => none
  | .attached sourceId t :: rest =>
    if awaited then
      some { s with toClient := rest, client := s.client.start (.adding sourceId (mediaType t)) }
    else some { s with toClient := rest }
  | .event e :: rest => some { s with toClient := rest, events := s.events ++ [e] }

/-- The event thread is busy with a need-data event. -/
def handles : Call → Bool
  | .known _ _ | .inserting _ _ | .delivering _ => true
  | _ => false

/-- The event thread takes the next event. -/
def handle (s : State) : Option State :=
  if s.client.calls.any handles then none
  else
    match s.events with
    | [] => none
    | .needMediaData sourceId requestId region :: rest =>
      some { s with
        events := rest
        client := notifyNeedMediaData s.client sourceId requestId region }
    | .playbackState state :: rest =>
      some { s with
        events := rest
        client := { s.client with currentState := s.client.currentState.updatePlayback state } }
    | .networkState state :: rest =>
      some { s with
        events := rest
        client := { s.client with currentState := s.client.currentState.updateNetwork state } }

/-! ## The server -/

/-- `std::find_if` over `m_attachedSources` with an id. -/
def sourceOf (s : State) (sourceId : ℕ) : Option Source :=
  if s.server.attachedSources .audio ∧ s.sourceIds .audio = sourceId then some .audio
  else if s.server.attachedSources .video ∧ s.sourceIds .video = sourceId then some .video
  else none

/-- The task for a call; a removal of an unknown source does nothing. -/
def task (s : State) : Message → Option MainTask
  | .attachSource t mimeTypeKnown => some (.attachSource t mimeTypeKnown)
  | .removeSource sourceId => (sourceOf s sourceId).map .removeSource
  | .setPosition => some .setPosition
  | .haveData status numFrames id => some (.haveData status numFrames id)

/-- The IPC thread takes the next call, unless it is waiting for one. -/
def receive (s : State) : Option State :=
  if s.server.mainQueue.any MainTask.isCall then none
  else
    match s.toServer with
    | [] => none
    | message :: rest =>
      match task s message with
      | some task => some { s with toServer := rest, server := post s.server task }
      | none => some { s with toServer := rest }

/-- What a task of the main thread sends to the client, and the id that `attachSourceInternal`
gives to a new source. -/
def report (s : State) (env : Pipeline.Session.Env) (region : Region) : MainTask → State
  | .attachSource t _ =>
    if s.server.attachedSources t then
      { s with toClient := s.toClient ++ [.attached (s.sourceIds t) t] }
    else
      { s with
        sourceIds := Function.update s.sourceIds t s.nextSourceId
        nextSourceId := s.nextSourceId + 1
        toClient := s.toClient ++ [.attached s.nextSourceId t] }
  | .needMediaData t | .resend t =>
    if s.server.attachedSources t && env.sends then
      { s with toClient := s.toClient ++
          [.event (.needMediaData (s.sourceIds t) s.server.currentId region)] }
    else s
  | _ => s

/-- The main thread executes its next task. -/
def main (s : State) (env : Pipeline.Session.Env) (region : Region) : Option State :=
  match s.server.mainQueue with
  | [] => none
  | task :: queue =>
    some { report s env region task with
      server := mainTask { s.server with mainQueue := queue } env task }

/-- What happens on the server besides the calls and the main thread. -/
def isOther : Pipeline.Session.Action → Bool
  | .call _ | .main _ => false
  | _ => true

/-! ## Steps -/

inductive Act
  | attachSource (t : Source) (mimeTypeKnown : Bool)
  | call (a : Client.MediaPipeline.Act)
  | proceed (i : ℕ) (succeeds : Bool)
  | take (awaited : Bool)
  | handle
  | receive
  | main (env : Pipeline.Session.Env) (region : Region)
  | other (a : Pipeline.Session.Action)
  | sendState (e : Event)
  | generateSourceId

/-- The event reports a state. -/
def Event.isState : Event → Bool
  | .needMediaData _ _ _ => false
  | _ => true

/-- One step. The ids of sources are also given to those of other sessions. -/
def step (env : Client.MediaPipeline.Env) (s : State) : Act → Option State
  | .attachSource t mimeTypeKnown =>
    some { s with toServer := s.toServer ++ [.attachSource t mimeTypeKnown] }
  | .call a =>
    if isCall a then (Client.MediaPipeline.step env s.client a).map ({ s with client := · })
    else none
  | .proceed i succeeds => proceed s i succeeds
  | .take awaited => take s awaited
  | .handle => handle s
  | .receive => receive s
  | .main env region => main s env region
  | .other a =>
    if isOther a then (Pipeline.Session.step s.server a).map ({ s with server := · }) else none
  | .sendState e =>
    if e.isState then some { s with toClient := s.toClient ++ [.event e] } else none
  | .generateSourceId => some { s with nextSourceId := s.nextSourceId + 1 }

/-- Nothing is on its way: no message, no event, no call and no task. -/
structure Quiet (s : State) : Prop where
  toServer : s.toServer = []
  toClient : s.toClient = []
  events : s.events = []
  calls : s.client.calls = []
  mainQueue : s.server.mainQueue = []
  workerQueue : s.server.workerQueue = []
  ops : s.server.ops = []

/-- The requests that the server waits for can be answered. -/
def Agrees (s : State) : Prop :=
  ∀ id request, s.server.activeRequests.find? id = some request →
    (s.client.needDataRequestMap.find? id).isSome

end Rialto.Link.Connection
