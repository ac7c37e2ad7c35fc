import Rialto.Client.MediaPipeline
import Rialto.Lib.Runs

/-! # The notifications of the server

A `MediaPipelineClient` of the server turns the notifications of its session into events and sends
them; the channel of the client hands every event to all its `MediaPipelineIpc` objects, each of
which queues it on an event thread of its own, where the handler passes it on if it names the
session of the object.

* `encode`, `decode`: the two conversions; `transmit_eq_iff`: when the second undoes the first.
* `step`: the server, the channel, which keeps the order, and the event threads.
* `Inv`: what a client has received and what is still on the way to it is what its session was sent.
* `received_iff`: what a client has received is a part of what its session was sent exactly when
  every notification in it can be transmitted; nothing is lost, doubled or reordered in any case. -/

namespace Rialto.Link.Notifications

open Rialto.Lib.Runs
open Rialto.Client.MediaPipeline (PlaybackState NetworkState)

/-! ## Notifications and events -/

structure MediaPlayerShmInfo where
  maxMetadataBytes : UInt32
  metadataOffset : UInt32
  mediaDataOffset : UInt32
  maxMediaBytes : UInt32
  deriving DecidableEq

structure QosInfo where
  processed : UInt64
  dropped : UInt64
  deriving DecidableEq

/-- A call of the server's `IMediaPipelineClient`, and of the client's `IMediaPipelineIpcClient`. -/
inductive Notification
  | playbackState (state : PlaybackState)
  | position (position : Int64)
  | networkState (state : NetworkState)
  | needMediaData (sourceId : Int32) (frameCount : UInt64) (needDataRequestId : UInt32)
      (shmInfo : Option MediaPlayerShmInfo)
  | qos (sourceId : Int32) (qosInfo : QosInfo)
  deriving DecidableEq

/-- `NeedMediaData` has a shared memory description for every request it sends, and
`notifyNeedMediaData` reads it. -/
def Notification.described : Notification → Bool
  | .needMediaData _ _ _ shmInfo => shmInfo.isSome
  | _ => true

inductive ProtoPlaybackState
  | unknown
  | idle
  | playing
  | paused
  | seeking
  | flushed
  | stopped
  | endOfStream
  | failure
  deriving DecidableEq, Repr

inductive ProtoNetworkState
  | unknown
  | idle
  | buffering
  | bufferingProgress
  | buffered
  | stalled
  | formatError
  | networkError
  | decodeError
  deriving DecidableEq, Repr

inductive Body
  | playbackStateChange (state : ProtoPlaybackState)
  | positionChange (position : Int64)
  | networkStateChange (state : ProtoNetworkState)
  | needMediaData (sourceId : UInt64) (requestId frameCount : UInt32)
      (shmInfo : Option MediaPlayerShmInfo)
  | qos (sourceId : UInt64) (qosInfo : QosInfo)
  deriving DecidableEq

/-- An event message. -/
structure Event where
  sessionId : Int32
  body : Body
  deriving DecidableEq

/-! ## The server -/

def convertPlaybackState : PlaybackState → ProtoPlaybackState
  | .unknown => .unknown
  | .idle => .idle
  | .playing => .playing
  | .paused => .paused
  | .seeking => .seeking
  | .flushed => .flushed
  | .stopped => .stopped
  | .endOfStream => .endOfStream
  | .failure => .failure

def convertNetworkState : NetworkState → ProtoNetworkState
  | .unknown => .unknown
  | .idle => .idle
  | .buffering => .buffering
  | .bufferingProgress => .bufferingProgress
  | .buffered => .buffered
  | .stalled => .stalled
  | .formatError => .formatError
  | .networkError => .networkError
  | .decodeError => .decodeError

/-- `notifyPlaybackState`, `notifyPosition`, `notifyNetworkState`, `notifyNeedMediaData` and
`notifyQos` of `MediaPipelineClient`. The source id is widened with its sign, the frame count
narrowed. -/
def encode : Notification → Body
  | .playbackState state => .playbackStateChange (convertPlaybackState state)
  | .position position => .positionChange position
  | .networkState state => .networkStateChange (convertNetworkState state)
  | .needMediaData sourceId frameCount needDataRequestId shmInfo =>
    .needMediaData sourceId.toInt64.toUInt64 needDataRequestId frameCount.toUInt32 shmInfo
  | .qos sourceId qosInfo => .qos sourceId.toInt64.toUInt64 qosInfo

/-! ## The client -/

/-- The switch in `onPlaybackStateUpdated`. -/
def playbackStateOf : ProtoPlaybackState → PlaybackState
  | .idle => .idle
  | .playing => .playing
  | .paused => .paused
  | .seeking => .seeking
  | .flushed => .flushed
  | .stopped => .stopped
  | .endOfStream => .endOfStream
  | .failure => .failure
  | _ => .unknown

/-- The switch in `onNetworkStateUpdated`. -/
def networkStateOf : ProtoNetworkState → NetworkState
  | .idle => .idle
  | .buffering => .buffering
  | .bufferingProgress => .bufferingProgress
  | .buffered => .buffered
  | .stalled => .stalled
  | .formatError => .formatError
  | .networkError => .networkError
  | _ => .unknown

/-- The call that `onPlaybackStateUpdated`, `onPositionUpdated`, `onNetworkStateUpdated`,
`onNeedMediaData` and `onQos` of `MediaPipelineIpc` make. -/
def decode : Body → Notification
  | .playbackStateChange state => .playbackState (playbackStateOf state)
  | .positionChange position => .position position
  | .networkStateChange state => .networkState (networkStateOf state)
  | .needMediaData sourceId requestId frameCount shmInfo =>
    .needMediaData sourceId.toInt64.toInt32 frameCount.toUInt64 requestId shmInfo
  | .qos sourceId qosInfo => .qos sourceId.toInt64.toInt32 qosInfo

/-- The handlers ignore the events of other sessions. -/
def handleEvent (sessionId : Int32) (event : Event) : Option Notification :=
  if event.sessionId = sessionId then some (decode event.body) else none

/-! ## There and back -/

/-- What a client is told for a notification. -/
def transmit (n : Notification) : Notification := decode (encode n)

/-- The network state is not `DECODE_ERROR`, and the frame count has 32 bits. -/
def Transmittable : Notification → Prop
  | .networkState state => state ≠ .decodeError
  | .needMediaData _ frameCount _ _ => frameCount.toNat < 2 ^ 32
  | _ => True

instance : DecidablePred Transmittable
  | .networkState state => inferInstanceAs (Decidable (state ≠ .decodeError))
  | .needMediaData _ frameCount _ _ => inferInstanceAs (Decidable (frameCount.toNat < 2 ^ 32))
  | .playbackState _ => inferInstanceAs (Decidable True)
  | .position _ => inferInstanceAs (Decidable True)
  | .qos _ _ => inferInstanceAs (Decidable True)

theorem playbackStateOf_convert (state : PlaybackState) :
    playbackStateOf (convertPlaybackState state) = state := by
  cases state <;> rfl

theorem networkStateOf_convert_iff (state : NetworkState) :
    networkStateOf (convertNetworkState state) = state ↔ state ≠ .decodeError := by
  cases state <;> decide

theorem sourceId_back (sourceId : Int32) : sourceId.toInt64.toUInt64.toInt64.toInt32 = sourceId :=
  Int32.toInt32_toInt64 sourceId

theorem frameCount_back_iff (frameCount : UInt64) :
    frameCount.toUInt32.toUInt64 = frameCount ↔ frameCount.toNat < 2 ^ 32 := by
  rw [← UInt64.toNat_inj, UInt32.toNat_toUInt64, UInt64.toNat_toUInt32]
  constructor
  · intro h
    rw [← h]
    exact Nat.mod_lt _ (by omega)
  · exact Nat.mod_eq_of_lt

/-- **When the client is told what the server said.** -/
theorem transmit_eq_iff (n : Notification) : transmit n = n ↔ Transmittable n := by
  unfold transmit
  cases n with
  | playbackState state =>
    simp only [encode, decode, playbackStateOf_convert, Transmittable]
  | position position => simp only [encode, decode, Transmittable]
  | networkState state =>
    simp only [encode, decode, Transmittable, Notification.networkState.injEq]
    exact networkStateOf_convert_iff state
  | needMediaData sourceId frameCount needDataRequestId shmInfo =>
    simp only [encode, decode, Transmittable, Notification.needMediaData.injEq, sourceId_back,
      true_and, and_true]
    exact frameCount_back_iff frameCount
  | qos sourceId qosInfo => simp only [encode, decode, sourceId_back, Transmittable]

/-! ## The channel and the event threads -/

/-- A `MediaPipelineIpc` with the queue of its event thread and the calls made to its client. -/
structure MediaPipelineIpc where
  sessionId : Int32
  eventThread : List Event
  received : List Notification
  deriving DecidableEq

/-- The events on the channel and the objects at its end. -/
structure State where
  channel : List Event
  clients : List MediaPipelineIpc
  deriving DecidableEq

def init (sessions : List Int32) : State := ⟨[], sessions.map fun s => ⟨s, [], []⟩⟩

/-- A notification to the `MediaPipelineClient` of a session, the next event at the channel, and
the next one on the event thread of the `i`-th object. -/
inductive Act
  | notify (sessionId : Int32) (n : Notification)
  | process
  | handle (i : ℕ)
  deriving DecidableEq

def MediaPipelineIpc.enqueue (c : MediaPipelineIpc) (event : Event) : MediaPipelineIpc :=
  { c with eventThread := c.eventThread ++ [event] }

/-- The event thread runs the handler of its first event. -/
def MediaPipelineIpc.handle (c : MediaPipelineIpc) : Option MediaPipelineIpc :=
  match c.eventThread with
  | event :: rest =>
    some { c with
      eventThread := rest
      received := c.received ++ (handleEvent c.sessionId event).toList }
  | [] => none

def step (s : State) : Act → Option State
  | .notify sessionId n =>
    if n.described then some { s with channel := s.channel ++ [⟨sessionId, encode n⟩] } else none
  | .process =>
    match s.channel with
    | event :: rest => some ⟨rest, s.clients.map (·.enqueue event)⟩
    | [] => none
  | .handle i =>
    match s.clients[i]? with
    | some c => c.handle.map fun c => { s with clients := s.clients.set i c }
    | none => none

/-! ## What was sent -/

/-- The notifications of a session, in their order. -/
def sent (sessionId : Int32) : List Act → List Notification :=
  List.filterMap fun
    | .notify s n => if s = sessionId then some n else none
    | _ => none

theorem sent_snoc (sessionId : Int32) (as : List Act) (a : Act) :
    sent sessionId (as ++ [a]) = sent sessionId as ++ sent sessionId [a] :=
  List.filterMap_append ..

theorem handleEvent_encode (sessionId s : Int32) (n : Notification) :
    (handleEvent sessionId ⟨s, encode n⟩).toList =
      (sent sessionId [.notify s n]).map transmit := by
  by_cases hs : s = sessionId
  · simp [handleEvent, sent, hs, transmit]
  · simp [handleEvent, sent, hs]

/-- What `c` has received, and then what is on its event thread and on the channel, is what its
session was sent, converted there and back. -/
def Conveyed (as : List Act) (channel : List Event) (c : MediaPipelineIpc) : Prop :=
  c.received ++ (c.eventThread ++ channel).filterMap (handleEvent c.sessionId) =
    (sent c.sessionId as).map transmit

def Inv (as : List Act) (t : State) : Prop := ∀ c ∈ t.clients, Conveyed as t.channel c

section Steps

variable {as : List Act} {s t : State} {channel : List Event} {c c' : MediaPipelineIpc}

theorem conveyed_notify (h : Conveyed as channel c) (sessionId : Int32) (n : Notification) :
    Conveyed (as ++ [.notify sessionId n]) (channel ++ [⟨sessionId, encode n⟩]) c := by
  unfold Conveyed at h ⊢
  have hone : [(⟨sessionId, encode n⟩ : Event)].filterMap (handleEvent c.sessionId) =
      (sent c.sessionId [.notify sessionId n]).map transmit := by
    rw [← handleEvent_encode]
    rcases hh : handleEvent c.sessionId ⟨sessionId, encode n⟩ with _ | m
    · simp [hh]
    · simp [hh]
  rw [sent_snoc, List.map_append, ← h, ← List.append_assoc c.eventThread, List.filterMap_append,
    hone, List.append_assoc]

theorem conveyed_enqueue {event : Event} (h : Conveyed as (event :: channel) c) :
    Conveyed as channel (c.enqueue event) := by
  unfold Conveyed MediaPipelineIpc.enqueue at *
  rw [List.append_assoc, List.singleton_append]
  exact h

theorem conveyed_handle (h : Conveyed as channel c) (hc : c.handle = some c') :
    Conveyed as channel c' := by
  unfold MediaPipelineIpc.handle at hc
  rcases hq : c.eventThread with _ | ⟨event, rest⟩
  · simp only [hq] at hc
    cases hc
  · simp only [hq, Option.some.injEq] at hc
    subst hc
    unfold Conveyed at h ⊢
    rw [hq, List.cons_append] at h
    rw [← h, List.append_assoc]
    rcases hh : handleEvent c.sessionId event with _ | m
    · simp [hh]
    · simp [hh]

theorem inv_step {a : Act} (h : Inv as s) (hstep : step s a = some t) : Inv (as ++ [a]) t := by
  -- an action that is no notification leaves what was sent
  have hsame : ∀ {channel : List Event} {c : MediaPipelineIpc},
      (∀ sessionId n, a ≠ .notify sessionId n) → Conveyed as channel c →
        Conveyed (as ++ [a]) channel c := by
    intro channel c ha hc
    unfold Conveyed at hc ⊢
    have hnone : sent c.sessionId [a] = [] := by
      cases a with
      | notify sessionId n => exact absurd rfl (ha sessionId n)
      | process => rfl
      | handle i => rfl
    rw [sent_snoc, hnone, List.append_nil]
    exact hc
  cases a with
  | notify sessionId n =>
    simp only [step] at hstep
    split_ifs at hstep
    cases hstep
    exact fun c hc => conveyed_notify (h c hc) sessionId n
  | process =>
    unfold step at hstep
    rcases hch : s.channel with _ | ⟨event, rest⟩
    · simp only [hch] at hstep
      cases hstep
    · simp only [hch, Option.some.injEq] at hstep
      subst hstep
      intro c hc
      obtain ⟨c₀, hc₀, rfl⟩ := List.mem_map.mp hc
      exact hsame (fun _ _ h => by cases h) (conveyed_enqueue (hch ▸ h c₀ hc₀))
  | handle i =>
    unfold step at hstep
    rcases hi : s.clients[i]? with _ | c₀
    · simp only [hi] at hstep
      cases hstep
    · simp only [hi, Option.map_eq_some_iff] at hstep
      obtain ⟨c₁, hc₁, rfl⟩ := hstep
      intro c hc
      refine hsame (fun _ _ h => by cases h) ?_
      rcases List.mem_or_eq_of_mem_set hc with hc | rfl
      · exact h c hc
      · exact conveyed_handle (h c₀ (List.mem_of_getElem? hi)) hc₁

end Steps

theorem inv_run {sessions : List Int32} {as : List Act} {t : State}
    (hrun : Run step (fun _ _ => True) (init sessions) as t) : Inv as t := by
  refine Run.history (P := Inv) ?_ (fun _ _ _ _ _ ih _ hstep => inv_step ih hstep) hrun
  intro c hc
  obtain ⟨s, -, rfl⟩ := List.mem_map.mp hc
  rfl

/-! ## What is received -/

/-- **What the client of a session receives**, in any state reached. What it has received are as
many notifications as the first of those sent to the session, all of them once nothing is on the
way; they are the ones sent exactly when these can be transmitted. -/
theorem received_iff {sessions : List Int32} {as : List Act} {t : State} {c : MediaPipelineIpc}
    (hrun : Run step (fun _ _ => True) (init sessions) as t) (hc : c ∈ t.clients) :
    c.received.length ≤ (sent c.sessionId as).length ∧
      (t.channel = [] → c.eventThread = [] →
        c.received.length = (sent c.sessionId as).length) ∧
      (c.received = (sent c.sessionId as).take c.received.length ↔
        ∀ n ∈ (sent c.sessionId as).take c.received.length, Transmittable n) := by
  have hconv : Conveyed as t.channel c := inv_run hrun c hc
  unfold Conveyed at hconv
  have hlen := congrArg List.length hconv
  rw [List.length_append, List.length_map] at hlen
  refine ⟨by omega, fun hchannel hthread => ?_, ?_⟩
  · rw [hchannel, hthread, List.append_nil, List.filterMap_nil, List.length_nil] at hlen
    omega
  · have htake : c.received = ((sent c.sessionId as).take c.received.length).map transmit := by
      rw [List.map_take, ← hconv, List.take_left]
    constructor
    · intro heq n hn
      rw [← transmit_eq_iff]
      have hmap := htake.symm.trans heq
      exact List.map_inj_left.mp (hmap.trans (List.map_id _).symm) n hn
    · intro hall
      refine htake.trans ?_
      refine (List.map_congr_left fun n hn => (transmit_eq_iff n).mpr (hall n hn)).trans ?_
      exact List.map_id' _

/-- Two sessions on one channel, with a notification of each kind; one event is still on the way
to the second client. -/
theorem received_two_sessions : ∃ t, Run step (fun _ _ => True) (init [1, 2])
    [.notify 1 (.playbackState .paused), .notify 2 (.position (-5)),
      .notify 1 (.needMediaData 7 24 3 (some ⟨2400, 0, 2400, 100000⟩)), .process, .process,
      .notify 1 (.qos (-1) ⟨9, 2⟩), .process, .handle 0, .handle 0, .handle 0, .process, .handle 0,
      .handle 1, .handle 1] t ∧
    ∀ c ∈ t.clients, c.received = (sent c.sessionId
      [.notify 1 (.playbackState .paused), .notify 2 (.position (-5)),
        .notify 1 (.needMediaData 7 24 3 (some ⟨2400, 0, 2400, 100000⟩)), .process, .process,
        .notify 1 (.qos (-1) ⟨9, 2⟩), .process, .handle 0, .handle 0, .handle 0, .process,
        .handle 0, .handle 1, .handle 1]).take c.received.length := by
  refine Run.exists_of_runs (fun t => t.clients.map fun c => (c.sessionId, c.received.length))
    [(1, 3), (2, 1)] (by decide) ?_
  intro t hrun hlengths c hc
  refine (received_iff hrun hc).2.2.mpr ?_
  have hmem : (c.sessionId, c.received.length) ∈ [((1 : Int32), 3), (2, 1)] :=
    hlengths ▸ List.mem_map.mpr ⟨c, hc, rfl⟩
  rcases List.mem_cons.mp hmem with h1 | hmem
  · obtain ⟨hs, hl⟩ := Prod.mk.inj h1
    rw [hs, hl]
    decide
  · obtain ⟨hs, hl⟩ := Prod.mk.inj (List.mem_singleton.mp hmem)
    rw [hs, hl]
    decide

/-- A decode error is received as an unknown network state. -/
theorem decode_error_unknown : ¬ ∀ (sessions : List Int32) as t c,
    Run step (fun _ _ => True) (init sessions) as t → c ∈ t.clients →
      c.received = (sent c.sessionId as).take c.received.length := by
  intro hall
  obtain ⟨t, hrun, hclients⟩ : ∃ t, Run step (fun _ _ => True) (init [1])
      [.notify 1 (.networkState .decodeError), .process, .handle 0] t ∧
      t.clients = [⟨1, [], [.networkState .unknown]⟩] :=
    Run.exists_of_runs (·.clients) _ (by decide) fun t _ hb => hb
  have heq := hall [1] _ t ⟨1, [], [.networkState .unknown]⟩ hrun
    (hclients ▸ List.mem_singleton_self _)
  revert heq
  decide

end Rialto.Link.Notifications
