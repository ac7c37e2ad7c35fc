import Mathlib.Algebra.GroupWithZero.Nat
import Rialto.Lib.Remote
import Rialto.Link.AttachSource
import Rialto.Pipeline.Session
import Rialto.Player.Shutdown

/-! # The calls of a media pipeline

A `MediaPipelineIpc` exists once the server has told it the id of its session, and asks for the end
of the session when it is destructed. Each of its calls is a request with the id;
`MediaPipelineModuleService` has `MediaPipelineService` call the pipeline of the session, and
reports a call that returns false as a failure. Pipelines of any kind `M` do here, and doubles are
of any type `D`.

* `protocol`, `protocol_lawful`: the messages, and what they make of a call.
* `arrive_eq_iff`: which calls arrive as they are.
* `pipeline_stands_for`: over a run, a `MediaPipelineIpc` is its pipeline, which no one else has. -/

namespace Rialto.Link.MediaPipelineCalls

open Rialto.Lib.OrdMap Rialto.Lib.Runs Rialto.Lib.Remote Rialto.Link.AttachSource
open Rialto.Pipeline.Session (MediaSourceStatus)
open Rialto.Player.Shutdown (MediaType LoadRequestMediaType convertMediaType)

variable {D M : Type*}

/-! ## The functions of a media pipeline -/

inductive Command (D : Type*)
  | load (type : MediaType) (mimeType url : List UInt8)
  | attachSource (source : MediaSource)
  | removeSource (sourceId : ℤ)
  | setVideoWindow (x y width height : UInt32)
  | play
  | pause
  | stop
  | haveData (status : MediaSourceStatus) (numFrames requestId : UInt32)
  | setPosition (position : Int64)
  | getPosition
  | setPlaybackRate (rate : D)
  | renderFrame
  | setVolume (volume : D)
  | getVolume
  deriving DecidableEq

/-- The variables of the caller: the id for `attachSource`, and those of the two getters. -/
structure Vars (D : Type*) where
  sourceId : ℤ
  position : Int64
  volume : D
  deriving DecidableEq

/-- The functions of a pipeline: whether they succeed, and the variables and the pipeline then. -/
abbrev IMediaPipeline (D M : Type*) := M → Command D → Vars D → Bool × Vars D × M

/-! ## Messages -/

/-- `HaveDataRequest_MediaSourceStatus`. -/
inductive HaveDataMediaSourceStatus
  | unknown
  | ok
  | eos
  | error
  | codecChanged
  | noAvailableSamples
  deriving DecidableEq

inductive Request (D : Type*)
  | load (sessionId : ℤ) (type : LoadRequestMediaType) (mimeType url : List UInt8)
  | attachSource (request : AttachSourceRequest)
  | removeSource (sessionId sourceId : ℤ)
  | setVideoWindow (sessionId : ℤ) (x y width height : UInt32)
  | play (sessionId : ℤ)
  | pause (sessionId : ℤ)
  | stop (sessionId : ℤ)
  | haveData (sessionId : ℤ) (status : HaveDataMediaSourceStatus) (numFrames requestId : UInt32)
  | setPosition (sessionId : ℤ) (position : Int64)
  | getPosition (sessionId : ℤ)
  | setPlaybackRate (sessionId : ℤ) (rate : D)
  | renderFrame (sessionId : ℤ)
  | setVolume (sessionId : ℤ) (volume : D)
  | getVolume (sessionId : ℤ)

/-- The responses, with the fields of all of them; `none` is a field that is not set. -/
structure Response (D : Type*) where
  sourceId : Option ℤ := none
  position : Option Int64 := none
  volume : Option D := none

/-! ## The client -/

namespace MediaPipelineIpc

def convertLoadRequestMediaType : MediaType → LoadRequestMediaType
  | .mse => .mse
  | .unknown => .unknown

def convertHaveDataRequestMediaSourceStatus : MediaSourceStatus → HaveDataMediaSourceStatus
  | .ok => .ok
  | .eos => .eos
  | .error => .error
  | .codecChanged => .codecChanged
  | .noAvailableSamples => .noAvailableSamples

/-- The request of a call. -/
def request (sessionId : ℤ) : Command D → Request D
  | .load type mimeType url =>
    .load sessionId (convertLoadRequestMediaType type) mimeType url
  | .attachSource source =>
    .attachSource (AttachSource.MediaPipelineIpc.attachSourceRequest sessionId source)
  | .removeSource sourceId => .removeSource sessionId sourceId
  | .setVideoWindow x y width height => .setVideoWindow sessionId x y width height
  | .play => .play sessionId
  | .pause => .pause sessionId
  | .stop => .stop sessionId
  | .haveData status numFrames requestId =>
    .haveData sessionId (convertHaveDataRequestMediaSourceStatus status) numFrames requestId
  | .setPosition position => .setPosition sessionId position
  | .getPosition => .getPosition sessionId
  | .setPlaybackRate rate => .setPlaybackRate sessionId rate
  | .renderFrame => .renderFrame sessionId
  | .setVolume volume => .setVolume sessionId volume
  | .getVolume => .getVolume sessionId

/-- The end of a call, with what the controller says and the response. -/
def finish [Zero D] (failed : Bool) (response : Response D) (c : Command D) (vars : Vars D) :
    Bool × Vars D :=
  if failed then (false, vars)
  else
    match c with
    | .attachSource _ => (true, { vars with sourceId := response.sourceId.getD 0 })
    | .getPosition => (true, { vars with position := response.position.getD 0 })
    | .getVolume => (true, { vars with volume := response.volume.getD 0 })
    | _ => (true, vars)

end MediaPipelineIpc

/-! ## The server -/

namespace MediaPipelineModuleService

def convertMediaSourceStatus : HaveDataMediaSourceStatus → MediaSourceStatus
  | .unknown => .error
  | .ok => .ok
  | .eos => .eos
  | .error => .error
  | .codecChanged => .codecChanged
  | .noAvailableSamples => .noAvailableSamples

/-- The variables that the pipelines are called with; the id is that of a new source. -/
def unset [Zero D] : Vars D := ⟨0, 0, 0⟩

/-- The response to a call that has returned; the id is set in any case. -/
def respond (success : Bool) (vars : Vars D) : Command D → Response D
  | .attachSource _ => { sourceId := some vars.sourceId }
  | .getPosition => { position := if success then some vars.position else none }
  | .getVolume => { volume := if success then some vars.volume else none }
  | _ => {}

end MediaPipelineModuleService

def Request.sessionId : Request D → ℤ
  | .attachSource request => request.sessionId
  | .load id _ _ _ | .removeSource id _ | .setVideoWindow id _ _ _ _ | .play id | .pause id
  | .stop id | .haveData id _ _ _ | .setPosition id _ | .getPosition id | .setPlaybackRate id _
  | .renderFrame id | .setVolume id _ | .getVolume id => id

/-- What the service calls for a request; there is no source of an unknown type. -/
def Request.command : Request D → Option (Command D)
  | .load _ type mimeType url => some (.load (convertMediaType type) mimeType url)
  | .attachSource request =>
    (AttachSource.MediaPipelineModuleService.mediaSource request).map .attachSource
  | .removeSource _ sourceId => some (.removeSource sourceId)
  | .setVideoWindow _ x y width height => some (.setVideoWindow x y width height)
  | .play _ => some .play
  | .pause _ => some .pause
  | .stop _ => some .stop
  | .haveData _ status numFrames requestId =>
    some (.haveData (MediaPipelineModuleService.convertMediaSourceStatus status) numFrames
      requestId)
  | .setPosition _ position => some (.setPosition position)
  | .getPosition _ => some .getPosition
  | .setPlaybackRate _ rate => some (.setPlaybackRate rate)
  | .renderFrame _ => some .renderFrame
  | .setVolume _ volume => some (.setVolume volume)
  | .getVolume _ => some .getVolume

/-- The messages of the module. `MediaPipelineService` calls the pipeline with the id of a session
(`callObject`), `MediaPipelineModuleService` answers (`Protocol.serve`); the pointer to a source of
an unknown type is dereferenced. -/
def protocol [Zero D] : Protocol (Command D) (Vars D) (Request D) (Response D) where
  request := MediaPipelineIpc.request
  number := Request.sessionId
  command := Request.command
  unset := MediaPipelineModuleService.unset
  respond := MediaPipelineModuleService.respond
  empty := {}
  finish := MediaPipelineIpc.finish

/-! ## Sessions -/

abbrev State (D M : Type*) := Lib.Remote.State (Vars D) M

abbrev Act (D M : Type*) := Lib.Remote.Act (Command D) (Vars D) M

/-- `createSession` and `destroySession` with the `MediaPipelineIpc`, which is constructed and
destructed by them, calls of it, `clientDisconnected` and `clearMediaPipelines`. The
`MediaPipelineIpc` with the number `i` is in the process `client i`. -/
def step [Zero D] (o : IMediaPipeline D M) (client : ℕ → ℕ) (s : State D M) (a : Act D M) :
    Option (State D M) :=
  protocol.step o client s a

/-! ## What arrives -/

/-- A call as the pipeline gets it: of the mime type of a video source, what comes before a NUL. -/
def arrive : Command D → Command D
  | .attachSource source =>
    .attachSource (withMimeType (arrivedMimeType source) (source.setId 0))
  | c => c

/-- A success copies the variable that the call is for. -/
def copy : Command D → Vars D → Vars D → Vars D
  | .attachSource _, server, vars => { vars with sourceId := server.sourceId }
  | .getPosition, server, vars => { vars with position := server.position }
  | .getVolume, server, vars => { vars with volume := server.volume }
  | _, _, vars => vars

/-- What a `MediaPipelineIpc` makes of a pipeline. -/
def interface [Zero D] (o : IMediaPipeline D M) : Interface (Command D) (Vars D) M :=
  ⟨o, arrive, MediaPipelineModuleService.unset, copy⟩

theorem protocol_lawful [Zero D] : (protocol (D := D)).Lawful arrive copy where
  number_request id c := by cases c <;> rfl
  command_request id c := by
    cases c with
    | load type mimeType url => cases type <;> rfl
    | attachSource source =>
      exact congrArg (Option.map _) (mediaSource_attachSourceRequest id source)
    | haveData status numFrames requestId => cases status <;> rfl
    | _ => rfl
  finish_failed r c vars := rfl
  finish_respond c server vars := by cases c <;> rfl

/-- **Which calls arrive as they are made**, up to the id of a new source. -/
theorem arrive_eq_iff (c : Command D) :
    arrive c = c ↔ ∀ source, c = .attachSource source →
      source.base.id = 0 ∧ (source.configType = .audio ∨ 0 ∉ source.base.mimeType) := by
  cases c with
  | attachSource source =>
    simp only [arrive, Command.attachSource.injEq, forall_eq']
    rw [← arrivedMimeType_eq_iff]
    cases source with
    | audio base config =>
      simpa [withMimeType, MediaSource.setId, MediaSource.base, Base.ext_iff] using
        fun _ => eq_comm
    | video base =>
      simpa [withMimeType, MediaSource.setId, MediaSource.base, Base.ext_iff] using
        fun _ => eq_comm
    | videoDolbyVision base profile =>
      simpa [withMimeType, MediaSource.setId, MediaSource.base, Base.ext_iff] using
        fun _ => eq_comm
  | _ => exact iff_of_true rfl fun source h => by cases h

variable {s t : State D M} {client : ℕ → ℕ} {i : ℕ} {m : M}

/-- **A `MediaPipelineIpc` stands for its pipeline.** From any point at which it has one until this
is destroyed, whatever other clients do and whichever requests and replies are lost, it returns what
the pipeline by itself would, and the pipeline is what the calls that arrived have made of it. -/
theorem pipeline_stands_for [Zero D] (o : IMediaPipeline D M) {before as : List (Act D M)}
    (hbefore : Run (step o client) (fun _ _ => True) init before s) (hm : Has s i m)
    (hrun : Run (step o client) (fun _ a => a.Spares client i) s as t) :
    Has t i ((interface o).calls m (as.flatMap (Act.callsOf i))).2 ∧
    t.returnedBy i = s.returnedBy i ++
      ((interface o).calls m (as.flatMap (Act.callsOf i))).1 :=
  protocol_lawful.stub_stands o hbefore hm hrun

/-- A pipeline that only has a volume. -/
def onlyVolume : IMediaPipeline ℕ ℕ
  | _, .setVolume volume, vars => (true, vars, volume)
  | m, .getVolume, vars => (true, { vars with volume := m }, m)
  | m, _, vars => (false, vars, m)

/-- Two clients make a session each, one of them at the second attempt; its end and that of its
client come between the calls of the other one. -/
def twoSessions : List (Act ℕ ℕ) × List (Act ℕ ℕ) :=
  ([.create 0 (some 5) .answered, .create 1 (some 6) .unanswered, .create 1 (some 7) .answered],
    [.call 0 ⟨.setVolume 9, ⟨-1, 0, 1⟩, .answered⟩, .call 1 ⟨.setVolume 3, ⟨-1, 0, 1⟩, .answered⟩,
      .destroy 1 .lost, .disconnect 1, .call 0 ⟨.getVolume, ⟨-1, 0, 1⟩, .unanswered⟩,
      .call 0 ⟨.getVolume, ⟨-1, 0, 1⟩, .answered⟩])

theorem pipeline_stands_for_twoSessions : ∃ s t,
    Run (step onlyVolume id) (fun _ _ => True) init twoSessions.1 s ∧
    Run (step onlyVolume id) (fun _ a => a.Spares id 0) s twoSessions.2 t ∧
    s.stubs 1 = some 2 ∧ t.objects.entries = [(0, 9)] ∧
    t.returnedBy 0 = [(true, ⟨-1, 0, 1⟩), (false, ⟨-1, 0, 1⟩), (true, ⟨-1, 0, 9⟩)] := by
  obtain ⟨s, t, hbefore, hrun, hstub, hobjects, hm, hreturned⟩ : ∃ s t,
      Run (step onlyVolume id) (fun _ _ => True) init twoSessions.1 s ∧
      Run (step onlyVolume id) (fun _ a => a.Spares id 0) s twoSessions.2 t ∧
      s.stubs 1 = some 2 ∧ t.objects.entries = [(0, 9)] ∧ Has s 0 5 ∧ s.returnedBy 0 = [] :=
    ⟨_, _, Run.of_runs rfl, Run.of_runsIf rfl, rfl, rfl, ⟨0, rfl, rfl⟩, rfl⟩
  have hstands := (pipeline_stands_for onlyVolume hbefore hm hrun).2
  rw [hreturned] at hstands
  exact ⟨s, t, hbefore, hrun, hstub, hobjects, hstands⟩

end Rialto.Link.MediaPipelineCalls
