import Mathlib.Data.Int.Notation
import Mathlib.Data.List.TakeWhile
import Mathlib.Logic.Function.Basic
import Rialto.Media.Segment

/-! # A source on its way to the server

The client puts a source into a request, field by field, and the server builds a source from it.
Both have tables for the enumerations. For the two video classes the server takes the mime type as a
C string; a configuration type that it does not know leaves it without a source, on which it goes on
all the same.

* `attachSourceRequest`, `mediaSource`: what the client sends and what the server builds.
* `mediaSource_attachSourceRequest`: the source that is built, for every source.
* `processMethodCall_unknown`: what becomes of a request of a type that is not known.
* `travels_intact_iff`: which sources arrive as they were, and that no such request is refused. -/

namespace Rialto.Link.AttachSource

open Rialto.Media.Segment

/-! ## Sources -/

inductive SourceConfigType
  | unknown
  | audio
  | video
  | videoDolbyVision
  deriving DecidableEq

inductive StreamFormat
  | undefined
  | raw
  | avc
  | byteStream
  deriving DecidableEq

structure AudioConfig where
  numberOfChannels : UInt32
  sampleRate : UInt32
  codecSpecificConfig : List UInt8
  deriving DecidableEq

/-- The fields of the base class, but for `m_configType`. -/
@[ext]
structure Base where
  id : ℤ
  mimeType : List UInt8
  alignment : SegmentAlignment
  streamFormat : StreamFormat
  codecData : List UInt8
  deriving DecidableEq

/-- A `MediaSource` by its class; the constructor of the class sets `m_configType`. -/
inductive MediaSource
  | audio (base : Base) (audioConfig : AudioConfig)
  | video (base : Base)
  | videoDolbyVision (base : Base) (dolbyVisionProfile : UInt32)
  deriving DecidableEq

namespace MediaSource

def base : MediaSource → Base
  | audio base _ | video base | videoDolbyVision base _ => base

def configType : MediaSource → SourceConfigType
  | audio _ _ => .audio
  | video _ => .video
  | videoDolbyVision _ _ => .videoDolbyVision

/-- `getType`, which `MediaSourceVideoDolbyVision` inherits from `MediaSourceVideo`. -/
def type : MediaSource → MediaSourceType
  | audio _ _ => .audio
  | video _ | videoDolbyVision _ _ => .video

def setId (id : ℤ) : MediaSource → MediaSource
  | audio base audioConfig => audio { base with id := id } audioConfig
  | video base => video { base with id := id }
  | videoDolbyVision base profile => videoDolbyVision { base with id := id } profile

@[simp] theorem base_setId (source : MediaSource) (id : ℤ) :
    (source.setId id).base = { source.base with id := id } := by
  cases source <;> rfl

@[simp] theorem type_setId (source : MediaSource) (id : ℤ) :
    (source.setId id).type = source.type := by
  cases source <;> rfl

@[simp] theorem setId_setId (source : MediaSource) (id id' : ℤ) :
    (source.setId id).setId id' = source.setId id' := by
  cases source <;> rfl

theorem type_ne_unknown (source : MediaSource) : source.type ≠ .unknown := by
  cases source <;> nofun

end MediaSource

/-! ## The request -/

/-- `AttachSourceRequest::ConfigType` -/
inductive ConfigTypeField
  | configTypeUnknown
  | configTypeAudio
  | configTypeVideo
  | configTypeVideoDolbyVision
  deriving DecidableEq

/-- `AttachSourceRequest::SegmentAlignment` -/
inductive SegmentAlignmentField
  | alignmentUndefined
  | alignmentNal
  | alignmentAu
  deriving DecidableEq

/-- `AttachSourceRequest::StreamFormat` -/
inductive StreamFormatField
  | streamFormatUndefined
  | streamFormatRaw
  | streamFormatAvc
  | streamFormatByteStream
  deriving DecidableEq

/-- `AttachSourceRequest::AudioConfig` -/
structure AudioConfigField where
  numberOfChannels : UInt32
  sampleRate : UInt32
  codecSpecificConfig : Option (List UInt8)
  deriving DecidableEq

/-- An optional field is an `Option`. -/
structure AttachSourceRequest where
  sessionId : ℤ
  configType : ConfigTypeField
  mimeType : List UInt8
  segmentAlignment : SegmentAlignmentField
  audioConfig : Option AudioConfigField
  codecData : List UInt8
  streamFormat : StreamFormatField
  dolbyVisionProfile : Option UInt32
  deriving DecidableEq

/-- The functions of protobuf that the channel of the client and the server call. Bytes parse only
when every required field is there, and a number that is no enumerator counts as no field. -/
structure Protobuf where
  serializeToString : AttachSourceRequest → Option (List UInt8)
  parseFromString : List UInt8 → Option AttachSourceRequest

/-- What is serialized is parsed back. -/
def Protobuf.Lawful (pb : Protobuf) : Prop :=
  ∀ request message, pb.serializeToString request = some message →
    pb.parseFromString message = some request

/-! ## The client -/

namespace MediaPipelineIpc

def convertConfigType : SourceConfigType → ConfigTypeField
  | .unknown => .configTypeUnknown
  | .audio => .configTypeAudio
  | .video => .configTypeVideo
  | .videoDolbyVision => .configTypeVideoDolbyVision

def convertSegmentAlignment : SegmentAlignment → SegmentAlignmentField
  | .undefined => .alignmentUndefined
  | .nal => .alignmentNal
  | .au => .alignmentAu

def convertStreamFormat : StreamFormat → StreamFormatField
  | .undefined => .streamFormatUndefined
  | .raw => .streamFormatRaw
  | .avc => .streamFormatAvc
  | .byteStream => .streamFormatByteStream

/-- The request of `attachSource` for a source. -/
def attachSourceRequest (sessionId : ℤ) (source : MediaSource) : AttachSourceRequest where
  sessionId := sessionId
  configType := convertConfigType source.configType
  mimeType := source.base.mimeType
  segmentAlignment := convertSegmentAlignment source.base.alignment
  codecData := source.base.codecData
  streamFormat := convertStreamFormat source.base.streamFormat
  dolbyVisionProfile := match source with
    | .videoDolbyVision _ profile => some profile
    | _ => none
  audioConfig := match source with
    | .audio _ config => some
      { numberOfChannels := config.numberOfChannels
        sampleRate := config.sampleRate
        codecSpecificConfig :=
          if config.codecSpecificConfig.isEmpty then none else some config.codecSpecificConfig }
    | _ => none

end MediaPipelineIpc

/-! ## What the server builds -/

/-- The `std::string` that is made from the `c_str()` of another: it ends before the first NUL. -/
def ofCStr (s : List UInt8) : List UInt8 := s.takeWhile (· ≠ 0)

theorem ofCStr_eq_self_iff {s : List UInt8} : ofCStr s = s ↔ 0 ∉ s := by
  rw [ofCStr, List.takeWhile_eq_self_iff]
  constructor
  · intro h hmem
    simpa using h 0 hmem
  · intro h x hx
    have hne : x ≠ 0 := fun h0 => h (h0 ▸ hx)
    simpa using hne

namespace MediaPipelineModuleService

def convertConfigType : ConfigTypeField → SourceConfigType
  | .configTypeUnknown => .unknown
  | .configTypeAudio => .audio
  | .configTypeVideo => .video
  | .configTypeVideoDolbyVision => .videoDolbyVision

def convertSegmentAlignment : SegmentAlignmentField → SegmentAlignment
  | .alignmentUndefined => .undefined
  | .alignmentNal => .nal
  | .alignmentAu => .au

def convertStreamFormat : StreamFormatField → StreamFormat
  | .streamFormatRaw => .raw
  | .streamFormatAvc => .avc
  | .streamFormatByteStream => .byteStream
  | _ => .undefined

/-- The `audioConfig` of the request; a field that is not set reads as its default. -/
def audioConfig (request : AttachSourceRequest) : AudioConfig :=
  let config := request.audioConfig.getD ⟨0, 0, none⟩
  { numberOfChannels := config.numberOfChannels
    sampleRate := config.sampleRate
    codecSpecificConfig := config.codecSpecificConfig.getD [] }

/-- The base of a source built from the request, with the mime type as the class takes it. -/
def base (request : AttachSourceRequest) (mimeType : List UInt8) : Base where
  id := 0
  mimeType := mimeType
  alignment := convertSegmentAlignment request.segmentAlignment
  streamFormat := convertStreamFormat request.streamFormat
  codecData := request.codecData

/-- The `mediaSource` of `attachSource`, `none` for the null pointer. The constructor of the Dolby
Vision class takes the profile as an `int32_t`. -/
def mediaSource (request : AttachSourceRequest) : Option MediaSource :=
  match convertConfigType request.configType with
  | .audio => some (.audio (base request request.mimeType) (audioConfig request))
  | .video => some (.video (base request (ofCStr request.mimeType)))
  | .videoDolbyVision => some (.videoDolbyVision (base request (ofCStr request.mimeType))
      ((request.dolbyVisionProfile.getD 0).toInt32.toUInt32))
  | .unknown => none

end MediaPipelineModuleService

open MediaPipelineIpc (attachSourceRequest)
open MediaPipelineModuleService (mediaSource)

/-! ## The source that is built -/

@[simp] theorem convertConfigType_convert (t : SourceConfigType) :
    MediaPipelineModuleService.convertConfigType (MediaPipelineIpc.convertConfigType t) = t := by
  cases t <;> rfl

@[simp] theorem convertSegmentAlignment_convert (a : SegmentAlignment) :
    MediaPipelineModuleService.convertSegmentAlignment
      (MediaPipelineIpc.convertSegmentAlignment a) = a := by
  cases a <;> rfl

@[simp] theorem convertStreamFormat_convert (f : StreamFormat) :
    MediaPipelineModuleService.convertStreamFormat
      (MediaPipelineIpc.convertStreamFormat f) = f := by
  cases f <;> rfl

/-- An empty configuration is not sent, and what is not sent reads as empty. -/
@[simp] theorem getD_codecSpecificConfig (bytes : List UInt8) :
    (if bytes = [] then none else some bytes).getD [] = bytes := by
  cases bytes <;> rfl

/-- What the mime type of a source arrives as. -/
def arrivedMimeType : MediaSource → List UInt8
  | .audio base _ => base.mimeType
  | .video base | .videoDolbyVision base _ => ofCStr base.mimeType

/-- The source with another mime type. -/
def withMimeType (mimeType : List UInt8) : MediaSource → MediaSource
  | .audio base config => .audio { base with mimeType := mimeType } config
  | .video base => .video { base with mimeType := mimeType }
  | .videoDolbyVision base profile => .videoDolbyVision { base with mimeType := mimeType } profile

/-- **What the server builds** from the request of a source: the source, but for its id and the
mime type, which arrives as `arrivedMimeType`. -/
theorem mediaSource_attachSourceRequest (sessionId : ℤ) (source : MediaSource) :
    mediaSource (attachSourceRequest sessionId source) =
      some (withMimeType (arrivedMimeType source) (source.setId 0)) := by
  cases source with
  | audio base config =>
    simp [mediaSource, attachSourceRequest, MediaPipelineModuleService.base,
      MediaPipelineModuleService.audioConfig, MediaSource.configType, MediaSource.base,
      MediaSource.setId, arrivedMimeType, withMimeType]
  | video base =>
    simp [mediaSource, attachSourceRequest, MediaPipelineModuleService.base,
      MediaSource.configType, MediaSource.base, MediaSource.setId, arrivedMimeType, withMimeType]
  | videoDolbyVision base profile =>
    simp [mediaSource, attachSourceRequest, MediaPipelineModuleService.base,
      MediaSource.configType, MediaSource.base, MediaSource.setId, arrivedMimeType, withMimeType]

theorem withMimeType_eq_self_iff {mimeType : List UInt8} {source : MediaSource} :
    withMimeType mimeType source = source ↔ mimeType = source.base.mimeType := by
  cases source <;> simp [withMimeType, MediaSource.base, Base.ext_iff]

theorem arrivedMimeType_eq_iff (source : MediaSource) :
    arrivedMimeType source = source.base.mimeType ↔
      source.configType = .audio ∨ 0 ∉ source.base.mimeType := by
  cases source with
  | audio base config => exact ⟨fun _ => Or.inl rfl, fun _ => rfl⟩
  | video base =>
    simpa [MediaSource.configType, MediaSource.base, arrivedMimeType] using ofCStr_eq_self_iff
  | videoDolbyVision base profile =>
    simpa [MediaSource.configType, MediaSource.base, arrivedMimeType] using ofCStr_eq_self_iff

/-- The source that the server builds from the bytes of a request. -/
def built (pb : Protobuf) (message : List UInt8) : Option MediaSource :=
  (pb.parseFromString message).bind mediaSource

/-- **A source travels intact** exactly when it is an audio source or its mime type has no NUL. -/
theorem built_eq_iff {pb : Protobuf} (hpb : pb.Lawful) {sessionId : ℤ} {source : MediaSource}
    {message : List UInt8}
    (hsent : pb.serializeToString (attachSourceRequest sessionId source) = some message) :
    built pb message = some (source.setId 0) ↔
      source.configType = .audio ∨ 0 ∉ source.base.mimeType := by
  have hbuilt : built pb message =
      some (withMimeType (arrivedMimeType source) (source.setId 0)) := by
    rw [built, hpb _ _ hsent]
    exact mediaSource_attachSourceRequest sessionId source
  rw [hbuilt, Option.some.injEq, withMimeType_eq_self_iff, MediaSource.base_setId]
  exact arrivedMimeType_eq_iff source

/-! ## The server -/

/-- A `MediaPipelineServerInternal`: the sources that its player was given, `none` without a player,
and the ids of the attached sources. -/
structure MediaPipeline where
  gstPlayer : Option (List MediaSource)
  attachedSources : MediaSourceType → Option ℤ

/-- The sessions of a `MediaPipelineService`, and the counter of `generateSourceId`. -/
structure Server where
  mediaPipelines : ℤ → Option MediaPipeline
  nextSourceId : ℤ

/-- What a call leaves: its result, the source with its id, the pipeline and the counter. -/
structure Attached where
  result : Bool
  source : MediaSource
  mediaPipeline : MediaPipeline
  nextSourceId : ℤ

/-- `none` when the null pointer is dereferenced. -/
def attachSourceInternal (p : MediaPipeline) (nextSourceId : ℤ) (source : Option MediaSource) :
    Option Attached :=
  match source with
  | none => none
  | some source =>
    let source := source.setId (-1)
    match p.gstPlayer with
    | none => some ⟨false, source, p, nextSourceId⟩
    | some player =>
      if source.type = .unknown then some ⟨false, source, p, nextSourceId⟩
      else
        let p := { p with gstPlayer := some (player ++ [source]) }
        match p.attachedSources source.type with
        | none =>
          let attachedSources :=
            Function.update p.attachedSources source.type (some nextSourceId)
          some ⟨true, source.setId nextSourceId, { p with attachedSources := attachedSources },
            nextSourceId + 1⟩
        | some id => some ⟨true, source.setId id, p, nextSourceId⟩

/-- `MediaPipelineService::attachSource` with its result and the source that it leaves behind the
reference; `none` when the null pointer is dereferenced. -/
def MediaPipelineService.attachSource (s : Server) (sessionId : ℤ) (source : Option MediaSource) :
    Option (Bool × Option MediaSource × Server) :=
  match s.mediaPipelines sessionId with
  | none => some (false, source, s)
  | some p =>
    match attachSourceInternal p s.nextSourceId source with
    | none => none
    | some a => some (a.result, some a.source,
        ⟨Function.update s.mediaPipelines sessionId (some a.mediaPipeline), a.nextSourceId⟩)

/-- What becomes of a call: nothing is sent, the server dereferences the null pointer, or it sends
an error or the response. -/
inductive Outcome
  | dropped
  | nullDereferenced
  | failed (reason : String)
  | replied (sourceId : ℤ)
  deriving DecidableEq

/-- The source is asked for its id whether it was attached or not. -/
def MediaPipelineModuleService.attachSource (s : Server) (request : AttachSourceRequest) :
    Outcome × Server :=
  match MediaPipelineService.attachSource s request.sessionId (mediaSource request) with
  | none => (.nullDereferenced, s)
  | some (_, none, s') => (.nullDereferenced, s')
  | some (result, some source, s') =>
    (if result then .replied source.base.id else .failed "Operation failed", s')

/-- `processMethodCall` for the method `attachSource`; a request that does not parse is logged. -/
def processMethodCall (pb : Protobuf) (s : Server) (message : List UInt8) : Outcome × Server :=
  match pb.parseFromString message with
  | none => (.dropped, s)
  | some request => MediaPipelineModuleService.attachSource s request

/-! ## Requests of a known type -/

section Known

variable {s : Server} {request : AttachSourceRequest} {source : MediaSource} {p : MediaPipeline}

/-- The source that was built is what the player of the session is given, and the reply has the id
under which it is attached. -/
theorem attachSource_player {player : List MediaSource}
    (hsource : mediaSource request = some source) (hp : s.mediaPipelines request.sessionId = some p)
    (hplayer : p.gstPlayer = some player) :
    ∃ id p', (MediaPipelineModuleService.attachSource s request).1 = .replied id ∧
      (MediaPipelineModuleService.attachSource s request).2.mediaPipelines request.sessionId =
        some p' ∧
      p'.gstPlayer = some (player ++ [source.setId (-1)]) ∧
      p'.attachedSources source.type = some id := by
  have htype := source.type_ne_unknown
  cases hid : p.attachedSources source.type with
  | none =>
    simp [MediaPipelineModuleService.attachSource, MediaPipelineService.attachSource,
      attachSourceInternal, hsource, hp, hplayer, htype, hid]
  | some id =>
    simp [MediaPipelineModuleService.attachSource, MediaPipelineService.attachSource,
      attachSourceInternal, hsource, hp, hplayer, htype, hid]

/-- **From client to player**: a source that travels intact is given to the player as the client has
it, and the client is told the id under which it is attached. -/
theorem processMethodCall_attaches {pb : Protobuf} (hpb : pb.Lawful) {sessionId : ℤ}
    {message : List UInt8} {player : List MediaSource}
    (hsent : pb.serializeToString (attachSourceRequest sessionId source) = some message)
    (hintact : source.configType = .audio ∨ 0 ∉ source.base.mimeType)
    (hp : s.mediaPipelines sessionId = some p) (hplayer : p.gstPlayer = some player) :
    ∃ id p', (processMethodCall pb s message).1 = .replied id ∧
      (processMethodCall pb s message).2.mediaPipelines sessionId = some p' ∧
      p'.gstPlayer = some (player ++ [source.setId (-1)]) ∧
      p'.attachedSources source.type = some id := by
  have hparse := hpb _ _ hsent
  have hbuilt := (built_eq_iff hpb hsent).mpr hintact
  rw [built, hparse] at hbuilt
  have hattached := attachSource_player (s := s) hbuilt hp hplayer
  rw [MediaSource.setId_setId, MediaSource.type_setId] at hattached
  rw [processMethodCall, hparse]
  exact hattached

/-- Without a session or without a player the request is refused. -/
theorem attachSource_refused (hsource : mediaSource request = some source)
    (hp : ∀ p, s.mediaPipelines request.sessionId = some p → p.gstPlayer = none) :
    (MediaPipelineModuleService.attachSource s request).1 = .failed "Operation failed" ∧
      (MediaPipelineModuleService.attachSource s request).2.mediaPipelines = s.mediaPipelines := by
  cases hs : s.mediaPipelines request.sessionId with
  | none =>
    simp [MediaPipelineModuleService.attachSource, MediaPipelineService.attachSource, hsource, hs]
  | some p =>
    have hplayer := hp p hs
    have hsame : Function.update s.mediaPipelines request.sessionId (some p) = s.mediaPipelines :=
      hs ▸ Function.update_eq_self _ _
    simp [MediaPipelineModuleService.attachSource, MediaPipelineService.attachSource,
      attachSourceInternal, hsource, hs, hplayer, hsame]

end Known

/-! ## Requests of a type that is not known -/

/-- The server does not know the configuration type of the request: it is `CONFIG_TYPE_UNKNOWN`, or
a number that is no enumerator, with which the request does not parse. -/
def UnknownType (pb : Protobuf) (message : List UInt8) : Prop :=
  ∀ request, pb.parseFromString message = some request →
    MediaPipelineModuleService.convertConfigType request.configType = .unknown

/-- The call is answered with a failure, and no session has another source. -/
structure Refused (s : Server) (r : Outcome × Server) : Prop where
  failed : ∃ reason, r.1 = .failed reason
  attached : r.2.mediaPipelines = s.mediaPipelines

/-- With and without a session the handler comes to the null pointer. -/
theorem attachSource_unknown {request : AttachSourceRequest} (s : Server)
    (hunknown : MediaPipelineModuleService.convertConfigType request.configType = .unknown) :
    MediaPipelineModuleService.attachSource s request = (.nullDereferenced, s) := by
  have hsource : mediaSource request = none := by
    simp only [mediaSource, hunknown]
  cases hs : s.mediaPipelines request.sessionId with
  | none =>
    simp only [MediaPipelineModuleService.attachSource, MediaPipelineService.attachSource, hsource,
      hs]
  | some p =>
    simp only [MediaPipelineModuleService.attachSource, MediaPipelineService.attachSource,
      attachSourceInternal, hsource, hs]

/-- **What becomes of a request whose type is not known**: it is dropped without an answer when it
does not parse; otherwise the server dereferences the null pointer. -/
theorem processMethodCall_unknown {pb : Protobuf} {message : List UInt8} (s : Server)
    (hunknown : UnknownType pb message) :
    processMethodCall pb s message = (.dropped, s) ∨
      processMethodCall pb s message = (.nullDereferenced, s) := by
  unfold processMethodCall
  cases hparse : pb.parseFromString message with
  | none => exact Or.inl rfl
  | some request => exact Or.inr (attachSource_unknown s (hunknown request hparse))

/-- **How sources travel.** For every source whose request is sent, the source that the server
builds is that of the client, but for the id that the server assigns, if and only if it is an audio
source or its mime type has no NUL. No request of a type that the server does not know is
refused. -/
theorem travels_intact_iff {pb : Protobuf} (hpb : pb.Lawful) :
    (∀ sessionId source message,
      pb.serializeToString (attachSourceRequest sessionId source) = some message →
      (built pb message = some (source.setId 0) ↔
        source.configType = .audio ∨ 0 ∉ source.base.mimeType)) ∧
    ∀ s message, UnknownType pb message → ¬ Refused s (processMethodCall pb s message) := by
  refine ⟨fun sessionId source message hsent => built_eq_iff hpb hsent, ?_⟩
  rintro s message hunknown ⟨⟨reason, hfailed⟩, -⟩
  rcases processMethodCall_unknown s hunknown with heq | heq
  · rw [heq] at hfailed
    cases hfailed
  · rw [heq] at hfailed
    cases hfailed

/-! ## Three requests -/

/-- `audio/aac`, with a codec specific configuration. -/
def audioSource : MediaSource :=
  .audio ⟨0, [97, 117, 100, 105, 111, 47, 97, 97, 99], .undefined, .raw, []⟩ ⟨2, 48000, [1, 2]⟩

/-- `video/h264`, a NUL and one more character. -/
def videoSource : MediaSource :=
  .video ⟨0, [118, 105, 100, 101, 111, 47, 104, 50, 54, 52, 0, 120], .au, .avc, [1]⟩

/-- A request of the type `CONFIG_TYPE_UNKNOWN`. -/
def unknownRequest : AttachSourceRequest :=
  ⟨0, .configTypeUnknown, [], .alignmentUndefined, none, [], .streamFormatUndefined, none⟩

def audioBytes : List UInt8 :=
  [8, 0, 16, 1, 26, 9, 97, 117, 100, 105, 111, 47, 97, 97, 99, 32, 0, 42, 10, 8, 2, 16, 128, 247, 2,
    26, 2, 1, 2, 50, 0, 56, 1]

def videoBytes : List UInt8 :=
  [8, 0, 16, 2, 26, 12, 118, 105, 100, 101, 111, 47, 104, 50, 54, 52, 0, 120, 32, 2, 50, 1, 1, 56,
    2]

def unknownBytes : List UInt8 := [8, 0, 16, 0, 26, 0, 32, 0, 50, 0, 56, 0]

/-- The requests with what protobuf writes for them. -/
def serialized : List (AttachSourceRequest × List UInt8) :=
  [(attachSourceRequest 0 audioSource, audioBytes), (attachSourceRequest 0 videoSource, videoBytes),
    (unknownRequest, unknownBytes)]

/-- Protobuf on the three requests. -/
def threeRequests : Protobuf where
  serializeToString request := (serialized.find? (·.1 = request)).map Prod.snd
  parseFromString message := (serialized.find? (·.2 = message)).map Prod.fst

theorem threeRequests_lawful : threeRequests.Lawful := by
  intro request message hsent
  obtain ⟨⟨request', message'⟩, hfind, rfl⟩ := Option.map_eq_some_iff.mp hsent
  have heq : request' = request := by simpa using List.find?_some hfind
  have hall : ∀ r ∈ serialized, threeRequests.parseFromString r.2 = some r.1 := by decide
  rw [← heq]
  exact hall _ (List.mem_of_find?_eq_some hfind)

/-- A session with a player and no source. -/
def oneSession : Server where
  mediaPipelines sessionId := if sessionId = 0 then some ⟨some [], fun _ => none⟩ else none
  nextSourceId := 1

/-- The audio source arrives as it was. -/
theorem audio_travels_intact : threeRequests.Lawful ∧ built threeRequests audioBytes =
    some audioSource :=
  ⟨threeRequests_lawful, ((travels_intact_iff threeRequests_lawful).1 0 audioSource audioBytes
    (by decide)).mpr (Or.inl rfl)⟩

/-- The mime type of the video source ends at the NUL; the request of the unknown type makes the
server dereference the null pointer, and so it is not refused. -/
theorem nul_and_unknown_type : threeRequests.Lawful ∧
    threeRequests.serializeToString (attachSourceRequest 0 videoSource) = some videoBytes ∧
    built threeRequests videoBytes ≠ some (videoSource.setId 0) ∧
    UnknownType threeRequests unknownBytes ∧
    (processMethodCall threeRequests oneSession unknownBytes).1 = .nullDereferenced ∧
    ¬ Refused oneSession (processMethodCall threeRequests oneSession unknownBytes) := by
  have hderef : (processMethodCall threeRequests oneSession unknownBytes).1 = .nullDereferenced :=
    rfl
  refine ⟨threeRequests_lawful, by decide, by decide, ?_, hderef, ?_⟩
  · intro request hparse
    have hrequest : unknownRequest = request := Option.some.inj hparse
    rw [← hrequest]
    rfl
  · rintro ⟨⟨reason, hfailed⟩, -⟩
    rw [hderef] at hfailed
    cases hfailed

end Rialto.Link.AttachSource
