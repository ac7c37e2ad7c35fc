import Mathlib.Algebra.Group.Nat.Defs
import Mathlib.Tactic.Common

/-! # Media segments and their metadata

`MediaSegment` with its two subclasses, and the protobuf message `MediaSegmentMetadata` that travels
in front of the data of a segment in the shared memory. Optional fields of the message are
`Option`s, so that a field that was never set differs from one set to its default. -/

namespace Rialto.Media.Segment

inductive MediaSourceType
  | unknown
  | audio
  | video
  deriving DecidableEq

inductive SegmentAlignment
  | undefined
  | nal
  | au
  deriving DecidableEq

inductive AddSegmentStatus
  | ok
  | noSpace
  | error
  deriving DecidableEq

/-- The sizes are of type `size_t`. -/
structure SubSamplePair where
  numClearBytes : ℕ
  numEncryptedBytes : ℕ
  deriving DecidableEq

/-- The dynamic class of a segment with the fields of the class. -/
inductive SegmentClass
  | plain
  | audio (sampleRate numberOfChannels : Int32)
  | video (width height : Int32)
  deriving DecidableEq

/-- `IMediaPipeline::MediaSegment`. The length of the data is a `uint32_t`. -/
structure MediaSegment where
  sourceId : Int32
  type : MediaSourceType
  fields : SegmentClass
  data : List UInt8
  dataLength_lt : data.length < 2 ^ 32
  timeStamp : Int64
  duration : Int64
  extraData : List UInt8
  encrypted : Bool
  mediaKeySessionId : Int32
  keyId : List UInt8
  initVector : List UInt8
  subSamples : List SubSamplePair
  initWithLast15 : UInt32
  alignment : SegmentAlignment
  deriving DecidableEq

/-- The constructor of the base class, with the defaults of the fields it does not take. -/
def MediaSegment.mk' (sourceId : Int32) (type : MediaSourceType) (fields : SegmentClass)
    (timeStamp duration : Int64) : MediaSegment where
  sourceId := sourceId
  type := type
  fields := fields
  data := []
  dataLength_lt := by decide
  timeStamp := timeStamp
  duration := duration
  extraData := []
  encrypted := false
  mediaKeySessionId := 0
  keyId := []
  initVector := []
  subSamples := []
  initWithLast15 := 0
  alignment := .undefined

/-- `MediaSegmentMetadata::SubsamplePair`. -/
structure SubsampleInfo where
  numClearBytes : UInt32
  numEncryptedBytes : UInt32
  deriving DecidableEq

/-- The protobuf message `MediaSegmentMetadata`. -/
structure MediaSegmentMetadata where
  length : UInt32
  timePosition : Int64
  sampleDuration : Int64
  streamId : UInt32
  sampleRate : Option UInt32
  channelsNum : Option UInt32
  width : Option UInt32
  height : Option UInt32
  segmentAlignment : Option SegmentAlignment
  extraData : Option (List UInt8)
  mediaKeySessionId : Option Int32
  keyId : Option (List UInt8)
  initVector : Option (List UInt8)
  initWithLast15 : Option UInt32
  subSampleInfo : List SubsampleInfo
  deriving DecidableEq

/-- The functions of protobuf that the writer and the reader call. `serializeToArray` says whether
it succeeded and which bytes it wrote. -/
structure Protobuf where
  byteSizeLong : MediaSegmentMetadata → ℕ
  serializeToArray : MediaSegmentMetadata → Bool × List UInt8
  parseFromArray : List UInt8 → Option MediaSegmentMetadata

/-- What the code relies on: nothing is written beyond the size given by `ByteSizeLong`, and what
was written by a successful `SerializeToArray` has that size and is parsed back by
`ParseFromArray`. -/
structure Protobuf.Lawful (pb : Protobuf) : Prop where
  length_le : ∀ m, (pb.serializeToArray m).2.length ≤ pb.byteSizeLong m
  length_eq : ∀ m, (pb.serializeToArray m).1 = true →
    (pb.serializeToArray m).2.length = pb.byteSizeLong m
  parse_eq : ∀ m, (pb.serializeToArray m).1 = true →
    pb.parseFromArray (pb.serializeToArray m).2 = some m

/-- The two segments agree in everything a player uses: the fields about encryption count only when
the segment is encrypted. -/
structure SameSegment (a b : MediaSegment) : Prop where
  sourceId : b.sourceId = a.sourceId
  type : b.type = a.type
  fields : b.fields = a.fields
  data : b.data = a.data
  timeStamp : b.timeStamp = a.timeStamp
  duration : b.duration = a.duration
  extraData : b.extraData = a.extraData
  alignment : b.alignment = a.alignment
  encrypted : b.encrypted = a.encrypted
  encryption : a.encrypted = true → b.mediaKeySessionId = a.mediaKeySessionId ∧
    b.keyId = a.keyId ∧ b.initVector = a.initVector ∧ b.initWithLast15 = a.initWithLast15 ∧
    b.subSamples = a.subSamples

end Rialto.Media.Segment
