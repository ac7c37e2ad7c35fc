import Rialto.Lib.Endian
import Rialto.Lib.Memory
import Rialto.Lib.Word
import Rialto.Media.Segment

/-! # Writing and reading frames

The client writes segments into the region of a need-data request with `MediaFrameWriterV2`, the
server reads them back with the reader that `DataReaderFactory` picks. The two sides compute the
place of the data on their own: the writer is told by `NeedMediaData`, the reader adds the maximal
size of the metadata to the offset of the region.

* `createWriter`, `writeFrame`, `buildMetadata`: the writer;
* `createDataReader`, `createSegment`, `readData`: the reader. -/

namespace Rialto.Media.Frames

open Rialto.Lib.Endian Rialto.Lib.Memory Rialto.Lib.Word Rialto.Media.Segment

/-! ## The region of a request -/

/-- `VERSION_SIZE_BYTES`. -/
def versionSizeBytes : ℕ := 4

/-- `METADATA_V1_SIZE_PER_FRAME_BYTES`. -/
def metadataV1SizePerFrameBytes : ℕ := 104

/-- `kMaxFrames`. -/
def maxFrames : ℕ := 24

/-- `getMaxMetadataBytes`. -/
def getMaxMetadataBytes : ℕ := versionSizeBytes + maxFrames * metadataV1SizePerFrameBytes

/-- The region of a media source in the shared memory: an offset into a buffer whose size fits 32
bits, and a length that leaves room for the metadata. -/
structure Region where
  dataOffset : ℕ
  maxDataLen : ℕ
  metadata_lt : getMaxMetadataBytes < maxDataLen
  fits : dataOffset + maxDataLen < w32

/-- The offset of the data in a region. -/
def Region.start (r : Region) : ℕ := r.dataOffset + getMaxMetadataBytes

structure MediaPlayerShmInfo where
  maxMetadataBytes : ℕ
  metadataOffset : ℕ
  mediaDataOffset : ℕ
  maxMediaBytes : ℕ
  deriving DecidableEq

/-- The shared memory description that `NeedMediaData` computes. -/
def needMediaData (r : Region) : MediaPlayerShmInfo where
  maxMetadataBytes := getMaxMetadataBytes
  metadataOffset := r.dataOffset
  mediaDataOffset := add32 r.dataOffset getMaxMetadataBytes
  maxMediaBytes := sub32 r.maxDataLen getMaxMetadataBytes

/-! ## The writer -/

/-- `MediaFrameWriterV2`, with the memory it writes to. -/
structure MediaFrameWriterV2 where
  shmBuffer : Mem UInt8
  maxBytes : ℕ
  bytesWritten : ℕ
  dataOffset : ℕ
  numFrames : ℕ

/-- `kMetadataVersion`. -/
def metadataVersion : ℕ := 2

/-- `ByteWriter::writeUint32`. -/
def writeUint32 (shm : Mem UInt8) (off val : ℕ) : Mem UInt8 := write shm off (leBytes 4 val)

/-- The constructor of `MediaFrameWriterV2`. -/
def createWriter (shm : Mem UInt8) (info : MediaPlayerShmInfo) : MediaFrameWriterV2 where
  shmBuffer := writeUint32
    (fill (fill shm info.metadataOffset 0 info.maxMetadataBytes) info.mediaDataOffset 0
      info.maxMediaBytes) info.metadataOffset metadataVersion
  maxBytes := info.maxMediaBytes
  bytesWritten := 0
  dataOffset := info.mediaDataOffset
  numFrames := 0

/-- The type specific part of `buildMetadata`: sample rate, channels, width and height. `none` is an
exception: a failed `dynamic_cast` or an unknown type. -/
def typeSpecific (data : MediaSegment) :
    Option (Option UInt32 × Option UInt32 × Option UInt32 × Option UInt32) :=
  match data.type, data.fields with
  | .audio, .audio sampleRate channels =>
    some (some sampleRate.toUInt32, some channels.toUInt32, none, none)
  | .video, .video width height =>
    some (none, none, some width.toUInt32, some height.toUInt32)
  | _, _ => none

/-- `buildMetadata`. -/
def buildMetadata (data : MediaSegment) : Option MediaSegmentMetadata :=
  (typeSpecific data).map fun (sampleRate, channelsNum, width, height) =>
    { length := UInt32.ofNat data.data.length
      timePosition := data.timeStamp
      sampleDuration := data.duration
      streamId := data.sourceId.toUInt32
      sampleRate := sampleRate
      channelsNum := channelsNum
      width := width
      height := height
      segmentAlignment := if data.alignment ≠ .undefined then some data.alignment else none
      extraData := if data.extraData ≠ [] then some data.extraData else none
      mediaKeySessionId := if data.encrypted then some data.mediaKeySessionId else none
      keyId := if data.encrypted then some data.keyId else none
      initVector := if data.encrypted then some data.initVector else none
      initWithLast15 := if data.encrypted then some data.initWithLast15 else none
      subSampleInfo := if data.encrypted then data.subSamples.map fun s =>
        ⟨UInt32.ofNat s.numClearBytes, UInt32.ofNat s.numEncryptedBytes⟩ else [] }

/-- `MediaFrameWriterV2::writeFrame`. Offsets and counters are `uint32_t`, the sum that is compared
with the space left is a `size_t` of eight bytes. -/
def writeFrame (pb : Protobuf) (w : MediaFrameWriterV2) (data : MediaSegment) :
    MediaFrameWriterV2 × AddSegmentStatus :=
  match buildMetadata data with
  | none => (w, .error)
  | some metadata =>
    let metadataSize := pb.byteSizeLong metadata
    if w.maxBytes < w.bytesWritten + 8 + metadataSize + data.data.length then (w, .noSpace)
    else
      let shm := writeUint32 w.shmBuffer w.dataOffset (metadataSize % w32)
      let offset := add32 w.dataOffset 4
      let (serialized, bytes) := pb.serializeToArray metadata
      let shm := write shm offset bytes
      if !serialized then ({ w with shmBuffer := shm, dataOffset := sub32 offset 4 }, .error)
      else
        let offset := add32 offset metadataSize
        ({ w with
            shmBuffer := write shm offset data.data
            dataOffset := add32 offset data.data.length
            bytesWritten := add32 w.bytesWritten (8 + metadataSize + data.data.length)
            numFrames := w.numFrames + 1 }, .ok)

/-- A sequence of writes: the writer after it and the segments that were accepted. -/
def writeFrames (pb : Protobuf) (w : MediaFrameWriterV2) :
    List MediaSegment → MediaFrameWriterV2 × List MediaSegment
  | [] => (w, [])
  | data :: rest =>
    match writeFrame pb w data with
    | (w', .ok) => ((writeFrames pb w' rest).1, data :: (writeFrames pb w' rest).2)
    | (w', _) => writeFrames pb w' rest

/-! ## The reader -/

/-- The readers that `DataReaderFactory` makes. -/
inductive DataReader
  | v1 (type : MediaSourceType) (metadataOffsetWithoutVersion numFrames : ℕ)
  | v2 (type : MediaSourceType) (dataOffset numFrames : ℕ)
  deriving DecidableEq

/-- `readLEUint32`, and the read of a `uint32_t` through a pointer on a little-endian machine. -/
def readUint32 (shm : Mem UInt8) (off : ℕ) : ℕ := leValue (readRange shm off 4)

/-- `DataReaderFactory::createDataReader`. -/
def createDataReader (type : MediaSourceType) (shm : Mem UInt8) (dataOffset numFrames : ℕ) :
    Option DataReader :=
  let version := readUint32 shm dataOffset
  if version = 1 then some (.v1 type (add32 dataOffset versionSizeBytes) numFrames)
  else if version = 2 then some (.v2 type (add32 dataOffset getMaxMetadataBytes) numFrames)
  else none

/-- The type specific part of `createSegment`. -/
def createFields (metadata : MediaSegmentMetadata) (type : MediaSourceType) : Option SegmentClass :=
  match type with
  | .audio => match metadata.sampleRate, metadata.channelsNum with
    | some sampleRate, some channels => some (.audio sampleRate.toInt32 channels.toInt32)
    | _, _ => none
  | .video => match metadata.width, metadata.height with
    | some width, some height => some (.video width.toInt32 height.toInt32)
    | _, _ => none
  | .unknown => none

/-- `createSegment`. -/
def createSegment (metadata : MediaSegmentMetadata) (type : MediaSourceType) :
    Option MediaSegment :=
  (createFields metadata type).map fun fields =>
    { MediaSegment.mk' metadata.streamId.toInt32 type fields metadata.timePosition
        metadata.sampleDuration with
      alignment := metadata.segmentAlignment.getD .undefined
      extraData := metadata.extraData.getD []
      encrypted := metadata.mediaKeySessionId.isSome || metadata.keyId.isSome ||
        metadata.initVector.isSome || metadata.initWithLast15.isSome
      mediaKeySessionId := metadata.mediaKeySessionId.getD 0
      keyId := metadata.keyId.getD []
      initVector := metadata.initVector.getD []
      initWithLast15 := metadata.initWithLast15.getD 0
      subSamples := metadata.subSampleInfo.map fun s =>
        ⟨s.numClearBytes.toNat, s.numEncryptedBytes.toNat⟩ }

/-- `MediaSegment::setData` with a length and a pointer into the shared memory. -/
def setData (segment : MediaSegment) (shm : Mem UInt8) (off : ℕ) (length : UInt32) : MediaSegment :=
  { segment with
    data := readRange shm off length.toNat
    dataLength_lt := by rw [length_readRange]; exact length.toNat_lt }

/-- The loop of `DataReaderV2::readData` from the given position on; `none` is the early return of
an empty list. -/
def readFrames (pb : Protobuf) (shm : Mem UInt8) (type : MediaSourceType) :
    ℕ → ℕ → Option (List MediaSegment)
  | _, 0 => some []
  | pos, numFrames + 1 => do
    let metadataSize := readUint32 shm pos
    let metadata ← pb.parseFromArray (readRange shm (pos + 4) metadataSize)
    let segment ← createSegment metadata type
    let rest ← readFrames pb shm type (pos + 4 + metadataSize + metadata.length.toNat) numFrames
    pure (setData segment shm (pos + 4 + metadataSize) metadata.length :: rest)

/-- `DataReaderV2::readData`. -/
def readData (pb : Protobuf) (shm : Mem UInt8) (type : MediaSourceType) (dataOffset numFrames : ℕ) :
    List MediaSegment :=
  (readFrames pb shm type dataOffset numFrames).getD []

end Rialto.Media.Frames
