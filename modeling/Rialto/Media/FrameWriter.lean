import Rialto.Media.Frames

/-! # The frame writers

`MediaFrameWriterV1` writes the fields of a segment at fixed places of a metadata block, the data of
the segment in a block of its own. `MediaFrameWriterFactory` makes a writer of either version.

* `AnyWriter.writeFrame`, `AnyWriter.getNumFrames`: what a request does with its writer.
* `writeFrame_counted`: the number of frames of a writer is the number of its successful writes. -/

namespace Rialto.Media.FrameWriter

open Rialto.Lib.Endian Rialto.Lib.Memory Rialto.Lib.Word Rialto.Media.Segment Rialto.Media.Frames

/-! ## Version 1 -/

/-- `MediaFrameWriterV1`, with the memory it writes to. -/
structure MediaFrameWriterV1 where
  shmBuffer : Mem UInt8
  maxMediaBytes : ℕ
  maxMetadataBytes : ℕ
  mediaBytesWritten : ℕ
  metadataBytesWritten : ℕ
  mediaDataOffset : ℕ
  metadataOffset : ℕ
  numFrames : ℕ

/-- `MAX_EXTRA_DATA_SIZE`. -/
def maxExtraDataSize : ℕ := 32

/-- `m_kEncryptionMetadataSizeBytes`. -/
def encryptionMetadataSizeBytes : ℕ := 32

/-- The number of values of a `size_t`. -/
abbrev sizeValues : ℕ := 18446744073709551616

/-- The constructor of `MediaFrameWriterV1`. -/
def createWriterV1 (shm : Mem UInt8) (info : MediaPlayerShmInfo) : MediaFrameWriterV1 where
  shmBuffer := writeUint32 (fill shm info.metadataOffset 0 info.maxMetadataBytes)
    info.metadataOffset 1
  maxMediaBytes := info.maxMediaBytes
  maxMetadataBytes := info.maxMetadataBytes
  mediaBytesWritten := 0
  metadataBytesWritten := versionSizeBytes
  mediaDataOffset := info.mediaDataOffset
  metadataOffset := add32 info.metadataOffset versionSizeBytes
  numFrames := 0

/-- `m_metadataOffset = m_bytewriter.writeBytes(m_shmBuffer, m_metadataOffset, ..)`, and likewise
for the numbers. -/
def MediaFrameWriterV1.put (w : MediaFrameWriterV1) (bytes : List UInt8) : MediaFrameWriterV1 :=
  { w with
    shmBuffer := write w.shmBuffer w.metadataOffset bytes
    metadataOffset := add32 w.metadataOffset bytes.length }

/-- `m_metadataOffset = m_bytewriter.fillBytes(m_shmBuffer, m_metadataOffset, 0, count)`. -/
def MediaFrameWriterV1.fillZero (w : MediaFrameWriterV1) (count : ℕ) : MediaFrameWriterV1 :=
  { w with
    shmBuffer := fill w.shmBuffer w.metadataOffset 0 count
    metadataOffset := add32 w.metadataOffset count }

/-- The fields that `writeMetaDataGeneric` writes one after the other. -/
def genericFields (mediaDataOffset : ℕ) (data : MediaSegment) : List (List UInt8) :=
  [leBytes 4 mediaDataOffset, leBytes 4 data.data.length,
    leBytes 8 data.timeStamp.toUInt64.toNat, leBytes 8 data.duration.toUInt64.toNat,
    leBytes 4 data.sourceId.toUInt32.toNat, leBytes 4 (data.extraData.length % w32),
    data.extraData]

/-- The number of bytes that fill up the extra data, a difference of type `size_t`. -/
def extraDataFill (data : MediaSegment) : ℕ :=
  (sizeValues + maxExtraDataSize - data.extraData.length) % sizeValues

def writeMetaDataGeneric (w : MediaFrameWriterV1) (data : MediaSegment) :
    Bool × MediaFrameWriterV1 :=
  if w.maxMetadataBytes < add32 w.metadataBytesWritten metadataV1SizePerFrameBytes then (false, w)
  else
    let w := (genericFields w.mediaDataOffset data).foldl MediaFrameWriterV1.put w
    let w := w.fillZero (extraDataFill data)
    -- the section for encrypted segments is skipped
    (true, { w with metadataOffset := add32 w.metadataOffset encryptionMetadataSizeBytes })

/-- `writeData`. -/
def writeData (w : MediaFrameWriterV1) (data : MediaSegment) : Bool × MediaFrameWriterV1 :=
  if w.maxMediaBytes < add32 w.mediaBytesWritten data.data.length then (false, w)
  else
    (true, { w with
      shmBuffer := write w.shmBuffer w.mediaDataOffset data.data
      mediaDataOffset := add32 w.mediaDataOffset data.data.length
      mediaBytesWritten := add32 w.mediaBytesWritten data.data.length })

/-- `writeMetaDataTypeSpecific`; a segment whose class does not match its type throws. -/
def writeMetaDataTypeSpecific (w : MediaFrameWriterV1) (data : MediaSegment) :
    Bool × MediaFrameWriterV1 :=
  match data.type, data.fields with
  | .audio, .audio sampleRate channels =>
    (true, (w.put (leBytes 4 sampleRate.toUInt32.toNat)).put (leBytes 4 channels.toUInt32.toNat))
  | .video, .video width height =>
    (true, (w.put (leBytes 4 width.toUInt32.toNat)).put (leBytes 4 height.toUInt32.toNat))
  | _, _ => (false, w)

/-- `MediaFrameWriterV1::writeFrame`. -/
def writeFrameV1 (w : MediaFrameWriterV1) (data : MediaSegment) :
    MediaFrameWriterV1 × AddSegmentStatus :=
  match writeMetaDataGeneric w data with
  | (false, w) => (w, .noSpace)
  | (true, w) =>
    match writeData w data with
    | (false, w) => (w, .noSpace)
    | (true, w) =>
      match writeMetaDataTypeSpecific w data with
      | (false, w) => (w, .error)
      | (true, w) =>
        ({ w with
          numFrames := add32 w.numFrames 1
          metadataBytesWritten := add32 w.metadataBytesWritten metadataV1SizePerFrameBytes }, .ok)

/-! ## Either version -/

/-- `IMediaFrameWriter`. -/
inductive AnyWriter
  | v1 (w : MediaFrameWriterV1)
  | v2 (w : MediaFrameWriterV2)

/-- `createFrameWriter`, for the version that the factory was made with. -/
def createFrameWriter (metadataVersion : ℤ) (shm : Mem UInt8) (info : MediaPlayerShmInfo) :
    AnyWriter :=
  if metadataVersion = 1 then .v1 (createWriterV1 shm info) else .v2 (createWriter shm info)

namespace AnyWriter

/-- The memory after what the writer has done. -/
def shmBuffer : AnyWriter → Mem UInt8
  | .v1 w => w.shmBuffer
  | .v2 w => w.shmBuffer

/-- The writer with the memory as it is now; there is one memory for all writers. -/
def onMemory (w : AnyWriter) (shm : Mem UInt8) : AnyWriter :=
  match w with
  | .v1 w => .v1 { w with shmBuffer := shm }
  | .v2 w => .v2 { w with shmBuffer := shm }

def getNumFrames : AnyWriter → ℕ
  | .v1 w => w.numFrames
  | .v2 w => w.numFrames

def writeFrame (pb : Protobuf) (w : AnyWriter) (data : MediaSegment) :
    AnyWriter × AddSegmentStatus :=
  match w with
  | .v1 w => ((.v1 (writeFrameV1 w data).1), (writeFrameV1 w data).2)
  | .v2 w => ((.v2 (Frames.writeFrame pb w data).1), (Frames.writeFrame pb w data).2)

end AnyWriter

/-! ## The number of frames -/

/-- A writer that has written `n` frames. One of version 1 has accounted for their metadata, in a
block that is far from the end of 32 bits. -/
def Counted : AnyWriter → ℕ → Prop
  | .v1 w, n => w.numFrames = n ∧
      w.metadataBytesWritten = versionSizeBytes + metadataV1SizePerFrameBytes * n ∧
      w.metadataBytesWritten ≤ w.maxMetadataBytes ∧ w.maxMetadataBytes = getMaxMetadataBytes
  | .v2 w, n => w.numFrames = n

theorem counted_createFrameWriter (metadataVersion : ℤ) (shm : Mem UInt8) (r : Region) :
    Counted (createFrameWriter metadataVersion shm (needMediaData r)) 0 := by
  unfold createFrameWriter
  split_ifs
  · refine ⟨rfl, rfl, ?_, rfl⟩
    show versionSizeBytes ≤ getMaxMetadataBytes
    decide
  · rfl

theorem counted_onMemory {w : AnyWriter} {n : ℕ} (h : Counted w n) (shm : Mem UInt8) :
    Counted (w.onMemory shm) n := by
  cases w with
  | v1 w => exact h
  | v2 w => exact h

/-- The fields of a writer of version 1 that only `writeFrame` changes. -/
structure SameCounters (w w' : MediaFrameWriterV1) : Prop where
  numFrames : w'.numFrames = w.numFrames
  metadataBytesWritten : w'.metadataBytesWritten = w.metadataBytesWritten
  maxMetadataBytes : w'.maxMetadataBytes = w.maxMetadataBytes

theorem SameCounters.trans {w w' w'' : MediaFrameWriterV1} (h : SameCounters w w')
    (h' : SameCounters w' w'') : SameCounters w w'' :=
  ⟨h'.numFrames.trans h.numFrames, h'.metadataBytesWritten.trans h.metadataBytesWritten,
    h'.maxMetadataBytes.trans h.maxMetadataBytes⟩

theorem sameCounters_put (w : MediaFrameWriterV1) (bytes : List UInt8) :
    SameCounters w (w.put bytes) := ⟨rfl, rfl, rfl⟩

theorem sameCounters_fillZero (w : MediaFrameWriterV1) (count : ℕ) :
    SameCounters w (w.fillZero count) := ⟨rfl, rfl, rfl⟩

theorem sameCounters_skip (w : MediaFrameWriterV1) (offset : ℕ) :
    SameCounters w { w with metadataOffset := offset } := ⟨rfl, rfl, rfl⟩

theorem sameCounters_putAll (fields : List (List UInt8)) : ∀ w : MediaFrameWriterV1,
    SameCounters w (fields.foldl MediaFrameWriterV1.put w) := by
  induction fields with
  | nil => exact fun w => ⟨rfl, rfl, rfl⟩
  | cons bytes rest ih => exact fun w => (sameCounters_put w bytes).trans (ih (w.put bytes))

theorem sameCounters_generic (w : MediaFrameWriterV1) (data : MediaSegment) :
    SameCounters w (writeMetaDataGeneric w data).2 := by
  unfold writeMetaDataGeneric
  split_ifs
  · exact ⟨rfl, rfl, rfl⟩
  · have h1 := sameCounters_putAll (genericFields w.mediaDataOffset data) w
    have h2 := h1.trans (sameCounters_fillZero _ (extraDataFill data))
    exact h2.trans (sameCounters_skip _ _)

theorem sameCounters_writeData (w : MediaFrameWriterV1) (data : MediaSegment) :
    SameCounters w (writeData w data).2 := by
  unfold writeData
  split_ifs
  · exact ⟨rfl, rfl, rfl⟩
  · exact ⟨rfl, rfl, rfl⟩

theorem sameCounters_typeSpecific (w : MediaFrameWriterV1) (data : MediaSegment) :
    SameCounters w (writeMetaDataTypeSpecific w data).2 := by
  unfold writeMetaDataTypeSpecific
  split
  · exact ⟨rfl, rfl, rfl⟩
  · exact ⟨rfl, rfl, rfl⟩
  · exact ⟨rfl, rfl, rfl⟩

theorem generic_true {w : MediaFrameWriterV1} {data : MediaSegment}
    (h : (writeMetaDataGeneric w data).1 = true) :
    add32 w.metadataBytesWritten metadataV1SizePerFrameBytes ≤ w.maxMetadataBytes := by
  unfold writeMetaDataGeneric at h
  split_ifs at h with hspace
  exact Nat.le_of_not_lt hspace

theorem writeFrameV1_counted {w : MediaFrameWriterV1} {n : ℕ} (h : Counted (.v1 w) n)
    (data : MediaSegment) :
    Counted (.v1 (writeFrameV1 w data).1) (if (writeFrameV1 w data).2 = .ok then n + 1 else n) := by
  obtain ⟨hframes, hbytes, hle, hmax⟩ := h
  have hsame : ∀ {w'}, SameCounters w w' → Counted (.v1 w') n := fun h' => by
    refine ⟨h'.numFrames.trans hframes, h'.metadataBytesWritten.trans hbytes, ?_,
      h'.maxMetadataBytes.trans hmax⟩
    rw [h'.metadataBytesWritten, h'.maxMetadataBytes]
    exact hle
  have h1 := sameCounters_generic w data
  have h2 := h1.trans (sameCounters_writeData (writeMetaDataGeneric w data).2 data)
  have h3 := h2.trans (sameCounters_typeSpecific
    (writeData (writeMetaDataGeneric w data).2 data).2 data)
  unfold writeFrameV1
  rcases hgeneric : writeMetaDataGeneric w data with ⟨_ | _, w1⟩
  · rw [hgeneric] at h1
    exact hsame h1
  rcases hdata : writeData w1 data with ⟨_ | _, w2⟩
  · rw [hgeneric, hdata] at h2
    simp only [hdata]
    exact hsame h2
  rcases htype : writeMetaDataTypeSpecific w2 data with ⟨_ | _, w3⟩
  · rw [hgeneric, hdata, htype] at h3
    simp only [hdata, htype]
    exact hsame h3
  rw [hgeneric, hdata, htype] at h3
  obtain ⟨hframes3, hbytes3, hle3, hmax3⟩ := hsame h3
  simp only [hdata, htype, if_true]
  -- the check of the metadata space keeps both counters from wrapping
  have hspace :
      add32 w3.metadataBytesWritten metadataV1SizePerFrameBytes ≤ getMaxMetadataBytes := by
    have := @generic_true w data (by rw [hgeneric])
    rwa [hmax, ← h3.metadataBytesWritten] at this
  rw [hmax3] at hle3
  have hnowrap : add32 w3.metadataBytesWritten metadataV1SizePerFrameBytes =
      w3.metadataBytesWritten + metadataV1SizePerFrameBytes := by
    refine add32_of_lt (Nat.lt_of_le_of_lt (Nat.add_le_add_right hle3 _) (by decide))
  have hn : n + 1 < w32 := by
    have hbound : n ≤ getMaxMetadataBytes := by
      refine Nat.le_trans (Nat.le_trans ?_ (Nat.le_of_eq hbytes3.symm)) hle3
      simp only [versionSizeBytes, metadataV1SizePerFrameBytes]
      omega
    exact Nat.lt_of_le_of_lt (Nat.succ_le_succ hbound) (by decide)
  refine ⟨?_, ?_, ?_, hmax3⟩
  · show add32 w3.numFrames 1 = n + 1
    rw [hframes3, add32_of_lt hn]
  · show add32 w3.metadataBytesWritten metadataV1SizePerFrameBytes = _
    rw [hnowrap, hbytes3, Nat.mul_succ, Nat.add_assoc]
  · show add32 w3.metadataBytesWritten metadataV1SizePerFrameBytes ≤ w3.maxMetadataBytes
    rw [hmax3]
    exact hspace

theorem writeFrameV2_numFrames {pb : Protobuf} {w w' : MediaFrameWriterV2} {data : MediaSegment}
    {status : AddSegmentStatus} (h : Frames.writeFrame pb w data = (w', status)) :
    w'.numFrames = if status = .ok then w.numFrames + 1 else w.numFrames := by
  unfold Frames.writeFrame at h
  cases hmetadata : buildMetadata data with
  | none =>
    rw [hmetadata] at h
    cases h
    rfl
  | some metadata =>
    rw [hmetadata] at h
    dsimp only at h
    split_ifs at h
    · cases h
      rfl
    · cases h
      rfl
    · cases h
      rfl

/-- **A writer counts its successful writes.** -/
theorem writeFrame_counted (pb : Protobuf) {w : AnyWriter} {n : ℕ} (h : Counted w n)
    (data : MediaSegment) :
    Counted (w.writeFrame pb data).1 (if (w.writeFrame pb data).2 = .ok then n + 1 else n) := by
  cases w with
  | v1 w => exact writeFrameV1_counted h data
  | v2 w =>
    have hframes : w.numFrames = n := h
    show (Frames.writeFrame pb w data).1.numFrames =
      if (Frames.writeFrame pb w data).2 = .ok then n + 1 else n
    rw [← hframes]
    exact writeFrameV2_numFrames rfl

theorem getNumFrames_eq {w : AnyWriter} {n : ℕ} (h : Counted w n) : w.getNumFrames = n := by
  cases w with
  | v1 w => exact h.1
  | v2 w => exact h

end Rialto.Media.FrameWriter
