import Mathlib.Data.List.Induction
import Rialto.Media.WriterV1

/-! # Frames of metadata version 1

`DataReaderV1` overlays a struct on the metadata of each frame and points into the data. It reads
what the writer left in the two regions; bytes outside of them are not shared.

* `readMetadata`, `createSegmentV1`, `readDataV1`: the reader.
* `Laid`: the writer has put frames one behind the other; `laid_writeFrameV1`: an accepted call puts
  one more.
* `readDataV1_laid`: what the reader makes of them.
* `readsBack_of_stored`, `fits_of_readsBack`: frames are read back when their data is in the region,
  and only then. -/

namespace Rialto.Media.FramesV1

open Rialto.Lib.Endian Rialto.Lib.Memory Rialto.Lib.Word Rialto.Media.Segment Rialto.Media.Frames
  Rialto.Media.FrameWriter Rialto.Media.WriterV1

/-! ## The reader -/

/-- `DataReaderV1::MetadataV1`, without the section about encryption, which the reader skips. -/
structure MetadataV1 where
  offset : ℕ
  length : UInt32
  timePosition : Int64
  sampleDuration : Int64
  streamId : UInt32
  extraDataSize : ℕ
  extraData : List UInt8
  extra1 : UInt32
  extra2 : UInt32

/-- The read of an `int64_t` through a pointer on a little-endian machine. -/
def readInt64 (shm : Mem UInt8) (off : ℕ) : Int64 :=
  (UInt64.ofNat (leValue (readRange shm off 8))).toInt64

/-- The struct that `reinterpret_cast` finds at an address. -/
def metadataAt (shm : Mem UInt8) (pos : ℕ) : MetadataV1 where
  offset := readUint32 shm pos
  length := UInt32.ofNat (readUint32 shm (pos + 4))
  timePosition := readInt64 shm (pos + 8)
  sampleDuration := readInt64 shm (pos + 16)
  streamId := UInt32.ofNat (readUint32 shm (pos + 24))
  extraDataSize := readUint32 shm (pos + 28)
  extraData := readRange shm (pos + 32) maxExtraDataSize
  extra1 := UInt32.ofNat (readUint32 shm (pos + 96))
  extra2 := UInt32.ofNat (readUint32 shm (pos + 100))

/-- `readMetadata`. -/
def readMetadata (shm : Mem UInt8) (metadataOffset numFrames : ℕ) : List MetadataV1 :=
  (List.range numFrames).map fun frame =>
    metadataAt shm (metadataOffset + mul32 frame metadataV1SizePerFrameBytes)

/-- What the constructor of the segment type makes of the last two fields. -/
def segmentFields (type : MediaSourceType) (extra1 extra2 : UInt32) : SegmentClass :=
  match type with
  | .audio => .audio extra1.toInt32 extra2.toInt32
  | .video => .video extra1.toInt32 extra2.toInt32
  | .unknown => .plain

/-- `createSegment`. A size of the extra data beyond its array is read past the end of the array,
which is undefined (`none`). -/
def createSegmentV1 (shm : Mem UInt8) (type : MediaSourceType) (metadata : MetadataV1) :
    Option MediaSegment :=
  if maxExtraDataSize < metadata.extraDataSize then none
  else some { setData (MediaSegment.mk' 0 type
      (segmentFields type metadata.extra1 metadata.extra2) metadata.timePosition
        metadata.sampleDuration) shm metadata.offset metadata.length with
    extraData := metadata.extraData.take metadata.extraDataSize
    encrypted := false }

/-- `DataReaderV1::readData`; frames of an unknown type are passed over. -/
def readDataV1 (shm : Mem UInt8) (type : MediaSourceType) (metadataOffset numFrames : ℕ) :
    Option (List MediaSegment) :=
  if type = .unknown then some []
  else (readMetadata shm metadataOffset numFrames).mapM (createSegmentV1 shm type)

/-! ## One frame -/

/-- The metadata of a segment is at `pos`, and says that its data is at `off`. -/
structure FrameAt (shm : Mem UInt8) (pos off : ℕ) (data : MediaSegment) : Prop where
  generic : readRange shm pos 64 = (allGenericFields off data).flatten
  type : ∃ fields, typeFields data = some fields ∧ readRange shm (pos + 96) 8 = fields.flatten
  extraData : data.extraData.length ≤ maxExtraDataSize
  offset : off < w32

/-- What the reader makes of it. -/
def segmentAt (shm : Mem UInt8) (off : ℕ) (data : MediaSegment) : MediaSegment :=
  { setData (MediaSegment.mk' 0 data.type data.fields data.timeStamp data.duration) shm off
      (UInt32.ofNat data.data.length) with
    extraData := data.extraData
    encrypted := false }

section frame

variable {shm shm' : Mem UInt8} {pos off : ℕ} {data : MediaSegment}

theorem readUint32_of_read {n : ℕ} (h : readRange shm pos 4 = leBytes 4 n) (hn : n < w32) :
    readUint32 shm pos = n := by
  unfold readUint32
  rw [h, leValue_leBytes_of_lt hn]

theorem readInt64_of_read {n : Int64} (h : readRange shm pos 8 = leBytes 8 n.toUInt64.toNat) :
    readInt64 shm pos = n := by
  unfold readInt64
  rw [h, leValue_leBytes_of_lt n.toUInt64.toNat_lt, UInt64.ofNat_toNat]
  rfl

/-- The generic part of the struct. -/
theorem metadataAt_generic (h : FrameAt shm pos off data) :
    (metadataAt shm pos).offset = off ∧
    (metadataAt shm pos).length = UInt32.ofNat data.data.length ∧
    (metadataAt shm pos).timePosition = data.timeStamp ∧
    (metadataAt shm pos).sampleDuration = data.duration ∧
    (metadataAt shm pos).extraDataSize = data.extraData.length ∧
    (metadataAt shm pos).extraData.take data.extraData.length = data.extraData := by
  have hextra : data.extraData.length < w32 := Nat.lt_of_le_of_lt h.extraData (by decide)
  have hread := h.generic
  rw [← length_generic_of_le off h.extraData] at hread
  simp only [allGenericFields, genericFields, List.cons_append, List.nil_append, List.flatten_cons,
    List.flatten_nil, List.append_nil] at hread
  obtain ⟨h0, hread⟩ := readRange_of_append hread
  obtain ⟨h4, hread⟩ := readRange_of_append hread
  obtain ⟨h8, hread⟩ := readRange_of_append hread
  obtain ⟨h16, hread⟩ := readRange_of_append hread
  obtain ⟨h24, hread⟩ := readRange_of_append hread
  obtain ⟨h28, h32⟩ := readRange_of_append hread
  simp only [length_leBytes, Nat.add_assoc, Nat.reduceAdd, Nat.mod_eq_of_lt hextra]
    at h0 h4 h8 h16 h24 h28 h32
  have hlen : (data.extraData ++ List.replicate (extraDataFill data) (0 : UInt8)).length =
      maxExtraDataSize := by
    have := length_generic_of_le off h.extraData
    rw [length_allGenericFields] at this
    simp only [List.length_append, List.length_replicate, maxExtraDataSize]
    omega
  rw [hlen] at h32
  refine ⟨readUint32_of_read h0 h.offset, ?_, readInt64_of_read h8, readInt64_of_read h16,
    readUint32_of_read h28 hextra, ?_⟩
  · exact congrArg UInt32.ofNat (readUint32_of_read h4 data.dataLength_lt)
  · show (readRange shm (pos + 32) maxExtraDataSize).take _ = _
    rw [h32, List.take_left']
    rfl

theorem metadataAt_fields (h : FrameAt shm pos off data) :
    segmentFields data.type (metadataAt shm pos).extra1 (metadataAt shm pos).extra2 =
      data.fields := by
  have hread32 : ∀ {p : ℕ} {x : Int32}, readRange shm p 4 = leBytes 4 x.toUInt32.toNat →
      UInt32.ofNat (readUint32 shm p) = x.toUInt32 := fun {p x} hr => by
    rw [readUint32_of_read hr x.toUInt32.toNat_lt, UInt32.ofNat_toNat]
  have hsplit : ∀ {x y : Int32}, readRange shm (pos + 96) 8 =
      [leBytes 4 x.toUInt32.toNat, leBytes 4 y.toUInt32.toNat].flatten →
      (metadataAt shm pos).extra1 = x.toUInt32 ∧ (metadataAt shm pos).extra2 = y.toUInt32 :=
    fun {x y} hr => by
      simp only [List.flatten_cons, List.flatten_nil, List.append_nil] at hr
      have hboth : readRange shm (pos + 96)
          (leBytes 4 x.toUInt32.toNat ++ leBytes 4 y.toUInt32.toNat).length =
            leBytes 4 x.toUInt32.toNat ++ leBytes 4 y.toUInt32.toNat := by simpa using hr
      obtain ⟨hx, hy⟩ := readRange_of_append hboth
      simp only [length_leBytes] at hx hy
      exact ⟨hread32 hx, hread32 hy⟩
  obtain ⟨fields, hfields, hread⟩ := h.type
  unfold typeFields at hfields
  unfold segmentFields
  rcases htype : data.type with _ | _ | _ <;>
    rcases hdata : data.fields with _ | ⟨x, y⟩ | ⟨x, y⟩ <;>
    rw [htype, hdata] at hfields <;> cases hfields
  · obtain ⟨h1, h2⟩ := hsplit hread
    rw [h1, h2]
    rfl
  · obtain ⟨h1, h2⟩ := hsplit hread
    rw [h1, h2]
    rfl

/-- **One frame**, read back. -/
theorem createSegmentV1_of_frame (h : FrameAt shm pos off data) :
    createSegmentV1 shm data.type (metadataAt shm pos) = some (segmentAt shm off data) := by
  obtain ⟨hoff, hlen, htime, hdur, hsize, hextra⟩ := metadataAt_generic h
  unfold createSegmentV1 segmentAt
  rw [metadataAt_fields h, hoff, hlen, htime, hdur, hsize, hextra,
    if_neg (Nat.not_lt.mpr h.extraData)]

theorem FrameAt.congr (h : FrameAt shm pos off data)
    (hsame : ∀ a, pos ≤ a → a < pos + metadataV1SizePerFrameBytes → shm' a = shm a) :
    FrameAt shm' pos off data := by
  have hbytes : metadataV1SizePerFrameBytes = 104 := rfl
  obtain ⟨fields, hfields, hread⟩ := h.type
  refine ⟨?_, ⟨fields, hfields, ?_⟩, h.extraData, h.offset⟩
  · rw [← h.generic]
    exact readRange_congr fun a ha ha' => hsame a ha (by omega)
  · rw [← hread]
    exact readRange_congr fun a ha ha' => hsame a (by omega) (by omega)

end frame

/-! ## Frames one behind the other -/

/-- The bytes that the writer counts for the data of some segments, in 32 bits. -/
def bytesAfter (written : ℕ) (segs : List MediaSegment) : ℕ :=
  segs.foldl (fun n data => add32 n data.data.length) written

/-- The metadata of the segments is at `pos` and behind it. -/
def FramesAt (shm : Mem UInt8) (mediaOffset : ℕ) : ℕ → ℕ → List MediaSegment → Prop
  | _, _, [] => True
  | pos, written, data :: rest => FrameAt shm pos (mediaOffset + written) data ∧
    FramesAt shm mediaOffset (pos + metadataV1SizePerFrameBytes)
      (add32 written data.data.length) rest

/-- What the reader makes of them. -/
def segmentsAt (shm : Mem UInt8) (mediaOffset : ℕ) : ℕ → List MediaSegment → List MediaSegment
  | _, [] => []
  | written, data :: rest => segmentAt shm (mediaOffset + written) data ::
    segmentsAt shm mediaOffset (add32 written data.data.length) rest

section frames

variable {shm shm' : Mem UInt8} {mediaOffset : ℕ}

theorem framesAt_snoc (data : MediaSegment) : ∀ (segs : List MediaSegment) {pos written : ℕ},
    FramesAt shm mediaOffset pos written (segs ++ [data]) ↔
      FramesAt shm mediaOffset pos written segs ∧
      FrameAt shm (pos + metadataV1SizePerFrameBytes * segs.length)
        (mediaOffset + bytesAfter written segs) data
  | [], pos, written => by simp [FramesAt, bytesAfter]
  | d :: segs, pos, written => by
    have hpos : pos + metadataV1SizePerFrameBytes + metadataV1SizePerFrameBytes * segs.length =
        pos + metadataV1SizePerFrameBytes * (d :: segs).length := by
      rw [List.length_cons, Nat.mul_succ]
      omega
    rw [List.cons_append, FramesAt, FramesAt, framesAt_snoc data segs, hpos, and_assoc]
    rfl

theorem FramesAt.congr : ∀ {segs : List MediaSegment} {pos written : ℕ},
    FramesAt shm mediaOffset pos written segs →
    (∀ a, pos ≤ a → a < pos + metadataV1SizePerFrameBytes * segs.length → shm' a = shm a) →
    FramesAt shm' mediaOffset pos written segs
  | [], _, _, _, _ => trivial
  | d :: segs, pos, written, h, hsame => by
    rw [List.length_cons, Nat.mul_succ] at hsame
    exact ⟨h.1.congr fun a ha ha' => hsame a ha (by omega),
      h.2.congr fun a ha ha' => hsame a (by omega) (by omega)⟩

/-- **A run of frames**, read back. -/
theorem mapM_framesAt {type : MediaSourceType} : ∀ {segs : List MediaSegment} {pos written : ℕ},
    FramesAt shm mediaOffset pos written segs → (∀ s ∈ segs, s.type = type) →
    ((List.range segs.length).map fun k =>
        metadataAt shm (pos + metadataV1SizePerFrameBytes * k)).mapM (createSegmentV1 shm type) =
      some (segmentsAt shm mediaOffset written segs)
  | [], _, _, _, _ => rfl
  | d :: segs, pos, written, h, htype => by
    have hrest := mapM_framesAt h.2 fun s hs => htype s (List.mem_cons_of_mem _ hs)
    have hfirst := createSegmentV1_of_frame h.1
    rw [htype d (List.mem_cons_self ..)] at hfirst
    have hshift : ((List.range segs.length).map Nat.succ).map
        (fun k => metadataAt shm (pos + metadataV1SizePerFrameBytes * k)) =
        (List.range segs.length).map fun k => metadataAt shm
          (pos + metadataV1SizePerFrameBytes + metadataV1SizePerFrameBytes * k) := by
      rw [List.map_map]
      refine List.map_congr_left fun k _ => ?_
      rw [Function.comp_apply, Nat.mul_succ]
      congr 1
      omega
    rw [List.length_cons, List.range_succ_eq_map, List.map_cons, hshift, List.mapM_cons,
      Nat.mul_zero, Nat.add_zero, hfirst, hrest]
    rfl

theorem framesAt_fields : ∀ {segs : List MediaSegment} {pos written : ℕ},
    FramesAt shm mediaOffset pos written segs → ∀ s ∈ segs, typeFields s ≠ none
  | d :: segs, pos, written, h, s, hs => by
    rcases List.mem_cons.mp hs with rfl | hs
    · obtain ⟨fields, hfields, -⟩ := h.1.type
      rw [hfields]
      exact Option.some_ne_none _
    · exact framesAt_fields h.2 s hs

/-- What holds of all segments and what the reader makes of them holds of each. -/
theorem forall₂_segmentsAt {R : MediaSegment → MediaSegment → Prop} {data : MediaSegment}
    {post : List MediaSegment} : ∀ (pre : List MediaSegment) {written : ℕ},
    List.Forall₂ R (pre ++ data :: post)
      (segmentsAt shm mediaOffset written (pre ++ data :: post)) →
    R data (segmentAt shm (mediaOffset + bytesAfter written pre) data)
  | [], _, h => (List.forall₂_cons.mp h).1
  | _ :: pre, _, h => forall₂_segmentsAt pre (List.forall₂_cons.mp h).2

end frames

/-! ## What the writer has put into its regions -/

/-- A description of regions as the server makes them: the data behind the metadata, the end within
32 bits, room for the version, and metadata far from the end of 32 bits. -/
structure Placed (info : MediaPlayerShmInfo) : Prop where
  version_le : versionSizeBytes ≤ info.maxMetadataBytes
  metadata_le : info.metadataOffset + info.maxMetadataBytes ≤ info.mediaDataOffset
  media_lt : info.mediaDataOffset + info.maxMediaBytes < w32
  room : info.maxMetadataBytes + metadataV1SizePerFrameBytes < w32

theorem placed_needMediaData (r : Region) : Placed (needMediaData r) := by
  have h1 := r.metadata_lt
  have h2 := r.fits
  have hmedia : (needMediaData r).mediaDataOffset = r.dataOffset + getMaxMetadataBytes :=
    add32_of_lt (by omega)
  have hmax : (needMediaData r).maxMediaBytes = r.maxDataLen - getMaxMetadataBytes :=
    sub32_of_le (by omega) (by omega)
  have hoff : (needMediaData r).metadataOffset = r.dataOffset := rfl
  have hsize : (needMediaData r).maxMetadataBytes = getMaxMetadataBytes := rfl
  refine ⟨?_, ?_, ?_, ?_⟩
  · rw [hsize]
    decide
  · exact Nat.le_of_eq (by rw [hoff, hsize, hmedia])
  · rw [hmedia, hmax]
    omega
  · rw [hsize]
    decide

/-- The number of bytes of the data of some segments. -/
def total (segs : List MediaSegment) : ℕ := (segs.flatMap fun s => s.data).length

theorem total_snoc (segs : List MediaSegment) (data : MediaSegment) :
    total (segs ++ [data]) = total segs + data.data.length := by
  simp [total]

theorem bytesAfter_snoc (written : ℕ) (segs : List MediaSegment) (data : MediaSegment) :
    bytesAfter written (segs ++ [data]) = add32 (bytesAfter written segs) data.data.length := by
  simp [bytesAfter]

theorem bytesAfter_eq_total (segs : List MediaSegment) (h : total segs < w32) :
    bytesAfter 0 segs = total segs := by
  induction segs using List.reverseRecOn with
  | nil => rfl
  | append_singleton segs data ih =>
    rw [total_snoc] at h
    rw [bytesAfter_snoc, ih (by omega), total_snoc, add32_of_lt h]

/-- The writer has accepted the segments: their metadata is in the region, and the counters and
offsets have moved on for each of them. -/
structure Laid (info : MediaPlayerShmInfo) (w : MediaFrameWriterV1) (segs : List MediaSegment) :
    Prop where
  maxMetadataBytes : w.maxMetadataBytes = info.maxMetadataBytes
  maxMediaBytes : w.maxMediaBytes = info.maxMediaBytes
  numFrames : w.numFrames = segs.length
  metadataBytesWritten : w.metadataBytesWritten =
    versionSizeBytes + metadataV1SizePerFrameBytes * segs.length
  metadata_le : w.metadataBytesWritten ≤ info.maxMetadataBytes
  metadataOffset : w.metadataOffset = info.metadataOffset + w.metadataBytesWritten
  mediaBytesWritten : w.mediaBytesWritten = bytesAfter 0 segs
  mediaDataOffset : w.mediaDataOffset = info.mediaDataOffset + w.mediaBytesWritten
  media_le : ∀ pre post, segs = pre ++ post → bytesAfter 0 pre ≤ info.maxMediaBytes
  version : readRange w.shmBuffer info.metadataOffset versionSizeBytes = leBytes 4 1
  frames : FramesAt w.shmBuffer info.mediaDataOffset (info.metadataOffset + versionSizeBytes) 0 segs

/-- The data of the segments fits the media region, and is in it. -/
structure Stored (info : MediaPlayerShmInfo) (w : MediaFrameWriterV1) (segs : List MediaSegment) :
    Prop where
  bytes : w.mediaBytesWritten = total segs
  data : readRange w.shmBuffer info.mediaDataOffset (total segs) = segs.flatMap fun s => s.data

section writer

variable {info : MediaPlayerShmInfo} {w : MediaFrameWriterV1} {segs : List MediaSegment}
  {data : MediaSegment}

theorem laid_createWriterV1 (hp : Placed info) (shm : Mem UInt8) :
    Laid info (createWriterV1 shm info) [] ∧ Stored info (createWriterV1 shm info) [] := by
  have h1 := hp.version_le
  have h2 := hp.metadata_le
  have h3 := hp.media_lt
  refine ⟨⟨rfl, rfl, rfl, rfl, h1, ?_, rfl, rfl, ?_, ?_, trivial⟩, rfl, rfl⟩
  · exact add32_of_lt (by omega)
  · intro pre post h
    obtain ⟨rfl, -⟩ := List.append_eq_nil_iff.mp h.symm
    exact Nat.zero_le _
  · exact readRange_write_self _ _ (leBytes 4 1)

/-- Fields that do not reach the end of 32 bits are one copy. -/
theorem applyWrites_placed (shm : Mem UInt8) : ∀ (fields : List (List UInt8)) {off : ℕ},
    off + fields.flatten.length < w32 →
    applyWrites shm (placed off fields) = write shm off fields.flatten
  | [], off, _ => (write_nil shm off).symm
  | bytes :: rest, off, h => by
    rw [List.flatten_cons, List.length_append] at h
    have hnext : add32 off bytes.length = off + bytes.length := add32_of_lt (by omega)
    rw [placed, hnext, List.flatten_cons, ← write_append]
    exact applyWrites_placed (write shm off bytes) rest (by omega)

/-- The fields of a segment that the checks let pass. -/
structure Acceptable (w : MediaFrameWriterV1) (data : MediaSegment) (fields : List (List UInt8)) :
    Prop where
  metadata : HasMetadataSpace w
  media : HasMediaSpace w data
  fields : typeFields data = some fields
  extraData : data.extraData.length ≤ maxExtraDataSize

theorem Laid.metadata_room (hp : Placed info) (hl : Laid info w segs) (h : HasMetadataSpace w) :
    w.metadataBytesWritten + metadataV1SizePerFrameBytes ≤ info.maxMetadataBytes := by
  have hroom := hp.room
  have hle := hl.metadata_le
  unfold HasMetadataSpace at h
  rwa [add32_of_lt (by omega), hl.maxMetadataBytes] at h

/-- The writer after an accepted call, in sums that do not wrap. -/
theorem frameWritten_eq (hp : Placed info) (hl : Laid info w segs) {fields : List (List UInt8)}
    (ha : Acceptable w data fields) :
    frameWritten (dataWritten (genericWritten w data) data) fields =
      { w with
        shmBuffer := write (write (write w.shmBuffer w.metadataOffset
          (allGenericFields w.mediaDataOffset data).flatten) w.mediaDataOffset data.data)
          (w.metadataOffset + 96) fields.flatten
        metadataOffset := w.metadataOffset + metadataV1SizePerFrameBytes
        mediaDataOffset := add32 w.mediaDataOffset data.data.length
        mediaBytesWritten := add32 w.mediaBytesWritten data.data.length
        numFrames := add32 w.numFrames 1
        metadataBytesWritten := w.metadataBytesWritten + metadataV1SizePerFrameBytes } := by
  have hframe : metadataV1SizePerFrameBytes = 104 := rfl
  have hroom := hl.metadata_room hp ha.metadata
  have h1 := hp.metadata_le
  have h2 := hp.media_lt
  have h3 := hp.room
  have hoff := hl.metadataOffset
  have hlen := length_generic_of_le w.mediaDataOffset ha.extraData
  obtain ⟨a, b, rfl, hna, hnb⟩ := length_of_typeFields ha.fields
  have htype : typeOffset w data = w.metadataOffset + 96 := by
    rw [typeOffset_of_le (by omega) ha.extraData, Nat.mod_eq_of_lt (by omega)]
  have hflat : [a, b].flatten.length = 8 := by simp [hna, hnb]
  have hafter : offsetAfter (w.metadataOffset + 96) [a, b] =
      w.metadataOffset + metadataV1SizePerFrameBytes := by
    rw [offsetAfter_eq _ (by omega), hflat, Nat.mod_eq_of_lt (by omega), hframe]
  have hcount : add32 w.metadataBytesWritten metadataV1SizePerFrameBytes =
      w.metadataBytesWritten + metadataV1SizePerFrameBytes := add32_of_lt (by omega)
  rw [genericWritten_eq, htype, applyWrites_placed _ _ (by rw [hlen]; omega), frameWritten,
    foldl_put]
  simp only [dataWritten]
  rw [applyWrites_placed _ _ (by rw [hflat]; omega), hafter, hcount]

/-- **An accepted call** puts one more frame behind the others. -/
theorem laid_frameWritten (hp : Placed info) (hl : Laid info w segs) {fields : List (List UInt8)}
    (ha : Acceptable w data fields) :
    Laid info (frameWritten (dataWritten (genericWritten w data) data) fields)
      (segs ++ [data]) := by
  have hframe : metadataV1SizePerFrameBytes = 104 := rfl
  have hversion : versionSizeBytes = 4 := rfl
  have hroom := hl.metadata_room hp ha.metadata
  have h1 := hp.metadata_le
  have h2 := hp.media_lt
  have h3 := hp.room
  have hoff := hl.metadataOffset
  have hbytes := hl.metadataBytesWritten
  have hmdo := hl.mediaDataOffset
  have hlast := hl.media_le segs [] (List.append_nil segs).symm
  rw [← hl.mediaBytesWritten] at hlast
  have hlen := length_generic_of_le w.mediaDataOffset ha.extraData
  have hmedia : add32 w.mediaBytesWritten data.data.length ≤ info.maxMediaBytes :=
    hl.maxMediaBytes ▸ ha.media
  have hpos : info.metadataOffset + versionSizeBytes +
      metadataV1SizePerFrameBytes * segs.length = w.metadataOffset := by omega
  obtain ⟨a, b, rfl, hna, hnb⟩ := length_of_typeFields ha.fields
  have hflat : [a, b].flatten.length = 8 := by simp [hna, hnb]
  rw [frameWritten_eq hp hl ha]
  -- below the new frame nothing changes
  have hbelow : ∀ x, x < w.metadataOffset →
      write (write (write w.shmBuffer w.metadataOffset
        (allGenericFields w.mediaDataOffset data).flatten) w.mediaDataOffset data.data)
        (w.metadataOffset + 96) [a, b].flatten x = w.shmBuffer x := fun x hx => by
    rw [write_of_notMem (Or.inl (by omega)), write_of_notMem (Or.inl (by omega)),
      write_of_notMem (Or.inl hx)]
  refine ⟨hl.maxMetadataBytes, hl.maxMediaBytes, ?_, ?_, hroom, ?_, ?_, ?_, ?_, ?_, ?_⟩
  · show add32 w.numFrames 1 = _
    have hcount : segs.length ≤ metadataV1SizePerFrameBytes * segs.length :=
      Nat.le_mul_of_pos_left _ (by decide)
    rw [hl.numFrames, add32_of_lt (by omega), List.length_append, List.length_singleton]
  · show w.metadataBytesWritten + metadataV1SizePerFrameBytes = _
    rw [hbytes, List.length_append, List.length_singleton, Nat.mul_succ]
    omega
  · show w.metadataOffset + metadataV1SizePerFrameBytes =
      info.metadataOffset + (w.metadataBytesWritten + metadataV1SizePerFrameBytes)
    omega
  · show add32 w.mediaBytesWritten data.data.length = _
    rw [bytesAfter_snoc, hl.mediaBytesWritten]
  · show add32 w.mediaDataOffset data.data.length =
      info.mediaDataOffset + add32 w.mediaBytesWritten data.data.length
    rw [hmdo]
    unfold add32 at hmedia ⊢
    simp only [w32] at hmedia h2 ⊢
    omega
  · intro pre post heq
    rcases List.eq_nil_or_concat post with rfl | ⟨post', d, rfl⟩
    · rw [List.append_nil] at heq
      rw [← heq, bytesAfter_snoc, ← hl.mediaBytesWritten]
      exact hmedia
    · rw [List.concat_eq_append, ← List.append_assoc] at heq
      exact hl.media_le pre post' (List.append_inj' heq rfl).1
  · rw [← hl.version]
    exact readRange_congr fun x _ hx => hbelow x (by omega)
  · refine (framesAt_snoc data segs).mpr ⟨hl.frames.congr fun x _ hx => hbelow x (by omega), ?_⟩
    rw [hpos, ← hl.mediaBytesWritten, ← hmdo]
    refine ⟨?_, ⟨[a, b], ha.fields, ?_⟩, ha.extraData, by omega⟩
    · dsimp only
      rw [readRange_write_of_disjoint _ (Or.inl (by omega)),
        readRange_write_of_disjoint _ (Or.inl (by omega)), ← hlen]
      exact readRange_write_self _ _ _
    · rw [← hflat]
      exact readRange_write_self _ _ _

/-- Data that fits the media region without wrapping is stored behind the rest. -/
theorem stored_frameWritten (hp : Placed info) (hl : Laid info w segs) (hs : Stored info w segs)
    {fields : List (List UInt8)} (ha : Acceptable w data fields)
    (hfits : w.mediaBytesWritten + data.data.length ≤ info.maxMediaBytes) :
    Stored info (frameWritten (dataWritten (genericWritten w data) data) fields)
      (segs ++ [data]) := by
  have hframe : metadataV1SizePerFrameBytes = 104 := rfl
  have hroom := hl.metadata_room hp ha.metadata
  have h1 := hp.metadata_le
  have h2 := hp.media_lt
  have hoff := hl.metadataOffset
  have hmdo := hl.mediaDataOffset
  have hlen := length_generic_of_le w.mediaDataOffset ha.extraData
  obtain ⟨a, b, rfl, hna, hnb⟩ := length_of_typeFields ha.fields
  have hflat : [a, b].flatten.length = 8 := by simp [hna, hnb]
  rw [frameWritten_eq hp hl ha]
  constructor
  · show add32 w.mediaBytesWritten data.data.length = _
    rw [total_snoc, ← hs.bytes, add32_of_lt (by omega)]
  · have hread : readRange (write w.shmBuffer w.metadataOffset
        (allGenericFields w.mediaDataOffset data).flatten) info.mediaDataOffset
        (segs.flatMap fun s => s.data).length = segs.flatMap fun s => s.data := by
      rw [readRange_write_of_disjoint _ (Or.inr (by omega))]
      exact hs.data
    have happ := readRange_write_append data.data hread
    have hbehind : info.mediaDataOffset + (segs.flatMap fun s => s.data).length =
        w.mediaDataOffset := by
      rw [hmdo, hs.bytes]
      rfl
    have hflatMap : (segs ++ [data]).flatMap (fun s => s.data) =
        (segs.flatMap fun s => s.data) ++ data.data := by simp
    rw [hbehind] at happ
    dsimp only
    rw [readRange_write_of_disjoint _ (Or.inr (by omega)), total, hflatMap]
    exact happ

end writer

/-! ## Reading the regions -/

/-- The memory of the reader: it shares the two regions with the writer, and no other bytes. -/
def SameRegions (info : MediaPlayerShmInfo) (shm shm' : Mem UInt8) : Prop :=
  ∀ a, info.metadataOffset ≤ a ∧ a < info.metadataOffset + info.maxMetadataBytes ∨
    info.mediaDataOffset ≤ a ∧ a < info.mediaDataOffset + info.maxMediaBytes → shm' a = shm a

/-- The factory makes a reader of version 1 for the region, and with the frame count of the writer
it returns segments that stand in the relation `R` to the given ones, in order. -/
def ReadsBack (R : MediaSegment → MediaSegment → Prop) (info : MediaPlayerShmInfo)
    (type : MediaSourceType) (w : MediaFrameWriterV1) (segs : List MediaSegment) : Prop :=
  ∀ shm, SameRegions info w.shmBuffer shm → ∃ off,
    createDataReader type shm info.metadataOffset w.numFrames = some (.v1 type off w.numFrames) ∧
    ∃ out, readDataV1 shm type off w.numFrames = some out ∧ List.Forall₂ R segs out

/-- The two segments agree in what the frame format is for. -/
structure SameFrame (a b : MediaSegment) : Prop where
  type : b.type = a.type
  fields : b.fields = a.fields
  data : b.data = a.data
  timeStamp : b.timeStamp = a.timeStamp
  duration : b.duration = a.duration
  extraData : b.extraData = a.extraData

/-- They agree in the id of the source as well, and in being encrypted or not. -/
structure SameSourceFrame (a b : MediaSegment) : Prop extends SameFrame a b where
  sourceId : b.sourceId = a.sourceId
  encrypted : b.encrypted = a.encrypted

/-- What the reader makes of a segment, beyond the format of the frame. -/
structure ReadFrame (a b : MediaSegment) : Prop extends SameFrame a b where
  sourceId : b.sourceId = 0
  encrypted : b.encrypted = false

section reader

variable {info : MediaPlayerShmInfo} {w : MediaFrameWriterV1} {segs : List MediaSegment}
  {data : MediaSegment} {type : MediaSourceType} {shm : Mem UInt8}

/-- **Reading the frames of a writer.** -/
theorem readDataV1_laid (hp : Placed info) (hl : Laid info w segs)
    (htype : ∀ s ∈ segs, s.type = type) (hsame : SameRegions info w.shmBuffer shm) :
    createDataReader type shm info.metadataOffset w.numFrames =
      some (.v1 type (info.metadataOffset + versionSizeBytes) w.numFrames) ∧
    readDataV1 shm type (info.metadataOffset + versionSizeBytes) w.numFrames =
      some (segmentsAt shm info.mediaDataOffset 0 segs) := by
  have hframe : metadataV1SizePerFrameBytes = 104 := rfl
  have hfour : versionSizeBytes = 4 := rfl
  have h1 := hp.metadata_le
  have h2 := hp.media_lt
  have hle := hl.metadata_le
  have hbytes := hl.metadataBytesWritten
  constructor
  · have hread : readRange shm info.metadataOffset versionSizeBytes = leBytes 4 1 := by
      rw [← hl.version]
      exact readRange_congr fun a ha ha' => hsame a (Or.inl ⟨ha, by omega⟩)
    unfold createDataReader
    rw [readUint32_of_read hread (by decide)]
    simp only [if_true]
    rw [add32_of_lt (by omega)]
  · have hframes : FramesAt shm info.mediaDataOffset (info.metadataOffset + versionSizeBytes) 0
        segs := hl.frames.congr fun a ha ha' => hsame a (Or.inl ⟨by omega, by omega⟩)
    rw [hl.numFrames]
    unfold readDataV1
    by_cases hunknown : type = .unknown
    · -- no segment of the unknown type is accepted
      cases segs with
      | nil => rw [if_pos hunknown]; rfl
      | cons s segs =>
        have hfields := framesAt_fields hframes s (List.mem_cons_self ..)
        have hs := htype s (List.mem_cons_self ..)
        rw [hunknown] at hs
        simp [typeFields, hs] at hfields
    · have hmul : readMetadata shm (info.metadataOffset + versionSizeBytes) segs.length =
          (List.range segs.length).map fun k => metadataAt shm
            (info.metadataOffset + versionSizeBytes + metadataV1SizePerFrameBytes * k) := by
        refine List.map_congr_left fun k hk => ?_
        have hk := Nat.mul_le_mul_left metadataV1SizePerFrameBytes
          (Nat.le_of_lt (List.mem_range.mp hk))
        rw [mul32_of_lt (by rw [Nat.mul_comm]; omega), Nat.mul_comm]
      rw [if_neg hunknown, hmul]
      exact mapM_framesAt hframes htype

/-- Data that is in the region piece by piece is what the segments point to. -/
theorem forall₂_stored {mediaOffset : ℕ} : ∀ {segs : List MediaSegment} {written : ℕ},
    written + total segs < w32 →
    readRange shm (mediaOffset + written) (total segs) = segs.flatMap (fun s => s.data) →
    List.Forall₂ ReadFrame segs (segmentsAt shm mediaOffset written segs)
  | [], _, _, _ => List.Forall₂.nil
  | d :: segs, written, hlt, hread => by
    have htotal : total (d :: segs) = d.data.length + total segs := by simp [total]
    rw [htotal] at hlt hread
    have hnext : add32 written d.data.length = written + d.data.length := add32_of_lt (by omega)
    rw [List.flatMap_cons, readRange_append] at hread
    obtain ⟨hdata, hrest⟩ := List.append_inj hread (length_readRange _ _ _)
    rw [segmentsAt, hnext]
    rw [Nat.add_assoc] at hrest
    refine List.Forall₂.cons ⟨⟨rfl, rfl, ?_, rfl, rfl, rfl⟩, rfl, rfl⟩
      (forall₂_stored (by omega) hrest)
    show readRange shm (mediaOffset + written) (UInt32.ofNat d.data.length).toNat = d.data
    rw [UInt32.toNat_ofNat_of_lt' d.dataLength_lt]
    exact hdata

/-- **Stored frames are read back.** -/
theorem forall₂_of_stored (hp : Placed info) (hl : Laid info w segs) (hs : Stored info w segs)
    (hsame : SameRegions info w.shmBuffer shm) :
    List.Forall₂ ReadFrame segs (segmentsAt shm info.mediaDataOffset 0 segs) := by
  have h2 := hp.media_lt
  have hlast := hl.media_le segs [] (List.append_nil segs).symm
  rw [← hl.mediaBytesWritten, hs.bytes] at hlast
  refine forall₂_stored (by omega) ?_
  rw [Nat.add_zero, ← hs.data]
  exact readRange_congr fun a ha ha' => hsame a (Or.inr ⟨ha, by omega⟩)

/-- Everything that the reader returns is of its type and has at most 32 bytes of extra data. -/
theorem readDataV1_mem {off n : ℕ} {out : List MediaSegment}
    (h : readDataV1 shm type off n = some out) :
    ∀ b ∈ out, b.type = type ∧ b.extraData.length ≤ maxExtraDataSize ∧ b.sourceId = 0 := by
  have hmapM : ∀ (metadatas : List MetadataV1) (out : List MediaSegment),
      metadatas.mapM (createSegmentV1 shm type) = some out → ∀ b ∈ out,
        b.type = type ∧ b.extraData.length ≤ maxExtraDataSize ∧ b.sourceId = 0 := by
    intro metadatas
    induction metadatas with
    | nil =>
      intro out hout b hb
      cases hout
      cases hb
    | cons metadata rest ih =>
      intro out hout b hb
      rw [List.mapM_cons] at hout
      obtain ⟨first, hfirst, hout⟩ := Option.bind_eq_some_iff.mp hout
      obtain ⟨others, hothers, hout⟩ := Option.bind_eq_some_iff.mp hout
      cases hout
      rcases List.mem_cons.mp hb with rfl | hb
      · unfold createSegmentV1 at hfirst
        split_ifs at hfirst with hsize
        cases hfirst
        refine ⟨rfl, ?_, rfl⟩
        show (metadata.extraData.take metadata.extraDataSize).length ≤ _
        rw [List.length_take]
        omega
      · exact ih others hothers b hb
  unfold readDataV1 at h
  split_ifs at h with hunknown
  · cases h
    exact fun b hb => by cases hb
  · exact hmapM _ out h

theorem exists_of_forall₂ {R : MediaSegment → MediaSegment → Prop} {a : MediaSegment} :
    ∀ {as bs : List MediaSegment}, List.Forall₂ R as bs → a ∈ as → ∃ b ∈ bs, R a b
  | _, _, .cons hab hrest, ha => by
    rcases List.mem_cons.mp ha with rfl | ha
    · exact ⟨_, List.mem_cons_self .., hab⟩
    · obtain ⟨b, hb, hr⟩ := exists_of_forall₂ hrest ha
      exact ⟨b, List.mem_cons_of_mem _ hb, hr⟩

theorem forall₂_imp_mem {R S : MediaSegment → MediaSegment → Prop} :
    ∀ {as bs : List MediaSegment}, List.Forall₂ R as bs → (∀ a ∈ as, ∀ b, R a b → S a b) →
    List.Forall₂ S as bs
  | _, _, .nil, _ => .nil
  | _, _, .cons hab hrest, h => .cons (h _ (List.mem_cons_self ..) _ hab)
    (forall₂_imp_mem hrest fun a ha => h a (List.mem_cons_of_mem _ ha))

theorem sameRegions_refl (info : MediaPlayerShmInfo) (shm : Mem UInt8) :
    SameRegions info shm shm := fun _ _ => rfl

/-- A segment that is read back is of the type of the reader and has at most 32 bytes of extra
data; the source id that comes back is 0. -/
theorem readsBack_mem {R : MediaSegment → MediaSegment → Prop}
    (h : ReadsBack R info type w segs) (hmem : data ∈ segs) :
    ∃ b, R data b ∧ b.type = type ∧ b.extraData.length ≤ maxExtraDataSize ∧ b.sourceId = 0 := by
  obtain ⟨off, -, out, hout, hall⟩ := h _ (sameRegions_refl info w.shmBuffer)
  obtain ⟨b, hb, hr⟩ := exists_of_forall₂ hall hmem
  exact ⟨b, hr, readDataV1_mem hout b hb⟩

/-- **Data that wraps is not read back**: it lies outside of the region. -/
theorem fits_of_readsBack (hp : Placed info) (hl : Laid info w segs)
    (htype : ∀ s ∈ segs, s.type = type) {R : MediaSegment → MediaSegment → Prop}
    (hR : ∀ a b, R a b → b.data = a.data) (h : ReadsBack R info type w segs) :
    total segs ≤ info.maxMediaBytes := by
  have h1 := hp.metadata_le
  have h2 := hp.media_lt
  -- the bytes of every segment, read through a memory that shares the regions
  have hread : ∀ pre d post, segs = pre ++ d :: post → ∀ shm, SameRegions info w.shmBuffer shm →
      readRange shm (info.mediaDataOffset + bytesAfter 0 pre) d.data.length = d.data := by
    rintro pre d post rfl shm hsame
    obtain ⟨off, hreader, out, hout, hall⟩ := h shm hsame
    obtain ⟨hreader', hout'⟩ := readDataV1_laid hp hl htype hsame
    rw [hreader'] at hreader
    cases hreader
    rw [hout'] at hout
    cases hout
    have hd := hR _ _ (forall₂_segmentsAt pre hall)
    change readRange shm _ (UInt32.ofNat d.data.length).toNat = d.data at hd
    rwa [UInt32.toNat_ofNat_of_lt' d.dataLength_lt] at hd
  suffices hprefix : ∀ (pre post : List MediaSegment), segs = pre ++ post →
      total pre ≤ info.maxMediaBytes from hprefix segs [] (List.append_nil segs).symm
  intro pre
  induction pre using List.reverseRecOn with
  | nil => exact fun _ _ => Nat.zero_le _
  | append_singleton pre d ih =>
    intro post heq
    have heq' : segs = pre ++ d :: post := by rw [heq, List.append_assoc, List.singleton_append]
    have hpre := ih (d :: post) heq'
    have hbytes : bytesAfter 0 pre = total pre := bytesAfter_eq_total pre (by omega)
    have hcounter := hl.media_le (pre ++ [d]) post heq
    rw [bytesAfter_snoc, hbytes] at hcounter
    rw [total_snoc]
    by_contra hover
    -- the sum has wrapped, so the last byte of the data is behind every region
    have hwrap : w32 ≤ total pre + d.data.length := by
      by_contra hlt
      rw [add32_of_lt (by omega)] at hcounter
      exact hover hcounter
    have hlen := d.dataLength_lt
    have hread0 := hread pre d post heq' _ (sameRegions_refl info w.shmBuffer)
    have hread1 := hread pre d post heq' (Function.update w.shmBuffer
      (info.mediaDataOffset + total pre + (d.data.length - 1)) (w.shmBuffer
        (info.mediaDataOffset + total pre + (d.data.length - 1)) + 1)) (fun a ha =>
          Function.update_of_ne (by omega) _ _)
    rw [hbytes] at hread0 hread1
    have hlast : d.data.length - 1 < d.data.length := by omega
    have hbyte := congrArg (fun bytes => bytes[d.data.length - 1]?) (hread1.trans hread0.symm)
    simp only [getElem?_readRange _ _ hlast, Function.update_self, Option.some.injEq] at hbyte
    exact absurd hbyte (by simp)

/-- **Stored frames are read back**, each as the reader makes it. -/
theorem readsBack_of_stored (hp : Placed info) (hl : Laid info w segs) (hs : Stored info w segs)
    (htype : ∀ s ∈ segs, s.type = type) {R : MediaSegment → MediaSegment → Prop}
    (hR : ∀ a ∈ segs, ∀ b, ReadFrame a b → R a b) : ReadsBack R info type w segs := by
  intro shm hsame
  obtain ⟨hreader, hout⟩ := readDataV1_laid hp hl htype hsame
  exact ⟨_, hreader, _, hout, forall₂_imp_mem (forall₂_of_stored hp hl hs hsame) hR⟩

end reader

end Rialto.Media.FramesV1
