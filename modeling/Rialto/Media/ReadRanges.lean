import Rialto.Media.FramesV1
import Rialto.Media.FramesV2

/-! # Where the readers read

The readers of both versions take every size, offset and count from the shared memory, or from the
message of the client, and follow them without a look at the region of the source. The lists of
ranges below record what a reader touches and which ranges its segments point to.

* `frameReads`, `frameData`: the loop of version 2; `frameReads_congr`, `readFrames_eq`: nothing but
  these ranges decides what it returns.
* `metadataReads`, `dataRanges`: the reader of version 1.
* `staysInside_iff`: the contents for which a reader stays in its region.
* `staysInside_written`: what the writer of version 2 has written is read inside the region. -/

namespace Rialto.Media.ReadRanges

open Rialto.Lib.Endian Rialto.Lib.Memory Rialto.Lib.Word Rialto.Media.Segment Rialto.Media.Frames
  Rialto.Media.FrameWriter Rialto.Media.FramesV1 Rialto.Media.FramesV2

/-- The bytes of a range, an offset and a length, are in the region. -/
def Within (r : Region) (range : ℕ × ℕ) : Prop :=
  ∀ a, range.1 ≤ a → a < range.1 + range.2 → r.dataOffset ≤ a ∧ a < r.dataOffset + r.maxDataLen

theorem within_iff {r : Region} {off len : ℕ} : Within r (off, len) ↔
    len = 0 ∨ r.dataOffset ≤ off ∧ off + len ≤ r.dataOffset + r.maxDataLen := by
  constructor
  · intro h
    by_cases h0 : len = 0
    · exact Or.inl h0
    · have hfirst := h off (Nat.le_refl _) (by dsimp only; omega)
      have hlast := h (off + len - 1) (by dsimp only; omega) (by dsimp only; omega)
      exact Or.inr ⟨hfirst.1, by omega⟩
  · rintro (h | ⟨h1, h2⟩) a ha ha'
    · dsimp only at ha ha'
      omega
    · dsimp only at ha ha'
      omega

/-! ## Version 2 -/

/-- Where the data of the frame at a position begins. -/
def dataAt (shm : Mem UInt8) (pos : ℕ) : ℕ := pos + 4 + readUint32 shm pos

/-- The metadata of the frame at a position, if it is parsed and a segment is made of it. -/
def parsedAt (pb : Protobuf) (shm : Mem UInt8) (type : MediaSourceType) (pos : ℕ) :
    Option MediaSegmentMetadata :=
  (pb.parseFromArray (readRange shm (pos + 4) (readUint32 shm pos))).filter
    fun metadata => (createSegment metadata type).isSome

/-- The ranges that the loop reads from the given position on: the size of the metadata of each
frame, and what is given to the parser. -/
def frameReads (pb : Protobuf) (shm : Mem UInt8) (type : MediaSourceType) : ℕ → ℕ → List (ℕ × ℕ)
  | _, 0 => []
  | pos, numFrames + 1 => (pos, 4) :: (pos + 4, readUint32 shm pos) ::
    match parsedAt pb shm type pos with
    | none => []
    | some metadata => frameReads pb shm type (dataAt shm pos + metadata.length.toNat) numFrames

/-- The ranges of the data of the segments that the loop returns; `none` is the early return of an
empty list. -/
def frameData (pb : Protobuf) (shm : Mem UInt8) (type : MediaSourceType) :
    ℕ → ℕ → Option (List (ℕ × ℕ))
  | _, 0 => some []
  | pos, numFrames + 1 => do
    let metadata ← parsedAt pb shm type pos
    let rest ← frameData pb shm type (dataAt shm pos + metadata.length.toNat) numFrames
    pure ((dataAt shm pos, metadata.length.toNat) :: rest)

/-- The frames from a position on fit into a region that ends at `hi`: the size and the metadata of
every frame that the loop reaches, and the data of every frame that it makes a segment of. -/
def FramesFit (pb : Protobuf) (shm : Mem UInt8) (type : MediaSourceType) (hi : ℕ) : ℕ → ℕ → Prop
  | _, 0 => True
  | pos, numFrames + 1 => dataAt shm pos ≤ hi ∧
      ∀ metadata, parsedAt pb shm type pos = some metadata →
        dataAt shm pos + metadata.length.toNat ≤ hi ∧
        FramesFit pb shm type hi (dataAt shm pos + metadata.length.toNat) numFrames

section v2

variable {pb : Protobuf} {shm shm' : Mem UInt8} {type : MediaSourceType} {r : Region}

theorem readFrames_of_none {pos : ℕ} (h : parsedAt pb shm type pos = none) (numFrames : ℕ) :
    readFrames pb shm type pos (numFrames + 1) = none := by
  unfold parsedAt at h
  rcases hparse : pb.parseFromArray (readRange shm (pos + 4) (readUint32 shm pos)) with
    _ | metadata
  · simp [readFrames, hparse]
  · rw [hparse] at h
    have hseg : createSegment metadata type = none := by simpa using h
    simp [readFrames, hparse, hseg]

theorem readFrames_of_some {pos : ℕ} {metadata : MediaSegmentMetadata}
    (h : parsedAt pb shm type pos = some metadata) (numFrames : ℕ) : ∃ segment,
    createSegment metadata type = some segment ∧
    readFrames pb shm type pos (numFrames + 1) =
      (readFrames pb shm type (dataAt shm pos + metadata.length.toNat) numFrames).map fun rest =>
        setData segment shm (dataAt shm pos) metadata.length :: rest := by
  obtain ⟨hparse, hsome⟩ := Option.filter_eq_some_iff.mp h
  obtain ⟨segment, hseg⟩ := Option.isSome_iff_exists.mp hsome
  refine ⟨segment, hseg, ?_⟩
  rcases hrest : readFrames pb shm type (dataAt shm pos + metadata.length.toNat) numFrames with
    _ | rest
  · unfold dataAt at hrest
    simp [readFrames, hparse, hseg, hrest]
  · unfold dataAt at hrest
    simp [readFrames, hparse, hseg, hrest, dataAt]

/-- The segments that the loop returns point to the ranges of `frameData`. -/
theorem readFrames_eq : ∀ (numFrames pos : ℕ),
    (readFrames pb shm type pos numFrames).map (fun segments => segments.map fun s => s.data) =
      (frameData pb shm type pos numFrames).map
        fun ranges => ranges.map fun range => readRange shm range.1 range.2
  | 0, pos => rfl
  | numFrames + 1, pos => by
    rcases hparsed : parsedAt pb shm type pos with _ | metadata
    · rw [readFrames_of_none hparsed]
      simp [frameData, hparsed]
    · obtain ⟨segment, -, hread⟩ := readFrames_of_some hparsed numFrames
      have ih := readFrames_eq numFrames (dataAt shm pos + metadata.length.toNat)
      rw [hread]
      rcases hrest : readFrames pb shm type (dataAt shm pos + metadata.length.toNat) numFrames with
        _ | segments <;>
        rcases hdata : frameData pb shm type (dataAt shm pos + metadata.length.toNat) numFrames
          with _ | ranges <;> rw [hrest, hdata] at ih
      · simp [frameData, hparsed, hdata]
      · cases ih
      · cases ih
      · have heq : segments.map (fun s => s.data) =
            ranges.map fun range => readRange shm range.1 range.2 := Option.some.inj ih
        simp [frameData, hparsed, hdata, heq, setData]

/-- **The loop looks at nothing else**: it takes the same way in every memory that agrees on the
ranges that it reads. -/
theorem frameReads_congr : ∀ (numFrames pos : ℕ),
    (∀ range ∈ frameReads pb shm type pos numFrames, ∀ a, range.1 ≤ a → a < range.1 + range.2 →
      shm' a = shm a) →
    frameReads pb shm' type pos numFrames = frameReads pb shm type pos numFrames ∧
      frameData pb shm' type pos numFrames = frameData pb shm type pos numFrames
  | 0, pos, _ => ⟨rfl, rfl⟩
  | numFrames + 1, pos, h => by
    simp only [frameReads, List.forall_mem_cons] at h
    obtain ⟨hsizeBytes, hmetadataBytes, hrest⟩ := h
    have hsize : readUint32 shm' pos = readUint32 shm pos :=
      congrArg leValue (readRange_congr hsizeBytes)
    have hparsed : parsedAt pb shm' type pos = parsedAt pb shm type pos := by
      unfold parsedAt
      rw [hsize, readRange_congr hmetadataBytes]
    have hdata : dataAt shm' pos = dataAt shm pos := by
      unfold dataAt
      rw [hsize]
    rcases hm : parsedAt pb shm type pos with _ | metadata
    · simp [frameReads, frameData, hsize, hparsed, hm]
    · rw [hm] at hrest
      obtain ⟨ihReads, ihData⟩ := frameReads_congr numFrames _ hrest
      simp [frameReads, frameData, hsize, hparsed, hm, hdata, ihReads, ihData]

theorem frameData_of_some {pos : ℕ} {metadata : MediaSegmentMetadata}
    (h : parsedAt pb shm type pos = some metadata) (numFrames : ℕ) :
    frameData pb shm type pos (numFrames + 1) =
      (frameData pb shm type (dataAt shm pos + metadata.length.toNat) numFrames).map fun rest =>
        (dataAt shm pos, metadata.length.toNat) :: rest := by
  simp only [frameData, h, Option.bind_eq_bind, Option.bind_some]
  rcases frameData pb shm type (dataAt shm pos + metadata.length.toNat) numFrames with _ | rest
  · rfl
  · rfl

/-- Data that goes on behind the region is seen: by the read of the next frame, or in the last
segment. -/
theorem data_end_le {pos : ℕ} {metadata : MediaSegmentMetadata}
    (h : parsedAt pb shm type pos = some metadata)
    (hdata : dataAt shm pos ≤ r.dataOffset + r.maxDataLen) :
    ∀ numFrames, (∀ range ∈ frameReads pb shm type (dataAt shm pos + metadata.length.toNat)
        numFrames, Within r range) →
      (∀ range ∈ (frameData pb shm type pos (numFrames + 1)).getD [], Within r range) →
      dataAt shm pos + metadata.length.toNat ≤ r.dataOffset + r.maxDataLen
  | 0, _, hranges => by
    have hlast : Within r (dataAt shm pos, metadata.length.toNat) := by
      refine hranges _ ?_
      simp [frameData, h]
    rw [within_iff] at hlast
    omega
  | numFrames + 1, hreads, _ => by
    have hnext : Within r (dataAt shm pos + metadata.length.toNat, 4) :=
      hreads _ (List.mem_cons_self ..)
    rw [within_iff] at hnext
    omega

/-- **The loop of version 2** reads and returns ranges of the region when the frames fit, and only
then. -/
theorem frames_within_iff : ∀ (numFrames pos : ℕ), r.dataOffset ≤ pos →
    pos ≤ r.dataOffset + r.maxDataLen →
    (((∀ range ∈ frameReads pb shm type pos numFrames, Within r range) ∧
      ∀ range ∈ (frameData pb shm type pos numFrames).getD [], Within r range) ↔
    FramesFit pb shm type (r.dataOffset + r.maxDataLen) pos numFrames)
  | 0, pos, _, _ => by simp [frameReads, frameData, FramesFit]
  | numFrames + 1, pos, hlo, hhi => by
    have hdataAt : dataAt shm pos = pos + 4 + readUint32 shm pos := rfl
    have hreads : (Within r (pos, 4) ∧ Within r (pos + 4, readUint32 shm pos)) ↔
        dataAt shm pos ≤ r.dataOffset + r.maxDataLen := by
      rw [within_iff, within_iff]
      omega
    rcases hm : parsedAt pb shm type pos with _ | metadata
    · simp only [frameReads, hm, frameData, FramesFit, List.forall_mem_cons, List.not_mem_nil,
        false_implies, implies_true, and_true, Option.bind_eq_bind, Option.bind_none,
        Option.getD_none, hreads, reduceCtorEq]
    · have ih := frames_within_iff numFrames (dataAt shm pos + metadata.length.toNat)
      have hfit : FramesFit pb shm type (r.dataOffset + r.maxDataLen) pos (numFrames + 1) ↔
          dataAt shm pos ≤ r.dataOffset + r.maxDataLen ∧
          dataAt shm pos + metadata.length.toNat ≤ r.dataOffset + r.maxDataLen ∧
          FramesFit pb shm type (r.dataOffset + r.maxDataLen)
            (dataAt shm pos + metadata.length.toNat) numFrames := by
        simp [FramesFit, hm]
      have hcons : (∀ range ∈ frameReads pb shm type pos (numFrames + 1), Within r range) ↔
          dataAt shm pos ≤ r.dataOffset + r.maxDataLen ∧
          ∀ range ∈ frameReads pb shm type (dataAt shm pos + metadata.length.toNat) numFrames,
            Within r range := by
        simp only [frameReads, hm, List.forall_mem_cons]
        rw [← and_assoc, hreads]
      rw [hfit, hcons]
      constructor
      · rintro ⟨⟨hdata, hrest⟩, hranges⟩
        have hend := data_end_le hm hdata numFrames hrest hranges
        refine ⟨hdata, hend, (ih (by omega) hend).mp ⟨hrest, fun range hrange => ?_⟩⟩
        rw [frameData_of_some hm] at hranges
        rcases hd : frameData pb shm type (dataAt shm pos + metadata.length.toNat) numFrames with
          _ | ranges
        · rw [hd] at hrange
          exact absurd hrange List.not_mem_nil
        · rw [hd] at hrange hranges
          exact hranges range (List.mem_cons_of_mem _ hrange)
      · rintro ⟨hdata, hend, hframes⟩
        obtain ⟨hrest, hranges⟩ := (ih (by omega) hend).mpr hframes
        refine ⟨⟨hdata, hrest⟩, fun range hrange => ?_⟩
        rw [frameData_of_some hm] at hrange
        rcases hd : frameData pb shm type (dataAt shm pos + metadata.length.toNat) numFrames with
          _ | ranges
        · rw [hd] at hrange
          exact absurd hrange List.not_mem_nil
        · rw [hd] at hrange hranges
          rcases List.mem_cons.mp hrange with rfl | hrange
          · rw [within_iff]
            omega
          · exact hranges range hrange

end v2

/-! ## Version 1 -/

/-- The structs that the reader copies. -/
def metadataReads (metadataOffset numFrames : ℕ) : List (ℕ × ℕ) :=
  (List.range numFrames).map fun frame =>
    (metadataOffset + mul32 frame metadataV1SizePerFrameBytes, metadataV1SizePerFrameBytes)

/-- The ranges of the data of its segments. -/
def dataRanges (shm : Mem UInt8) (type : MediaSourceType) (metadataOffset numFrames : ℕ) :
    List (ℕ × ℕ) :=
  if type = .unknown then []
  else (readMetadata shm metadataOffset numFrames).map fun metadata =>
    (metadata.offset, metadata.length.toNat)

/-- The struct of a frame describes extra data that its array holds, and data in the region. -/
def StructFits (r : Region) (metadata : MetadataV1) : Prop :=
  metadata.extraDataSize ≤ maxExtraDataSize ∧
    (metadata.length.toNat = 0 ∨ r.dataOffset ≤ metadata.offset ∧
      metadata.offset + metadata.length.toNat ≤ r.dataOffset + r.maxDataLen)

/-- The structs are in the region, and all of them fit. -/
def StructsFit (shm : Mem UInt8) (type : MediaSourceType) (r : Region) (numFrames : ℕ) : Prop :=
  versionSizeBytes + metadataV1SizePerFrameBytes * numFrames ≤ r.maxDataLen ∧
    (type ≠ .unknown → ∀ frame < numFrames, StructFits r
      (metadataAt shm (r.dataOffset + versionSizeBytes + metadataV1SizePerFrameBytes * frame)))

section v1

variable {shm : Mem UInt8} {type : MediaSourceType} {r : Region} {numFrames : ℕ}

/-- The place of a struct is computed in 32 bits, which is enough for the first struct behind the
region. -/
theorem metadataReads_within_iff :
    (∀ range ∈ metadataReads (r.dataOffset + versionSizeBytes) numFrames, Within r range) ↔
      versionSizeBytes + metadataV1SizePerFrameBytes * numFrames ≤ r.maxDataLen := by
  have hfits := r.fits
  have hmeta := r.metadata_lt
  simp only [getMaxMetadataBytes, versionSizeBytes, metadataV1SizePerFrameBytes, maxFrames] at hmeta
  simp only [metadataReads, List.forall_mem_map, List.mem_range, within_iff,
    metadataV1SizePerFrameBytes, versionSizeBytes]
  constructor
  · intro h
    by_contra hlt
    have hfirst := h ((r.maxDataLen - 4) / 104) (by omega)
    rw [mul32_of_lt (by omega)] at hfirst
    omega
  · intro h frame hframe
    rw [mul32_of_lt (by omega)]
    omega

theorem readMetadata_eq
    (h : versionSizeBytes + metadataV1SizePerFrameBytes * numFrames ≤ r.maxDataLen) (off : ℕ) :
    readMetadata shm off numFrames = (List.range numFrames).map fun frame =>
      metadataAt shm (off + metadataV1SizePerFrameBytes * frame) := by
  have hfits := r.fits
  refine List.map_congr_left fun frame hframe => ?_
  have hlt := List.mem_range.mp hframe
  simp only [versionSizeBytes, metadataV1SizePerFrameBytes] at h ⊢
  rw [mul32_of_lt (by omega), Nat.mul_comm]

theorem createSegmentV1_isSome_iff (shm : Mem UInt8) (type : MediaSourceType)
    (metadata : MetadataV1) :
    (createSegmentV1 shm type metadata).isSome = true ↔
      metadata.extraDataSize ≤ maxExtraDataSize := by
  unfold createSegmentV1
  split_ifs with h
  · simpa using h
  · simpa using Nat.le_of_not_lt h

/-- The reader of version 1 has a result unless it reads past the end of an array. -/
theorem readDataV1_isSome_iff {off : ℕ} (htype : type ≠ .unknown) :
    (readDataV1 shm type off numFrames).isSome = true ↔
      ∀ metadata ∈ readMetadata shm off numFrames, metadata.extraDataSize ≤ maxExtraDataSize := by
  unfold readDataV1
  rw [if_neg htype]
  induction readMetadata shm off numFrames with
  | nil => simp
  | cons metadata rest ih =>
    rw [List.mapM_cons, List.forall_mem_cons, ← ih, ← createSegmentV1_isSome_iff shm type]
    rcases createSegmentV1 shm type metadata with _ | segment
    · simp
    · rcases rest.mapM (createSegmentV1 shm type) with _ | segments
      · simp
      · simp

/-- **The reader of version 1** reads and returns ranges of the region when its structs fit, and
only then. -/
theorem structs_within_iff :
    ((∀ range ∈ metadataReads (r.dataOffset + versionSizeBytes) numFrames, Within r range) ∧
      (readDataV1 shm type (r.dataOffset + versionSizeBytes) numFrames).isSome = true ∧
      ∀ range ∈ dataRanges shm type (r.dataOffset + versionSizeBytes) numFrames, Within r range) ↔
    StructsFit shm type r numFrames := by
  rw [metadataReads_within_iff]
  refine and_congr_right fun hreads => ?_
  by_cases htype : type = .unknown
  · simp [htype, readDataV1, dataRanges]
  · rw [readDataV1_isSome_iff htype, dataRanges, if_neg htype, readMetadata_eq hreads]
    simp only [List.forall_mem_map, List.mem_range, within_iff, ne_eq, htype, not_false_eq_true,
      true_implies, StructFits, forall_and]

end v1

/-! ## The reader of a request -/

/-- The ranges that the factory and the reader it makes read. -/
def readerReads (pb : Protobuf) (shm : Mem UInt8) (type : MediaSourceType) (r : Region)
    (numFrames : ℕ) : List (ℕ × ℕ) :=
  (r.dataOffset, versionSizeBytes) ::
    match createDataReader type shm r.dataOffset numFrames with
    | none => []
    | some (.v1 _ metadataOffset numFrames) => metadataReads metadataOffset numFrames
    | some (.v2 type dataOffset numFrames) => frameReads pb shm type dataOffset numFrames

/-- The ranges of the data of the segments that the reader returns; `none` if it reads past the end
of an array. -/
def returnedRanges (pb : Protobuf) (shm : Mem UInt8) (type : MediaSourceType) (r : Region)
    (numFrames : ℕ) : Option (List (ℕ × ℕ)) :=
  match createDataReader type shm r.dataOffset numFrames with
  | none => some []
  | some (.v1 type metadataOffset numFrames) =>
    (readDataV1 shm type metadataOffset numFrames).map fun _ =>
      dataRanges shm type metadataOffset numFrames
  | some (.v2 type dataOffset numFrames) =>
    some ((frameData pb shm type dataOffset numFrames).getD [])

/-- The reader stays in the region of its source: all that it reads, and the data of all segments
that it returns. -/
structure StaysInside (pb : Protobuf) (shm : Mem UInt8) (type : MediaSourceType) (r : Region)
    (numFrames : ℕ) : Prop where
  reads : ∀ range ∈ readerReads pb shm type r numFrames, Within r range
  returned : ∃ ranges, returnedRanges pb shm type r numFrames = some ranges ∧
    ∀ range ∈ ranges, Within r range

/-- **The condition on the contents**: the frames of the version that the region names fit. -/
def ContentsFit (pb : Protobuf) (shm : Mem UInt8) (type : MediaSourceType) (r : Region)
    (numFrames : ℕ) : Prop :=
  (readUint32 shm r.dataOffset = 1 → StructsFit shm type r numFrames) ∧
  (readUint32 shm r.dataOffset = 2 →
    FramesFit pb shm type (r.dataOffset + r.maxDataLen) r.start numFrames)

/-- **A reader stays in its region** for the contents that fit, and for no others. -/
theorem staysInside_iff (pb : Protobuf) (shm : Mem UInt8) (type : MediaSourceType) (r : Region)
    (numFrames : ℕ) :
    StaysInside pb shm type r numFrames ↔ ContentsFit pb shm type r numFrames := by
  have hfits := r.fits
  have hmeta := r.metadata_lt
  have hmax : versionSizeBytes ≤ getMaxMetadataBytes := by decide
  have hversion : Within r (r.dataOffset, versionSizeBytes) := by
    rw [within_iff]
    omega
  have hsplit : StaysInside pb shm type r numFrames ↔
      (∀ range ∈ readerReads pb shm type r numFrames, Within r range) ∧
      ∃ ranges, returnedRanges pb shm type r numFrames = some ranges ∧
        ∀ range ∈ ranges, Within r range := ⟨fun h => ⟨h.1, h.2⟩, fun h => ⟨h.1, h.2⟩⟩
  have hoff1 : add32 r.dataOffset versionSizeBytes = r.dataOffset + versionSizeBytes :=
    add32_of_lt (by omega)
  have hoff2 : add32 r.dataOffset getMaxMetadataBytes = r.start := add32_of_lt (by omega)
  rw [hsplit]
  unfold readerReads returnedRanges createDataReader ContentsFit
  by_cases h1 : readUint32 shm r.dataOffset = 1
  · simp only [h1, if_true, hoff1, List.forall_mem_cons, hversion, true_and, true_implies,
      Nat.reduceEqDiff, false_implies, and_true]
    rw [← structs_within_iff]
    refine and_congr_right fun _ => ?_
    rcases readDataV1 shm type (r.dataOffset + versionSizeBytes) numFrames with _ | segments
    · simp
    · simp
  · by_cases h2 : readUint32 shm r.dataOffset = 2
    · simp only [h2, hoff2, List.forall_mem_cons, hversion, true_and, true_implies,
        Nat.reduceEqDiff, if_false, if_true, false_implies]
      have hstart : r.start = r.dataOffset + getMaxMetadataBytes := rfl
      rw [← frames_within_iff numFrames _ (by omega) (by omega)]
      refine and_congr_right fun _ => ?_
      simp
    · simp [h1, h2, hversion]

/-! ## Contents that fit, and contents that do not -/

section contents

variable {pb : Protobuf} {type : MediaSourceType}

/-- Frames that the writer has stored fit. -/
theorem framesFit_frames (hpb : pb.Lawful) {shm : Mem UInt8} {hi : ℕ} :
    ∀ (segs : List MediaSegment) (pos : ℕ), (∀ s ∈ segs, Serializes pb s) →
      readRange shm pos (frames pb segs).length = frames pb segs →
      pos + (frames pb segs).length ≤ hi → FramesFit pb shm type hi pos segs.length
  | [], pos, _, _, _ => trivial
  | data :: segs, pos, hser, hread, hhi => by
    obtain ⟨metadata, -, -, hint, hparse, -, hrest, hlength⟩ :=
      stored_frame hpb (hser data (by simp)) hread
    have hdataAt : dataAt shm pos = pos + 4 + pb.byteSizeLong metadata := by
      unfold dataAt
      rw [hint]
    rw [← hint] at hparse
    refine ⟨by omega, fun metadata' hm => ?_⟩
    obtain ⟨hparse', -⟩ := Option.filter_eq_some_iff.mp hm
    obtain rfl : metadata = metadata' := Option.some.inj (hparse.symm.trans hparse')
    rw [hdataAt]
    exact ⟨by omega, framesFit_frames hpb segs _ (fun s hs => hser s (by simp [hs])) hrest
      (by omega)⟩

/-- **What the writer of version 2 has written** is read inside the region, with the frame count
that it reports. -/
theorem staysInside_written (hpb : pb.Lawful) (r : Region) (shm : Mem UInt8)
    (datas : List MediaSegment) :
    let w := (writeFrames pb (createWriter shm (needMediaData r)) datas).1
    StaysInside pb w.shmBuffer type r w.numFrames := by
  intro w
  have hw := writeFrames_spec hpb datas (written_createWriter pb r shm)
  rw [List.nil_append] at hw
  have hmeta := r.metadata_lt
  have hmax := hw.maxBytes
  have hacc := hw.accounted
  have hbytes := hw.bytesWritten
  have hversion : readUint32 w.shmBuffer r.dataOffset = 2 := by
    unfold readUint32
    rw [hw.version, leValue_leBytes_of_lt (by decide)]
    rfl
  rw [staysInside_iff]
  refine ⟨fun h => ?_, fun _ => ?_⟩
  · rw [hversion] at h
    cases h
  · rw [hw.numFrames]
    refine framesFit_frames hpb _ _ hw.serialized hw.stored ?_
    unfold Region.start
    omega

end contents

/-- A region with a hundred bytes for the data. -/
def smallRegion : Region := ⟨0, 2600, by decide, by decide⟩

/-- Version 1, and one frame whose data is said to be 16 bytes at offset 3000. -/
def farData : Mem UInt8 := fun a => [1, 0, 0, 0, 184, 11, 0, 0, 16].getD a 0

/-- Version 2, and one frame whose metadata is said to take 200 bytes. -/
def longMetadata : Mem UInt8 := fun a => if a = 0 then 2 else if a = 2500 then 200 else 0

/-- Both readers leave the region. -/
theorem leaves_region : ¬StaysInside twoMessages farData .audio smallRegion 1 ∧
    ¬StaysInside twoMessages longMetadata .audio smallRegion 1 := by
  constructor
  · rintro ⟨-, ranges, hranges, h⟩
    have hreturned :
        returnedRanges twoMessages farData .audio smallRegion 1 = some [(3000, 16)] := by
      decide +kernel
    rw [hreturned] at hranges
    obtain rfl := Option.some.inj hranges
    have hfar := h _ (List.mem_singleton_self _)
    rw [within_iff] at hfar
    simp [smallRegion] at hfar
  · rintro ⟨h, -⟩
    have hreads : readerReads twoMessages longMetadata .audio smallRegion 1 =
        [(0, 4), (2500, 4), (2504, 200)] := by decide +kernel
    rw [hreads] at h
    have hlong := h (2504, 200) (by simp)
    rw [within_iff] at hlong
    simp [smallRegion] at hlong

end Rialto.Media.ReadRanges
