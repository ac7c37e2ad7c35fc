import Mathlib.Tactic.Set
import Rialto.Media.Frames

/-! # Frames of metadata version 2

What the reader returns is what the writer accepted.

* `createSegment_buildMetadata`: one segment, to metadata and back;
* `writeFrame_spec`: what a write does to the bytes written so far, in each of its outcomes;
* `readFrames_frames`: reading a run of frames;
* `read_written`: after any sequence of writes, of which any may fail, the reader returns the
  accepted segments in order. -/

namespace Rialto.Media.FramesV2

open Rialto.Lib.Endian Rialto.Lib.Memory Rialto.Lib.Word Rialto.Media.Segment Rialto.Media.Frames

/-! ## One segment -/

section segment

variable {data : MediaSegment} {metadata : MediaSegmentMetadata} {type : MediaSourceType}

/-- The sub-sample sizes fit the 32 bits that the metadata has for them. -/
def SubSamplesFit (data : MediaSegment) : Prop :=
  ∀ s ∈ data.subSamples, s.numClearBytes < w32 ∧ s.numEncryptedBytes < w32

theorem createFields_buildMetadata (h : buildMetadata data = some metadata)
    (ht : data.type = type) : createFields metadata type = some data.fields := by
  subst ht
  obtain ⟨⟨a, b, c, d⟩, hts, rfl⟩ := Option.map_eq_some_iff.mp h
  unfold typeSpecific at hts
  unfold createFields
  rcases htype : data.type with _ | _ | _ <;> rcases hf : data.fields with _ | ⟨x, y⟩ | ⟨x, y⟩ <;>
    rw [htype, hf] at hts <;> cases hts
  · rfl
  · rfl

theorem subSamples_roundtrip (h : SubSamplesFit data) :
    (data.subSamples.map fun s => (⟨UInt32.ofNat s.numClearBytes,
      UInt32.ofNat s.numEncryptedBytes⟩ : SubsampleInfo)).map (fun s =>
        (⟨s.numClearBytes.toNat, s.numEncryptedBytes.toNat⟩ : SubSamplePair)) =
      data.subSamples := by
  rw [List.map_map]
  conv_rhs => rw [← List.map_id data.subSamples]
  refine List.map_congr_left fun s hs => ?_
  obtain ⟨h1, h2⟩ := h s hs
  simp only [Function.comp_apply, UInt32.toNat_ofNat_of_lt' h1, UInt32.toNat_ofNat_of_lt' h2, id]

theorem length_buildMetadata (h : buildMetadata data = some metadata) :
    metadata.length.toNat = data.data.length := by
  obtain ⟨⟨a, b, c, d⟩, -, rfl⟩ := Option.map_eq_some_iff.mp h
  exact UInt32.toNat_ofNat_of_lt' data.dataLength_lt

/-- **One segment, to metadata and back.** -/
theorem createSegment_buildMetadata (h : buildMetadata data = some metadata)
    (ht : data.type = type) (hs : SubSamplesFit data) : ∃ segment,
    createSegment metadata type = some segment ∧ ∀ shm off,
      readRange shm off data.data.length = data.data →
      SameSegment data (setData segment shm off metadata.length) := by
  have hfields := createFields_buildMetadata h ht
  have hlength := length_buildMetadata h
  unfold createSegment
  rw [hfields]
  refine ⟨_, rfl, fun shm off hread => ?_⟩
  have hsub := subSamples_roundtrip hs
  obtain ⟨⟨a, b, c, d⟩, -, rfl⟩ := Option.map_eq_some_iff.mp h
  constructor
  · rfl
  · exact ht.symm
  · rfl
  · simp only [setData]
    rw [hlength]
    exact hread
  · rfl
  · rfl
  · by_cases hx : data.extraData = [] <;> simp [setData, hx]
  · by_cases hx : data.alignment = .undefined <;> simp [setData, hx]
  · cases data.encrypted <;> simp [setData]
  · intro henc
    simp only [setData, henc, if_true, Option.getD_some, true_and]
    exact hsub

end segment

/-! ## The frames in the memory -/

section frames

variable {pb : Protobuf} {r : Region} {w : MediaFrameWriterV2} {segs : List MediaSegment}

/-- The bytes of an accepted segment: the size of its metadata, the metadata and the data. -/
def frame (pb : Protobuf) (data : MediaSegment) : List UInt8 :=
  match buildMetadata data with
  | none => []
  | some metadata =>
    leBytes 4 (pb.byteSizeLong metadata) ++ (pb.serializeToArray metadata).2 ++ data.data

/-- The bytes of a list of segments. -/
def frames (pb : Protobuf) (segs : List MediaSegment) : List UInt8 := segs.flatMap (frame pb)

/-- The segment has metadata that was serialized, of a size that fits 32 bits. -/
def Serializes (pb : Protobuf) (data : MediaSegment) : Prop :=
  ∃ metadata, buildMetadata data = some metadata ∧ (pb.serializeToArray metadata).1 = true ∧
    pb.byteSizeLong metadata < w32

/-- The writer has accepted the segments: their frames are in the memory one after the other, the
version is in front of them, and the writer has accounted for at least their bytes. -/
structure Written (pb : Protobuf) (r : Region) (w : MediaFrameWriterV2) (segs : List MediaSegment) :
    Prop where
  maxBytes : w.maxBytes = r.maxDataLen - getMaxMetadataBytes
  dataOffset : w.dataOffset = r.start + (frames pb segs).length
  accounted : (frames pb segs).length + 4 * segs.length ≤ w.bytesWritten
  bytesWritten : w.bytesWritten ≤ w.maxBytes
  numFrames : w.numFrames = segs.length
  stored : readRange w.shmBuffer r.start (frames pb segs).length = frames pb segs
  version : readRange w.shmBuffer r.dataOffset 4 = leBytes 4 metadataVersion
  serialized : ∀ s ∈ segs, Serializes pb s

theorem written_createWriter (pb : Protobuf) (r : Region) (shm : Mem UInt8) :
    Written pb r (createWriter shm (needMediaData r)) [] := by
  have h1 := r.metadata_lt
  have h2 := r.fits
  constructor
  · simp only [createWriter, needMediaData]
    rw [sub32_of_le (by omega) (by omega)]
  · simp only [createWriter, needMediaData, frames, Region.start]
    rw [add32_of_lt (by omega)]
    rfl
  · exact Nat.le_refl _
  · exact Nat.zero_le _
  · rfl
  · rfl
  · exact readRange_write_self _ _ (leBytes 4 metadataVersion)
  · intro s hs
    cases hs

theorem frames_append (segs : List MediaSegment) (data : MediaSegment) :
    frames pb (segs ++ [data]) = frames pb segs ++ frame pb data := by
  simp [frames]

/-- Writing behind the frames leaves them and the version as they are. -/
theorem stored_write {off : ℕ} (shm : Mem UInt8) (bs : List UInt8) {n : ℕ}
    (h : r.start + n ≤ off) :
    readRange (write shm off bs) r.start n = readRange shm r.start n ∧
      readRange (write shm off bs) r.dataOffset 4 = readRange shm r.dataOffset 4 := by
  have h4 : 4 ≤ getMaxMetadataBytes := by decide
  constructor
  · exact readRange_write_of_disjoint _ (Or.inl h)
  · exact readRange_write_of_disjoint _ (Or.inl (by unfold Region.start at h; omega))

/-- A write that fails while serializing has moved nothing. -/
theorem written_failed (hw : Written pb r w segs) (size : ℕ) (bytes : List UInt8)
    (hspace : w.bytesWritten + 8 ≤ w.maxBytes) :
    Written pb r { w with
      shmBuffer := write (writeUint32 w.shmBuffer w.dataOffset size) (add32 w.dataOffset 4) bytes
      dataOffset := sub32 (add32 w.dataOffset 4) 4 } segs := by
  have hfits := r.fits
  have hacc := hw.accounted
  have hmax := hw.maxBytes
  have hoff : w.dataOffset + 4 < w32 := by
    rw [hw.dataOffset, Region.start]
    omega
  have hadd : add32 w.dataOffset 4 = w.dataOffset + 4 := add32_of_lt hoff
  have hd := hw.dataOffset
  obtain ⟨hs1, hv1⟩ := stored_write (r := r) (n := (frames pb segs).length) w.shmBuffer
    (leBytes 4 size) (show _ ≤ w.dataOffset by omega)
  obtain ⟨hs2, hv2⟩ := stored_write (r := r) (n := (frames pb segs).length)
    (writeUint32 w.shmBuffer w.dataOffset size) bytes (show _ ≤ w.dataOffset + 4 by omega)
  refine ⟨hw.maxBytes, ?_, hw.accounted, hw.bytesWritten, hw.numFrames, ?_, ?_, hw.serialized⟩
  · dsimp only
    rw [hadd, sub32_of_le (by omega) hoff]
    omega
  · dsimp only
    rw [hadd, hs2]
    exact hs1.trans hw.stored
  · dsimp only
    rw [hadd, hv2]
    exact hv1.trans hw.version

/-- A write that succeeds has put one more frame behind the others. -/
theorem written_ok (hpb : pb.Lawful) (hw : Written pb r w segs) {data : MediaSegment}
    {metadata : MediaSegmentMetadata} (hm : buildMetadata data = some metadata)
    (hok : (pb.serializeToArray metadata).1 = true)
    (hspace : w.bytesWritten + 8 + pb.byteSizeLong metadata + data.data.length ≤ w.maxBytes) :
    Written pb r { w with
      shmBuffer := write (write (writeUint32 w.shmBuffer w.dataOffset
        (pb.byteSizeLong metadata % w32)) (add32 w.dataOffset 4) (pb.serializeToArray metadata).2)
        (add32 (add32 w.dataOffset 4) (pb.byteSizeLong metadata)) data.data
      dataOffset := add32 (add32 (add32 w.dataOffset 4) (pb.byteSizeLong metadata)) data.data.length
      bytesWritten := add32 w.bytesWritten (8 + pb.byteSizeLong metadata + data.data.length)
      numFrames := w.numFrames + 1 } (segs ++ [data]) := by
  have hfits := r.fits
  have hacc := hw.accounted
  have hmax := hw.maxBytes
  have hd := hw.dataOffset
  have hstart : r.start = r.dataOffset + getMaxMetadataBytes := rfl
  have hsize := hpb.length_eq metadata hok
  set bytes := (pb.serializeToArray metadata).2 with hbytes
  set size := pb.byteSizeLong metadata with hsz
  have hframe : frame pb data = leBytes 4 size ++ bytes ++ data.data := by
    unfold frame
    rw [hm]
  have hlen : (frame pb data).length = 4 + size + data.data.length := by
    rw [hframe, List.length_append, List.length_append, length_leBytes, hsize]
  have hadd1 : add32 w.dataOffset 4 = w.dataOffset + 4 := add32_of_lt (by omega)
  have hadd2 : add32 (w.dataOffset + 4) size = w.dataOffset + 4 + size := add32_of_lt (by omega)
  have hadd3 : add32 (w.dataOffset + 4 + size) data.data.length =
      w.dataOffset + 4 + size + data.data.length := add32_of_lt (by omega)
  have hadd4 : add32 w.bytesWritten (8 + size + data.data.length) =
      w.bytesWritten + (8 + size + data.data.length) := add32_of_lt (by omega)
  have hmod : size % w32 = size := Nat.mod_eq_of_lt (by omega)
  rw [hadd1, hadd2, hadd3, hadd4, hmod]
  have h1 := readRange_write_append (leBytes 4 size) hw.stored
  have h2 := readRange_write_append bytes h1
  have h3 := readRange_write_append data.data h2
  have hoff1 : r.start + (frames pb segs).length = w.dataOffset := hd.symm
  have hoff2 : r.start + (frames pb segs ++ leBytes 4 size).length = w.dataOffset + 4 := by
    rw [List.length_append, length_leBytes]
    omega
  have hoff3 : r.start + (frames pb segs ++ leBytes 4 size ++ bytes).length =
      w.dataOffset + 4 + size := by
    rw [List.length_append, List.length_append, length_leBytes, hsize]
    omega
  have hall : frames pb (segs ++ [data]) =
      frames pb segs ++ leBytes 4 size ++ bytes ++ data.data := by
    rw [frames_append, hframe]
    simp only [List.append_assoc]
  rw [hoff1] at h1 h2 h3
  rw [hoff2] at h2 h3
  rw [hoff3] at h3
  have hv : ∀ {shm : Mem UInt8} {off : ℕ} (bs : List UInt8), r.start ≤ off →
      readRange shm r.dataOffset 4 = leBytes 4 metadataVersion →
      readRange (write shm off bs) r.dataOffset 4 = leBytes 4 metadataVersion :=
    fun bs hoff h => (stored_write (n := 0) _ bs hoff).2.trans h
  refine ⟨hw.maxBytes, ?_, ?_, ?_, ?_, ?_, ?_, ?_⟩
  · rw [frames_append, List.length_append, hlen]
    dsimp only
    omega
  · rw [frames_append, List.length_append, List.length_append, hlen]
    simp only [List.length_singleton]
    omega
  · dsimp only
    omega
  · simp [hw.numFrames]
  · rw [hall]
    exact h3
  · exact hv _ (by omega) (hv _ (by omega) (hv _ (by omega) hw.version))
  · intro s hs
    rcases List.mem_append.mp hs with hs | hs
    · exact hw.serialized s hs
    · obtain rfl := List.mem_singleton.mp hs
      exact ⟨metadata, hm, hok, by omega⟩

/-- **What a write does**, whatever its outcome. -/
theorem writeFrame_spec (hpb : pb.Lawful) (hw : Written pb r w segs) (data : MediaSegment) :
    Written pb r (writeFrame pb w data).1
      (if (writeFrame pb w data).2 = .ok then segs ++ [data] else segs) := by
  rcases hres : writeFrame pb w data with ⟨w', status⟩
  unfold writeFrame at hres
  rcases hm : buildMetadata data with _ | metadata
  · rw [hm] at hres
    cases hres
    exact hw
  · rw [hm] at hres
    dsimp only at hres
    split_ifs at hres with hspace hok
    · cases hres
      exact hw
    · cases hres
      exact written_failed hw _ _ (by omega)
    · cases hres
      exact written_ok hpb hw hm (by simpa using hok) (by omega)

theorem writeFrames_spec (hpb : pb.Lawful) : ∀ (datas : List MediaSegment)
    {w : MediaFrameWriterV2} {segs : List MediaSegment}, Written pb r w segs →
      Written pb r (writeFrames pb w datas).1 (segs ++ (writeFrames pb w datas).2)
  | [], w, segs, hw => by simpa [writeFrames] using hw
  | data :: datas, w, segs, hw => by
    have hspec := writeFrame_spec hpb hw data
    unfold writeFrames
    rcases hres : writeFrame pb w data with ⟨w', status⟩
    rw [hres] at hspec
    cases status with
    | ok =>
      have ih := writeFrames_spec hpb datas hspec
      simpa using ih
    | noSpace => exact writeFrames_spec hpb datas hspec
    | error => exact writeFrames_spec hpb datas hspec

theorem writeFrames_sublist : ∀ (datas : List MediaSegment) (w : MediaFrameWriterV2),
    (writeFrames pb w datas).2.Sublist datas
  | [], w => List.Sublist.refl _
  | data :: datas, w => by
    unfold writeFrames
    rcases writeFrame pb w data with ⟨w', status⟩
    cases status with
    | ok => exact (writeFrames_sublist datas w').cons_cons data
    | noSpace => exact (writeFrames_sublist datas w').cons data
    | error => exact (writeFrames_sublist datas w').cons data

/-! ## Reading the frames back -/

/-- The first of some stored frames: its metadata is parsed, its data behind it, and the other
frames follow. -/
theorem stored_frame (hpb : pb.Lawful) {shm : Mem UInt8} {pos : ℕ} {data : MediaSegment}
    {segs : List MediaSegment} (hser : Serializes pb data)
    (hread : readRange shm pos (frames pb (data :: segs)).length = frames pb (data :: segs)) :
    ∃ metadata, buildMetadata data = some metadata ∧
      metadata.length.toNat = data.data.length ∧
      readUint32 shm pos = pb.byteSizeLong metadata ∧
      pb.parseFromArray (readRange shm (pos + 4) (pb.byteSizeLong metadata)) = some metadata ∧
      readRange shm (pos + 4 + pb.byteSizeLong metadata) data.data.length = data.data ∧
      readRange shm (pos + 4 + pb.byteSizeLong metadata + metadata.length.toNat)
        (frames pb segs).length = frames pb segs ∧
      (frames pb (data :: segs)).length =
        4 + pb.byteSizeLong metadata + metadata.length.toNat + (frames pb segs).length := by
  obtain ⟨metadata, hm, hok, hlt⟩ := hser
  have hcons : frames pb (data :: segs) = leBytes 4 (pb.byteSizeLong metadata) ++
      ((pb.serializeToArray metadata).2 ++ (data.data ++ frames pb segs)) := by
    simp [frames, frame, hm]
  have hsize := hpb.length_eq metadata hok
  have hlength := length_buildMetadata hm
  rw [hcons] at hread
  obtain ⟨hread1, hread⟩ := readRange_of_append hread
  obtain ⟨hread2, hread⟩ := readRange_of_append hread
  obtain ⟨hread3, hread⟩ := readRange_of_append hread
  rw [length_leBytes] at hread1 hread2 hread3 hread
  rw [hsize] at hread2 hread3 hread
  refine ⟨metadata, hm, hlength, ?_, ?_, hread3, ?_, ?_⟩
  · unfold readUint32
    rw [hread1, leValue_leBytes_of_lt hlt]
  · rw [hread2]
    exact hpb.parse_eq metadata hok
  · rw [hlength]
    exact hread
  · rw [hcons, hlength]
    simp only [List.length_append, length_leBytes, hsize]
    omega

/-- **Reading a run of frames** returns the segments they were written from. -/
theorem readFrames_frames (hpb : pb.Lawful) {type : MediaSourceType} {shm : Mem UInt8} :
    ∀ (segs : List MediaSegment) (pos : ℕ), (∀ s ∈ segs, Serializes pb s) →
      (∀ s ∈ segs, s.type = type) → (∀ s ∈ segs, SubSamplesFit s) →
      readRange shm pos (frames pb segs).length = frames pb segs →
      ∃ out, readFrames pb shm type pos segs.length = some out ∧ List.Forall₂ SameSegment segs out
  | [], pos, _, _, _, _ => ⟨[], rfl, List.Forall₂.nil⟩
  | data :: segs, pos, hser, htype, hsub, hread => by
    obtain ⟨metadata, hm, -, hint, hparse, hdata, hrest, -⟩ :=
      stored_frame hpb (hser data (by simp)) hread
    obtain ⟨segment, hsegment, hsame⟩ := createSegment_buildMetadata hm (htype data (by simp))
      (hsub data (by simp))
    obtain ⟨out, hout, hall⟩ := readFrames_frames hpb segs
      (pos + 4 + pb.byteSizeLong metadata + metadata.length.toNat)
      (fun s hs => hser s (by simp [hs])) (fun s hs => htype s (by simp [hs]))
      (fun s hs => hsub s (by simp [hs])) hrest
    refine ⟨setData segment shm (pos + 4 + pb.byteSizeLong metadata) metadata.length :: out, ?_,
      List.Forall₂.cons (hsame _ _ hdata) hall⟩
    simp [readFrames, hint, hparse, hsegment, hout]

/-- **The round trip.** For every region of a need-data request, every protobuf that parses what it
serialized, and every sequence of writes of segments of one source type, of which any may fail: the
factory makes a reader of version 2, and it returns the accepted segments in order, each with its
data and the fields that a player uses. -/
theorem read_written (hpb : pb.Lawful) (r : Region) (type : MediaSourceType) (shm : Mem UInt8)
    (datas : List MediaSegment) (htype : ∀ s ∈ datas, s.type = type)
    (hsub : ∀ s ∈ datas, SubSamplesFit s) :
    let w := (writeFrames pb (createWriter shm (needMediaData r)) datas).1
    let accepted := (writeFrames pb (createWriter shm (needMediaData r)) datas).2
    accepted.length < w32 ∧ ∃ dataOffset,
      createDataReader type w.shmBuffer r.dataOffset accepted.length =
        some (.v2 type dataOffset accepted.length) ∧
      List.Forall₂ SameSegment accepted
        (readData pb w.shmBuffer type dataOffset accepted.length) := by
  intro w accepted
  have hw : Written pb r w accepted := by
    have := writeFrames_spec hpb datas (written_createWriter pb r shm)
    simpa using this
  have hmem : ∀ s ∈ accepted, s ∈ datas := (writeFrames_sublist datas _).subset
  have hfits := r.fits
  have hmax := hw.maxBytes
  have hacc := hw.accounted
  have hbytes := hw.bytesWritten
  refine ⟨by omega, r.start, ?_, ?_⟩
  · have hversion : readUint32 w.shmBuffer r.dataOffset = 2 := by
      unfold readUint32
      rw [hw.version, leValue_leBytes_of_lt (by decide)]
      rfl
    have hmeta := r.metadata_lt
    unfold createDataReader
    rw [hversion, if_neg (by decide), if_pos rfl, add32_of_lt (by omega)]
    rfl
  · obtain ⟨out, hout, hall⟩ := readFrames_frames hpb accepted r.start hw.serialized
      (fun s hs => htype s (hmem s hs)) (fun s hs => hsub s (hmem s hs)) hw.stored
    unfold readData
    rw [hout]
    exact hall

end frames

/-! ## A request with room for two frames -/

/-- A clear audio segment, and an encrypted one. -/
def clearSegment : MediaSegment :=
  { MediaSegment.mk' 1 .audio (.audio 13 2) 10 20 with
    data := [1, 2, 3]
    dataLength_lt := by decide }

def encryptedSegment : MediaSegment :=
  { MediaSegment.mk' 1 .audio (.audio 13 2) 5 5 with
    data := [4, 5]
    dataLength_lt := by decide
    encrypted := true
    mediaKeySessionId := 7
    keyId := [9]
    initVector := [8]
    subSamples := [⟨1, 1⟩] }

/-- What protobuf writes for the metadata of the two segments. -/
def clearBytes : List UInt8 := [8, 3, 16, 10, 24, 20, 32, 1, 40, 13, 48, 2]

def encryptedBytes : List UInt8 :=
  [8, 2, 16, 5, 24, 5, 32, 1, 40, 13, 48, 2, 88, 7, 98, 1, 9, 106, 1, 8, 112, 0, 122, 4, 8, 1, 16,
    1]

/-- Protobuf on the metadata of the two segments. -/
def twoMessages : Protobuf where
  byteSizeLong m := if buildMetadata clearSegment = some m then 12
    else if buildMetadata encryptedSegment = some m then 28 else 0
  serializeToArray m := if buildMetadata clearSegment = some m then (true, clearBytes)
    else if buildMetadata encryptedSegment = some m then (true, encryptedBytes) else (false, [])
  parseFromArray bytes := if bytes = clearBytes then buildMetadata clearSegment
    else if bytes = encryptedBytes then buildMetadata encryptedSegment else none

theorem twoMessages_lawful : twoMessages.Lawful := by
  constructor
  · intro m
    simp only [twoMessages]
    split_ifs <;> decide
  · intro m
    simp only [twoMessages]
    split_ifs with h1 h2
    · exact fun _ => rfl
    · exact fun _ => rfl
    · exact fun h => by cases h
  · intro m
    simp only [twoMessages]
    by_cases h1 : buildMetadata clearSegment = some m
    · rw [if_pos h1, if_pos rfl]
      exact fun _ => h1
    · rw [if_neg h1]
      by_cases h2 : buildMetadata encryptedSegment = some m
      · rw [if_pos h2, if_neg (by decide), if_pos rfl]
        exact fun _ => h2
      · rw [if_neg h2]
        exact fun h => by cases h

/-- The third write finds no space left; the first two segments are read back. -/
theorem read_written_two :
    let w := writeFrames twoMessages (createWriter (fun _ => 0)
      (needMediaData ⟨0, 2570, by decide, by decide⟩))
      [clearSegment, encryptedSegment, clearSegment]
    w.2.length = 2 ∧ ∃ dataOffset, List.Forall₂ SameSegment w.2
      (readData twoMessages w.1.shmBuffer .audio dataOffset w.2.length) := by
  intro w
  have htype : ∀ s ∈ [clearSegment, encryptedSegment, clearSegment], s.type = .audio := by decide
  have hsub : ∀ s ∈ [clearSegment, encryptedSegment, clearSegment], SubSamplesFit s := by
    intro s hs p hp
    simp only [List.mem_cons, List.not_mem_nil, or_false] at hs
    rcases hs with rfl | rfl | rfl
    · cases hp
    · obtain rfl := List.mem_singleton.mp hp
      decide
    · cases hp
  obtain ⟨-, dataOffset, -, hread⟩ := read_written twoMessages_lawful
    ⟨0, 2570, by decide, by decide⟩ .audio (fun _ => 0) _ htype hsub
  exact ⟨by decide, dataOffset, hread⟩

end Rialto.Media.FramesV2
