import Rialto.Media.FramesV2
import Rialto.Media.WriterV1

/-! # Where the writer of version 2 writes

`writeFrame` checks the space once, on a sum that counts eight bytes for the size of the metadata,
and then writes four bytes for it, the metadata and the data. `frameWrites` are the copies of a
call, with the offsets that the code computes in 32 bits.

* `shmBuffer_writeFrame`: the memory after a call is the one before with exactly these copies.
* `Counted`: how the byte counter and the running offset belong together; `counted_writeFrame`:
  every call keeps it, whatever its outcome.
* `confined`: no sequence of calls leaves the media region. -/

namespace Rialto.Media.WriterV2

open Rialto.Lib.Endian Rialto.Lib.Memory Rialto.Lib.Word Rialto.Media.Segment Rialto.Media.Frames
  Rialto.Media.FramesV2 Rialto.Media.WriterV1

/-! ## The copies of a call -/

/-- The check of the space, on a sum of 64 bits. -/
def HasSpace (pb : Protobuf) (w : MediaFrameWriterV2) (metadata : MediaSegmentMetadata)
    (data : MediaSegment) : Prop :=
  w.bytesWritten + 8 + pb.byteSizeLong metadata + data.data.length ≤ w.maxBytes

instance (pb : Protobuf) (w : MediaFrameWriterV2) (metadata : MediaSegmentMetadata)
    (data : MediaSegment) : Decidable (HasSpace pb w metadata data) :=
  inferInstanceAs (Decidable (_ ≤ _))

/-- The copies of the size and of the metadata. -/
def metadataWrites (pb : Protobuf) (w : MediaFrameWriterV2) (metadata : MediaSegmentMetadata) :
    List (ℕ × List UInt8) :=
  [(w.dataOffset, leBytes 4 (pb.byteSizeLong metadata % w32)),
    (add32 w.dataOffset 4, (pb.serializeToArray metadata).2)]

/-- Where the data goes. -/
def dataPlace (pb : Protobuf) (w : MediaFrameWriterV2) (metadata : MediaSegmentMetadata) : ℕ :=
  add32 (add32 w.dataOffset 4) (pb.byteSizeLong metadata)

/-- The serialization has failed: the size and a part of the metadata are written. -/
def serializeFailed (pb : Protobuf) (w : MediaFrameWriterV2) (metadata : MediaSegmentMetadata) :
    MediaFrameWriterV2 :=
  { w with
    shmBuffer := applyWrites w.shmBuffer (metadataWrites pb w metadata)
    dataOffset := sub32 (add32 w.dataOffset 4) 4 }

/-- The frame is written and counted. -/
def frameAccepted (pb : Protobuf) (w : MediaFrameWriterV2) (metadata : MediaSegmentMetadata)
    (data : MediaSegment) : MediaFrameWriterV2 :=
  { w with
    shmBuffer := applyWrites w.shmBuffer
      (metadataWrites pb w metadata ++ [(dataPlace pb w metadata, data.data)])
    dataOffset := add32 (dataPlace pb w metadata) data.data.length
    bytesWritten := add32 w.bytesWritten (8 + pb.byteSizeLong metadata + data.data.length)
    numFrames := w.numFrames + 1 }

/-- The copies of a call. -/
def frameWrites (pb : Protobuf) (w : MediaFrameWriterV2) (data : MediaSegment) :
    List (ℕ × List UInt8) :=
  match buildMetadata data with
  | none => []
  | some metadata =>
    if ¬HasSpace pb w metadata data then []
    else if (pb.serializeToArray metadata).1 then
      metadataWrites pb w metadata ++ [(dataPlace pb w metadata, data.data)]
    else metadataWrites pb w metadata

section calls

variable {pb : Protobuf} {w : MediaFrameWriterV2} {data : MediaSegment}

/-- **How far a call gets**: no metadata, no space, no serialization, or to the end. -/
theorem writeFrame_cases (pb : Protobuf) (w : MediaFrameWriterV2) (data : MediaSegment) :
    (frameWrites pb w data = [] ∧ ∃ status, status ≠ .ok ∧ writeFrame pb w data = (w, status)) ∨
    ∃ metadata, buildMetadata data = some metadata ∧ HasSpace pb w metadata data ∧
      (((pb.serializeToArray metadata).1 = false ∧
        frameWrites pb w data = metadataWrites pb w metadata ∧
        writeFrame pb w data = (serializeFailed pb w metadata, .error)) ∨
      ((pb.serializeToArray metadata).1 = true ∧
        frameWrites pb w data =
          metadataWrites pb w metadata ++ [(dataPlace pb w metadata, data.data)] ∧
        writeFrame pb w data = (frameAccepted pb w metadata data, .ok))) := by
  unfold frameWrites writeFrame
  rcases hm : buildMetadata data with _ | metadata
  · exact Or.inl ⟨rfl, .error, by decide, rfl⟩
  · by_cases hspace : HasSpace pb w metadata data
    · have hcheck : ¬w.maxBytes <
          w.bytesWritten + 8 + pb.byteSizeLong metadata + data.data.length :=
        Nat.not_lt.mpr hspace
      refine Or.inr ⟨metadata, rfl, hspace, ?_⟩
      by_cases hok : (pb.serializeToArray metadata).1 = true
      · refine Or.inr ⟨hok, ?_, ?_⟩
        · simp [hspace, hok]
        · simp [hcheck, hok, frameAccepted, metadataWrites, applyWrites, writeUint32, dataPlace]
      · have hno : (pb.serializeToArray metadata).1 = false := by simpa using hok
        refine Or.inl ⟨hno, ?_, ?_⟩
        · simp [hspace, hno]
        · simp [hcheck, hno, serializeFailed, metadataWrites, applyWrites, writeUint32]
    · have hcheck : w.maxBytes <
          w.bytesWritten + 8 + pb.byteSizeLong metadata + data.data.length :=
        Nat.lt_of_not_le hspace
      refine Or.inl ⟨?_, .noSpace, by decide, ?_⟩
      · simp [hspace]
      · simp [hcheck]

/-- **The copies of a call are all that it does to the memory.** -/
theorem shmBuffer_writeFrame (pb : Protobuf) (w : MediaFrameWriterV2) (data : MediaSegment) :
    (writeFrame pb w data).1.shmBuffer = applyWrites w.shmBuffer (frameWrites pb w data) := by
  obtain ⟨hcopies, status, -, hcall⟩ | ⟨metadata, -, -, hspace⟩ := writeFrame_cases pb w data
  · rw [hcopies, hcall]
    rfl
  · obtain ⟨-, hcopies, hcall⟩ | ⟨-, hcopies, hcall⟩ := hspace
    · rw [hcopies, hcall]
      rfl
    · rw [hcopies, hcall]
      rfl

/-- Copies inside a region leave the bytes outside of it. -/
theorem applyWrites_outside {lo hi a : ℕ} (ha : a < lo ∨ hi ≤ a) :
    ∀ (copies : List (ℕ × List UInt8)) (shm : Mem UInt8),
      (∀ copy ∈ copies, Inside lo hi copy) → applyWrites shm copies a = shm a := by
  intro copies
  induction copies with
  | nil => exact fun _ _ => rfl
  | cons copy rest ih =>
    intro shm h
    have hrest := ih (write shm copy.1 copy.2) fun c hc => h c (List.mem_cons_of_mem _ hc)
    have hcopy : a < copy.1 ∨ copy.1 + copy.2.length ≤ a := by
      by_contra hin
      have := h copy (List.mem_cons_self ..) a (by omega) (by omega)
      omega
    exact hrest.trans (write_of_notMem hcopy)

end calls

/-! ## The counter and the offset -/

/-- The byte counter is ahead of the running offset by four bytes for each frame, and within its
limit. -/
structure Counted (info : MediaPlayerShmInfo) (w : MediaFrameWriterV2) : Prop where
  maxBytes : w.maxBytes = info.maxMediaBytes
  offset : w.dataOffset + 4 * w.numFrames = info.mediaDataOffset + w.bytesWritten
  frames_le : 8 * w.numFrames ≤ w.bytesWritten
  bytesWritten_le : w.bytesWritten ≤ info.maxMediaBytes

/-- The end of the media region; offsets up to it have 32 bits. -/
structure Fitting (info : MediaPlayerShmInfo) : Prop where
  inRange : InRange info
  end_le : info.mediaDataOffset + info.maxMediaBytes ≤ w32

section counted

variable {pb : Protobuf} {info : MediaPlayerShmInfo} {w : MediaFrameWriterV2}
  {metadata : MediaSegmentMetadata} {data : MediaSegment}

theorem counted_createWriter (shm : Mem UInt8) (info : MediaPlayerShmInfo) :
    Counted info (createWriter shm info) := by
  constructor
  · rfl
  · rfl
  · exact Nat.le_refl _
  · exact Nat.zero_le _

/-- A frame for which there is space ends four bytes before the end of the region, or earlier. -/
theorem Counted.frame_le (hc : Counted info w) (hspace : HasSpace pb w metadata data) :
    w.dataOffset + 8 + pb.byteSizeLong metadata + data.data.length ≤
      info.mediaDataOffset + info.maxMediaBytes := by
  have hmax := hc.maxBytes
  have hoff := hc.offset
  unfold HasSpace at hspace
  omega

/-- No offset of such a frame wraps. -/
theorem Counted.places (hf : Fitting info) (hc : Counted info w)
    (hspace : HasSpace pb w metadata data) :
    add32 w.dataOffset 4 = w.dataOffset + 4 ∧
    dataPlace pb w metadata = w.dataOffset + 4 + pb.byteSizeLong metadata ∧
    add32 (dataPlace pb w metadata) data.data.length =
      w.dataOffset + 4 + pb.byteSizeLong metadata + data.data.length := by
  have hle := hc.frame_le hspace
  have hend := hf.end_le
  have h1 : add32 w.dataOffset 4 = w.dataOffset + 4 := add32_of_lt (by omega)
  have h2 : dataPlace pb w metadata = w.dataOffset + 4 + pb.byteSizeLong metadata := by
    unfold dataPlace
    rw [h1, add32_of_lt (by omega)]
  refine ⟨h1, h2, ?_⟩
  rw [h2, add32_of_lt (by omega)]

/-- The size of its metadata has 32 bits. -/
theorem Counted.size_mod (hf : Fitting info) (hc : Counted info w)
    (hspace : HasSpace pb w metadata data) :
    pb.byteSizeLong metadata % w32 = pb.byteSizeLong metadata := by
  have hmax := hf.inRange.maxMediaBytes
  have hle := hc.maxBytes
  unfold HasSpace at hspace
  exact Nat.mod_eq_of_lt (by omega)

theorem metadataWrites_inside (hpb : pb.Lawful) (hf : Fitting info) (hc : Counted info w)
    (hspace : HasSpace pb w metadata data) :
    ∀ copy ∈ metadataWrites pb w metadata,
      Inside w.dataOffset (info.mediaDataOffset + info.maxMediaBytes) copy := by
  have hle := hc.frame_le hspace
  have hbytes := hpb.length_le metadata
  obtain ⟨h1, -, -⟩ := hc.places hf hspace
  simp only [metadataWrites, List.forall_mem_cons, List.not_mem_nil, false_implies, implies_true,
    and_true, inside_iff, length_leBytes, h1]
  omega

theorem dataWrite_inside (hf : Fitting info) (hc : Counted info w)
    (hspace : HasSpace pb w metadata data) :
    Inside w.dataOffset (info.mediaDataOffset + info.maxMediaBytes)
      (dataPlace pb w metadata, data.data) := by
  have hle := hc.frame_le hspace
  obtain ⟨-, h2, -⟩ := hc.places hf hspace
  rw [inside_iff, h2]
  omega

/-- **The copies of a call** lie between the running offset and the end of the region. -/
theorem frameWrites_inside (hpb : pb.Lawful) (hf : Fitting info) (hc : Counted info w)
    (data : MediaSegment) :
    ∀ copy ∈ frameWrites pb w data,
      Inside w.dataOffset (info.mediaDataOffset + info.maxMediaBytes) copy := by
  obtain ⟨hcopies, -⟩ | ⟨metadata, -, hspace, ⟨-, hcopies, -⟩ | ⟨-, hcopies, -⟩⟩ :=
    writeFrame_cases pb w data
  · rw [hcopies]
    exact fun copy hcopy => absurd hcopy List.not_mem_nil
  · rw [hcopies]
    exact metadataWrites_inside hpb hf hc hspace
  · rw [hcopies, List.forall_mem_append, List.forall_mem_singleton]
    exact ⟨metadataWrites_inside hpb hf hc hspace, dataWrite_inside hf hc hspace⟩

/-- A call that is not accepted leaves the offset and the counters, also when it fails after the
first bytes of the frame. -/
theorem rejected_writeFrame (hf : Fitting info) (hc : Counted info w) (data : MediaSegment)
    (hno : (writeFrame pb w data).2 ≠ .ok) :
    (writeFrame pb w data).1.dataOffset = w.dataOffset ∧
    (writeFrame pb w data).1.bytesWritten = w.bytesWritten ∧
    (writeFrame pb w data).1.numFrames = w.numFrames ∧
    (writeFrame pb w data).1.maxBytes = w.maxBytes := by
  obtain ⟨-, status, -, hcall⟩ | ⟨metadata, -, hspace, ⟨-, -, hcall⟩ | ⟨-, -, hcall⟩⟩ :=
    writeFrame_cases pb w data
  · rw [hcall]
    exact ⟨rfl, rfl, rfl, rfl⟩
  · obtain ⟨h1, -, -⟩ := hc.places hf hspace
    have hle := hc.frame_le hspace
    have hend := hf.end_le
    rw [hcall]
    refine ⟨?_, rfl, rfl, rfl⟩
    show sub32 (add32 w.dataOffset 4) 4 = w.dataOffset
    rw [h1, sub32_of_le (by omega) (by omega)]
    omega
  · rw [hcall] at hno
    exact absurd rfl hno

/-- A call that is accepted has put its frame at the running offset, which is now behind it. -/
theorem accepted_writeFrame (hpb : pb.Lawful) (hf : Fitting info) (hc : Counted info w)
    {data : MediaSegment} (hok : (writeFrame pb w data).2 = .ok) :
    (writeFrame pb w data).1.shmBuffer = write w.shmBuffer w.dataOffset (frame pb data) ∧
    (writeFrame pb w data).1.dataOffset = w.dataOffset + (frame pb data).length ∧
    Counted info (writeFrame pb w data).1 := by
  obtain ⟨-, status, hstatus, hcall⟩ |
      ⟨metadata, hm, hspace, ⟨-, -, hcall⟩ | ⟨hser, hcopies, hcall⟩⟩ := writeFrame_cases pb w data
  · rw [hcall] at hok
    exact absurd hok hstatus
  · rw [hcall] at hok
    cases hok
  · obtain ⟨h1, h2, h3⟩ := hc.places hf hspace
    have hsize := hpb.length_eq metadata hser
    have hframe : frame pb data =
        leBytes 4 (pb.byteSizeLong metadata) ++ (pb.serializeToArray metadata).2 ++ data.data := by
      unfold frame
      rw [hm]
    have hlen : (frame pb data).length =
        4 + pb.byteSizeLong metadata + data.data.length := by
      rw [hframe, List.length_append, List.length_append, length_leBytes, hsize]
    have hbytes : add32 w.bytesWritten (8 + pb.byteSizeLong metadata + data.data.length) =
        w.bytesWritten + (8 + pb.byteSizeLong metadata + data.data.length) := by
      have hmax := hf.inRange.maxMediaBytes
      have hle := hc.maxBytes
      unfold HasSpace at hspace
      exact add32_of_lt (by omega)
    have hmax := hc.maxBytes
    have hoff := hc.offset
    have hframes := hc.frames_le
    unfold HasSpace at hspace
    rw [hcall]
    refine ⟨?_, ?_, ⟨hmax, ?_, ?_, ?_⟩⟩
    · show applyWrites w.shmBuffer _ = _
      have hoff2 : w.dataOffset + 4 =
          w.dataOffset + (leBytes 4 (pb.byteSizeLong metadata)).length := by
        rw [length_leBytes]
      have hoff3 : w.dataOffset + 4 + pb.byteSizeLong metadata = w.dataOffset +
          (leBytes 4 (pb.byteSizeLong metadata) ++ (pb.serializeToArray metadata).2).length := by
        rw [List.length_append, length_leBytes, hsize]
        omega
      simp only [metadataWrites, applyWrites, List.cons_append, List.nil_append, List.foldl_cons,
        List.foldl_nil]
      rw [hc.size_mod hf hspace, h1, h2, hoff3, hoff2, write_append, write_append, ← hframe]
    · show add32 (dataPlace pb w metadata) data.data.length = _
      rw [h3, hlen]
      omega
    · show add32 (dataPlace pb w metadata) data.data.length + 4 * (w.numFrames + 1) =
        info.mediaDataOffset + add32 w.bytesWritten _
      rw [h3, hbytes]
      omega
    · show 8 * (w.numFrames + 1) ≤ add32 w.bytesWritten _
      rw [hbytes]
      omega
    · show add32 w.bytesWritten _ ≤ info.maxMediaBytes
      rw [hbytes]
      omega

/-- **Every call** keeps the relation and moves the offset forwards only. -/
theorem counted_writeFrame (hpb : pb.Lawful) (hf : Fitting info) (hc : Counted info w)
    (data : MediaSegment) :
    Counted info (writeFrame pb w data).1 ∧
      w.dataOffset ≤ (writeFrame pb w data).1.dataOffset := by
  by_cases hok : (writeFrame pb w data).2 = .ok
  · obtain ⟨-, hoff, hcounted⟩ := accepted_writeFrame hpb hf hc hok
    exact ⟨hcounted, by omega⟩
  · obtain ⟨hoff, hbytes, hframes, hmax⟩ := rejected_writeFrame hf hc data hok
    refine ⟨⟨?_, ?_, ?_, ?_⟩, by omega⟩
    · rw [hmax]
      exact hc.maxBytes
    · rw [hoff, hbytes, hframes]
      exact hc.offset
    · rw [hbytes, hframes]
      exact hc.frames_le
    · rw [hbytes]
      exact hc.bytesWritten_le

end counted

/-! ## Sequences of calls -/

/-- The writer after some calls. -/
def afterFrames (pb : Protobuf) (w : MediaFrameWriterV2) (datas : List MediaSegment) :
    MediaFrameWriterV2 :=
  datas.foldl (fun w data => (writeFrame pb w data).1) w

/-- **Confinement.** After the constructor, every call of the sequence writes inside the media
region, the version stays in place, an accepted frame is in the memory from then on, and a call
that is not accepted leaves the offset and the counters. -/
structure Confined (pb : Protobuf) (shm : Mem UInt8) (info : MediaPlayerShmInfo)
    (datas : List MediaSegment) : Prop where
  inside : ∀ pre data post, datas = pre ++ data :: post →
    ∀ copy ∈ frameWrites pb (afterFrames pb (createWriter shm info) pre) data,
      Inside info.mediaDataOffset (info.mediaDataOffset + info.maxMediaBytes) copy
  version : ∀ pre post, datas = pre ++ post →
    readRange (afterFrames pb (createWriter shm info) pre).shmBuffer info.metadataOffset 4 =
      leBytes 4 metadataVersion
  accepted : ∀ pre data mid post, datas = pre ++ data :: (mid ++ post) →
    (writeFrame pb (afterFrames pb (createWriter shm info) pre) data).2 = .ok →
    readRange (afterFrames pb (createWriter shm info) (pre ++ data :: mid)).shmBuffer
        (afterFrames pb (createWriter shm info) pre).dataOffset (frame pb data).length =
      frame pb data
  rejected : ∀ pre data post, datas = pre ++ data :: post →
    (writeFrame pb (afterFrames pb (createWriter shm info) pre) data).2 ≠ .ok →
    (afterFrames pb (createWriter shm info) (pre ++ [data])).dataOffset =
        (afterFrames pb (createWriter shm info) pre).dataOffset ∧
      (afterFrames pb (createWriter shm info) (pre ++ [data])).bytesWritten =
        (afterFrames pb (createWriter shm info) pre).bytesWritten ∧
      (afterFrames pb (createWriter shm info) (pre ++ [data])).numFrames =
        (afterFrames pb (createWriter shm info) pre).numFrames

section runs

variable {pb : Protobuf} {info : MediaPlayerShmInfo} {w : MediaFrameWriterV2} {shm : Mem UInt8}

theorem afterFrames_cons (w : MediaFrameWriterV2) (data : MediaSegment)
    (datas : List MediaSegment) : afterFrames pb w (data :: datas) =
      afterFrames pb (writeFrame pb w data).1 datas := rfl

theorem afterFrames_append (w : MediaFrameWriterV2) (xs ys : List MediaSegment) :
    afterFrames pb w (xs ++ ys) = afterFrames pb (afterFrames pb w xs) ys :=
  List.foldl_append

theorem writeFrames_fst : ∀ (datas : List MediaSegment) (w : MediaFrameWriterV2),
    (writeFrames pb w datas).1 = afterFrames pb w datas
  | [], _ => rfl
  | data :: datas, w => by
    rw [afterFrames_cons, ← writeFrames_fst datas]
    conv_lhs => unfold writeFrames
    rcases writeFrame pb w data with ⟨w', status⟩
    rcases status with _ | _ | _ <;> rfl

theorem counted_afterFrames (hpb : pb.Lawful) (hf : Fitting info) (datas : List MediaSegment) :
    ∀ {w : MediaFrameWriterV2}, Counted info w → Counted info (afterFrames pb w datas) := by
  induction datas with
  | nil => exact fun hc => hc
  | cons data rest ih => exact fun hc => ih (counted_writeFrame hpb hf hc data).1

/-- **Nothing changes** in front of the running offset and behind the region, whatever calls
follow. -/
theorem shmBuffer_afterFrames (hpb : pb.Lawful) (hf : Fitting info) (datas : List MediaSegment) :
    ∀ {w : MediaFrameWriterV2} {a : ℕ}, Counted info w →
      (a < w.dataOffset ∨ info.mediaDataOffset + info.maxMediaBytes ≤ a) →
      (afterFrames pb w datas).shmBuffer a = w.shmBuffer a := by
  induction datas with
  | nil => exact fun _ _ => rfl
  | cons data rest ih =>
    intro w a hc ha
    obtain ⟨hcounted, hoff⟩ := counted_writeFrame hpb hf hc data
    have hcall : (writeFrame pb w data).1.shmBuffer a = w.shmBuffer a := by
      rw [shmBuffer_writeFrame]
      exact applyWrites_outside ha _ _ (frameWrites_inside hpb hf hc data)
    have hrest := ih hcounted (a := a) (by omega)
    exact hrest.trans hcall

/-- **The writer of version 2 is confined** to its media region: for every description of regions
in which the media region holds no byte of the version and ends within 32 bits, and every sequence
of calls. -/
theorem confined (hpb : pb.Lawful) (shm : Mem UInt8) (hinfo : InRange info)
    (hversion : ∀ a, info.metadataOffset ≤ a → a < info.metadataOffset + versionSizeBytes →
      ¬(info.mediaDataOffset ≤ a ∧ a < info.mediaDataOffset + info.maxMediaBytes))
    (hend : info.mediaDataOffset + info.maxMediaBytes ≤ w32) (datas : List MediaSegment) :
    Confined pb shm info datas := by
  have hf : Fitting info := ⟨hinfo, hend⟩
  have hcreated := counted_createWriter shm info
  have hcounted : ∀ pre, Counted info (afterFrames pb (createWriter shm info) pre) :=
    fun pre => counted_afterFrames hpb hf pre hcreated
  refine ⟨?_, ?_, ?_, ?_⟩
  · intro pre data post _ copy hcopy
    have hc := hcounted pre
    have hoff := hc.offset
    have hframes := hc.frames_le
    exact (frameWrites_inside hpb hf hc data copy hcopy).mono (by omega) (Nat.le_refl _)
  · intro pre post _
    have hwritten : readRange (createWriter shm info).shmBuffer info.metadataOffset 4 =
        leBytes 4 metadataVersion := readRange_write_self _ _ (leBytes 4 metadataVersion)
    rw [← hwritten]
    refine readRange_congr fun a ha ha' => shmBuffer_afterFrames hpb hf pre hcreated ?_
    have hout := hversion a ha ha'
    show a < info.mediaDataOffset ∨ _
    omega
  · intro pre data mid post _ hok
    have hc := hcounted pre
    obtain ⟨hbytes, hoff, hcounted'⟩ := accepted_writeFrame hpb hf hc hok
    have hsame : readRange (afterFrames pb (createWriter shm info) (pre ++ data :: mid)).shmBuffer
        (afterFrames pb (createWriter shm info) pre).dataOffset (frame pb data).length =
        readRange (writeFrame pb (afterFrames pb (createWriter shm info) pre) data).1.shmBuffer
          (afterFrames pb (createWriter shm info) pre).dataOffset (frame pb data).length := by
      rw [afterFrames_append, afterFrames_cons]
      exact readRange_congr fun a _ ha => shmBuffer_afterFrames hpb hf mid hcounted' (by omega)
    rw [hsame, hbytes, readRange_write_self]
  · intro pre data post _ hno
    obtain ⟨hoff, hbytes, hframes, -⟩ := rejected_writeFrame hf (hcounted pre) data hno
    rw [afterFrames_append]
    exact ⟨hoff, hbytes, hframes⟩

end runs

/-! ## Regions that confine, and two that do not -/

/-- The first two calls are accepted, the third finds no space left. -/
theorem confined_two_frames : Confined twoMessages (fun _ => 0) ⟨2500, 0, 2500, 70⟩
    [clearSegment, encryptedSegment, clearSegment] := by
  refine confined twoMessages_lawful _ ⟨by decide, by decide, by decide, by decide⟩ ?_ (by decide) _
  intro a _ ha
  simp only [versionSizeBytes] at ha ⊢
  omega

/-- Two regions share no byte. -/
def RegionsApart (info : MediaPlayerShmInfo) : Prop :=
  ∀ a, info.metadataOffset ≤ a → a < info.metadataOffset + info.maxMetadataBytes →
    ¬(info.mediaDataOffset ≤ a ∧ a < info.mediaDataOffset + info.maxMediaBytes)

/-- A media region that goes on behind 32 bits: the running offset wraps and the metadata of the
first frame overwrites the version. -/
def beyondEnd : MediaPlayerShmInfo := ⟨2500, 0, w32 - 4, 100⟩

/-- A metadata region without room for the version, in front of the media region. -/
def noVersion : MediaPlayerShmInfo := ⟨0, 0, 0, 100⟩

theorem not_confined : twoMessages.Lawful ∧
    (InRange beyondEnd ∧ RegionsApart beyondEnd ∧
      ¬Confined twoMessages (fun _ => 0) beyondEnd [clearSegment]) ∧
    InRange noVersion ∧ RegionsApart noVersion ∧
      ¬Confined twoMessages (fun _ => 0) noVersion [clearSegment] := by
  refine ⟨twoMessages_lawful, ⟨⟨by decide, by decide, by decide, by decide⟩, ?_, ?_⟩,
    ⟨by decide, by decide, by decide, by decide⟩, ?_, ?_⟩
  · intro a _ ha
    simp only [beyondEnd, w32] at ha ⊢
    omega
  · intro h
    have hversion := h.version [clearSegment] [] rfl
    revert hversion
    decide +kernel
  · intro a _ ha
    simp only [noVersion] at ha
    omega
  · intro h
    have hversion := h.version [clearSegment] [] rfl
    revert hversion
    decide +kernel

end Rialto.Media.WriterV2
