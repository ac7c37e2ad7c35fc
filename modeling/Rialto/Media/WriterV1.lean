import Rialto.Media.FrameWriter

/-! # Where the writer of version 1 writes

`writeFrameV1` copies bytes to the shared memory in three stages: the generic metadata, the data and
the metadata of the type of the segment, each after a check of its own. `metadataWrites` and
`mediaWrites` are the copies of a call, with the offsets that the code computes in 32 bits.

* `writeFrameV1_cases`: how far a call gets, and what it leaves.
* `shmBuffer_writeFrameV1`: the memory after a call is the one before with exactly these copies.
* `confined_iff`: when a sequence of calls stays inside its two regions. -/

namespace Rialto.Media.WriterV1

open Rialto.Lib.Endian Rialto.Lib.Memory Rialto.Lib.Word Rialto.Media.Segment Rialto.Media.Frames
  Rialto.Media.FrameWriter

/-! ## How far a call gets -/

/-- The check of the metadata space, on a sum of 32 bits. -/
def HasMetadataSpace (w : MediaFrameWriterV1) : Prop :=
  add32 w.metadataBytesWritten metadataV1SizePerFrameBytes ≤ w.maxMetadataBytes

/-- The check of the media space, on a sum of 32 bits. -/
def HasMediaSpace (w : MediaFrameWriterV1) (data : MediaSegment) : Prop :=
  add32 w.mediaBytesWritten data.data.length ≤ w.maxMediaBytes

instance (w : MediaFrameWriterV1) : Decidable (HasMetadataSpace w) :=
  inferInstanceAs (Decidable (_ ≤ _))

instance (w : MediaFrameWriterV1) (data : MediaSegment) : Decidable (HasMediaSpace w data) :=
  inferInstanceAs (Decidable (_ ≤ _))

/-- The fields that `writeMetaDataTypeSpecific` writes; none if the class of the segment is not the
one for its type. -/
def typeFields (data : MediaSegment) : Option (List (List UInt8)) :=
  match data.type, data.fields with
  | .audio, .audio sampleRate channels =>
    some [leBytes 4 sampleRate.toUInt32.toNat, leBytes 4 channels.toUInt32.toNat]
  | .video, .video width height =>
    some [leBytes 4 width.toUInt32.toNat, leBytes 4 height.toUInt32.toNat]
  | _, _ => none

/-- The generic metadata is written, and the encryption section skipped. -/
def genericWritten (w : MediaFrameWriterV1) (data : MediaSegment) : MediaFrameWriterV1 :=
  let w := (genericFields w.mediaDataOffset data).foldl MediaFrameWriterV1.put w
  let w := w.fillZero (extraDataFill data)
  { w with metadataOffset := add32 w.metadataOffset encryptionMetadataSizeBytes }

/-- The data is written. -/
def dataWritten (w : MediaFrameWriterV1) (data : MediaSegment) : MediaFrameWriterV1 :=
  { w with
    shmBuffer := write w.shmBuffer w.mediaDataOffset data.data
    mediaDataOffset := add32 w.mediaDataOffset data.data.length
    mediaBytesWritten := add32 w.mediaBytesWritten data.data.length }

/-- The type specific metadata is written, and the frame counted. -/
def frameWritten (w : MediaFrameWriterV1) (fields : List (List UInt8)) : MediaFrameWriterV1 :=
  let w := fields.foldl MediaFrameWriterV1.put w
  { w with
    numFrames := add32 w.numFrames 1
    metadataBytesWritten := add32 w.metadataBytesWritten metadataV1SizePerFrameBytes }

theorem writeMetaDataGeneric_eq (w : MediaFrameWriterV1) (data : MediaSegment) :
    writeMetaDataGeneric w data =
      if HasMetadataSpace w then (true, genericWritten w data) else (false, w) := by
  unfold writeMetaDataGeneric
  by_cases h : HasMetadataSpace w
  · rw [if_pos h, if_neg (Nat.not_lt.mpr h)]
    rfl
  · rw [if_neg h, if_pos (Nat.lt_of_not_le h)]

theorem writeData_eq (w : MediaFrameWriterV1) (data : MediaSegment) :
    writeData w data = if HasMediaSpace w data then (true, dataWritten w data) else (false, w) := by
  unfold writeData
  by_cases h : HasMediaSpace w data
  · rw [if_pos h, if_neg (Nat.not_lt.mpr h)]
    rfl
  · rw [if_neg h, if_pos (Nat.lt_of_not_le h)]

theorem writeMetaDataTypeSpecific_eq (w : MediaFrameWriterV1) (data : MediaSegment) :
    writeMetaDataTypeSpecific w data = match typeFields data with
      | some fields => (true, fields.foldl MediaFrameWriterV1.put w)
      | none => (false, w) := by
  unfold writeMetaDataTypeSpecific typeFields
  rcases data.type with _ | _ | _ <;> rcases data.fields with _ | _ | _ <;> rfl

/-! ## The copies of a call -/

/-- The copies of fields written one after the other, each at the offset that the one before it
returned. -/
def placed : ℕ → List (List UInt8) → List (ℕ × List UInt8)
  | _, [] => []
  | off, bytes :: rest => (off, bytes) :: placed (add32 off bytes.length) rest

/-- The offset behind them. -/
def offsetAfter : ℕ → List (List UInt8) → ℕ
  | off, [] => off
  | off, bytes :: rest => offsetAfter (add32 off bytes.length) rest

/-- The memory after some copies. -/
def applyWrites (shm : Mem UInt8) (writes : List (ℕ × List UInt8)) : Mem UInt8 :=
  writes.foldl (fun shm copy => write shm copy.1 copy.2) shm

/-- All generic fields, with the bytes that fill up the extra data. -/
def allGenericFields (mediaDataOffset : ℕ) (data : MediaSegment) : List (List UInt8) :=
  genericFields mediaDataOffset data ++ [List.replicate (extraDataFill data) 0]

/-- Where the type specific metadata goes. -/
def typeOffset (w : MediaFrameWriterV1) (data : MediaSegment) : ℕ :=
  add32 (offsetAfter w.metadataOffset (allGenericFields w.mediaDataOffset data))
    encryptionMetadataSizeBytes

/-- The copies that the first stage of a call makes. -/
def genericWrites (w : MediaFrameWriterV1) (data : MediaSegment) : List (ℕ × List UInt8) :=
  if HasMetadataSpace w then placed w.metadataOffset (allGenericFields w.mediaDataOffset data)
  else []

/-- The copies of the second stage. -/
def mediaWrites (w : MediaFrameWriterV1) (data : MediaSegment) : List (ℕ × List UInt8) :=
  if HasMetadataSpace w ∧ HasMediaSpace w data then [(w.mediaDataOffset, data.data)] else []

/-- The copies of the third stage. -/
def typeWrites (w : MediaFrameWriterV1) (data : MediaSegment) : List (ℕ × List UInt8) :=
  if HasMetadataSpace w ∧ HasMediaSpace w data then
    placed (typeOffset w data) ((typeFields data).getD [])
  else []

/-- The copies of a call to the metadata region. -/
def metadataWrites (w : MediaFrameWriterV1) (data : MediaSegment) : List (ℕ × List UInt8) :=
  genericWrites w data ++ typeWrites w data

theorem foldl_put (fields : List (List UInt8)) : ∀ w : MediaFrameWriterV1,
    fields.foldl MediaFrameWriterV1.put w = { w with
      shmBuffer := applyWrites w.shmBuffer (placed w.metadataOffset fields)
      metadataOffset := offsetAfter w.metadataOffset fields } := by
  induction fields with
  | nil => exact fun w => rfl
  | cons bytes rest ih => exact fun w => ih (w.put bytes)

theorem fillZero_eq (w : MediaFrameWriterV1) (count : ℕ) :
    w.fillZero count = w.put (List.replicate count 0) := by
  simp [MediaFrameWriterV1.fillZero, MediaFrameWriterV1.put, fill]

theorem genericWritten_eq (w : MediaFrameWriterV1) (data : MediaSegment) :
    genericWritten w data = { w with
      shmBuffer := applyWrites w.shmBuffer
        (placed w.metadataOffset (allGenericFields w.mediaDataOffset data))
      metadataOffset := typeOffset w data } := by
  have h : ((genericFields w.mediaDataOffset data).foldl MediaFrameWriterV1.put w).fillZero
      (extraDataFill data) =
        (allGenericFields w.mediaDataOffset data).foldl MediaFrameWriterV1.put w := by
    rw [fillZero_eq, allGenericFields, List.foldl_append]
    rfl
  have hskip : genericWritten w data = (fun w : MediaFrameWriterV1 =>
      { w with metadataOffset := add32 w.metadataOffset encryptionMetadataSizeBytes })
      (((genericFields w.mediaDataOffset data).foldl MediaFrameWriterV1.put w).fillZero
        (extraDataFill data)) := rfl
  rw [hskip, h, foldl_put]
  rfl

/-- **How far a call gets**: no metadata space, no media space, a wrong class, or to the end. -/
theorem writeFrameV1_cases (w : MediaFrameWriterV1) (data : MediaSegment) :
    (¬HasMetadataSpace w ∧ writeFrameV1 w data = (w, .noSpace)) ∨
    (HasMetadataSpace w ∧ ¬HasMediaSpace w data ∧
      writeFrameV1 w data = (genericWritten w data, .noSpace)) ∨
    (HasMetadataSpace w ∧ HasMediaSpace w data ∧ typeFields data = none ∧
      writeFrameV1 w data = (dataWritten (genericWritten w data) data, .error)) ∨
    (∃ fields, HasMetadataSpace w ∧ HasMediaSpace w data ∧ typeFields data = some fields ∧
      writeFrameV1 w data =
        (frameWritten (dataWritten (genericWritten w data) data) fields, .ok)) := by
  have hsame : HasMediaSpace (genericWritten w data) data ↔ HasMediaSpace w data := by
    rw [genericWritten_eq]
    exact Iff.rfl
  unfold writeFrameV1
  rw [writeMetaDataGeneric_eq]
  generalize genericWritten w data = w1 at hsame ⊢
  by_cases h1 : HasMetadataSpace w
  · rw [if_pos h1]
    simp only [writeData_eq]
    by_cases h2 : HasMediaSpace w data
    · rw [if_pos (hsame.mpr h2)]
      simp only [writeMetaDataTypeSpecific_eq]
      cases h3 : typeFields data with
      | none => exact Or.inr (Or.inr (Or.inl ⟨h1, h2, rfl, rfl⟩))
      | some fields => exact Or.inr (Or.inr (Or.inr ⟨fields, h1, h2, rfl, rfl⟩))
    · rw [if_neg (mt hsame.mp h2)]
      exact Or.inr (Or.inl ⟨h1, h2, rfl⟩)
  · rw [if_neg h1]
    exact Or.inl ⟨h1, rfl⟩

theorem length_of_typeFields {data : MediaSegment} {fields : List (List UInt8)}
    (h : typeFields data = some fields) : ∃ a b, fields = [a, b] ∧ a.length = 4 ∧ b.length = 4 := by
  unfold typeFields at h
  split at h
  · cases h
    exact ⟨_, _, rfl, length_leBytes _ _, length_leBytes _ _⟩
  · cases h
    exact ⟨_, _, rfl, length_leBytes _ _, length_leBytes _ _⟩
  · cases h

/-- **The copies of a call are all that it does to the memory.** -/
theorem shmBuffer_writeFrameV1 (w : MediaFrameWriterV1) (data : MediaSegment) :
    (writeFrameV1 w data).1.shmBuffer = applyWrites w.shmBuffer
      (genericWrites w data ++ mediaWrites w data ++ typeWrites w data) := by
  obtain ⟨h1, heq⟩ | ⟨h1, h2, heq⟩ | ⟨h1, h2, h3, heq⟩ | ⟨fields, h1, h2, h3, heq⟩ :=
    writeFrameV1_cases w data
  · simp [heq, genericWrites, mediaWrites, typeWrites, h1, applyWrites]
  · simp [heq, genericWrites, mediaWrites, typeWrites, h1, h2, genericWritten_eq]
  · simp [heq, genericWrites, mediaWrites, typeWrites, h1, h2, h3, genericWritten_eq, dataWritten,
      applyWrites, placed]
  · simp [heq, genericWrites, mediaWrites, typeWrites, h1, h2, h3, genericWritten_eq, dataWritten,
      applyWrites, frameWritten, foldl_put]

/-! ## Copies inside a region -/

/-- The copy changes bytes from `lo` on and before `hi` only. -/
def Inside (lo hi : ℕ) (copy : ℕ × List UInt8) : Prop :=
  ∀ a, copy.1 ≤ a → a < copy.1 + copy.2.length → lo ≤ a ∧ a < hi

theorem inside_iff {lo hi off : ℕ} {bytes : List UInt8} :
    Inside lo hi (off, bytes) ↔ bytes.length = 0 ∨ lo ≤ off ∧ off + bytes.length ≤ hi := by
  constructor
  · intro h
    by_cases h0 : bytes.length = 0
    · exact Or.inl h0
    · have hfirst := h off (Nat.le_refl _) (by dsimp only; omega)
      have hlast := h (off + bytes.length - 1) (by dsimp only; omega) (by dsimp only; omega)
      exact Or.inr ⟨hfirst.1, by omega⟩
  · rintro (h | ⟨h1, h2⟩) a ha ha'
    · dsimp only at ha ha'
      omega
    · dsimp only at ha ha'
      omega

theorem Inside.mono {lo hi lo' hi' : ℕ} {copy : ℕ × List UInt8} (h : Inside lo hi copy)
    (hlo : lo' ≤ lo) (hhi : hi ≤ hi') : Inside lo' hi' copy :=
  fun a ha ha' => ⟨Nat.le_trans hlo (h a ha ha').1, Nat.lt_of_lt_of_le (h a ha ha').2 hhi⟩

/-- Where the last field starts that is not empty. -/
def lastStart : ℕ → List (List UInt8) → ℕ
  | off, [] => off
  | off, bytes :: rest =>
    if rest.flatten.length = 0 then off else lastStart (off + bytes.length) rest

theorem le_lastStart (fields : List (List UInt8)) : ∀ off, off ≤ lastStart off fields := by
  induction fields with
  | nil => exact fun off => Nat.le_refl _
  | cons bytes rest ih =>
    intro off
    unfold lastStart
    split_ifs
    · exact Nat.le_refl _
    · exact Nat.le_trans (Nat.le_add_right _ _) (ih _)

/-- Copies of nothing are inside every region. -/
theorem placed_inside_of_empty (lo hi : ℕ) (fields : List (List UInt8)) : ∀ off,
    fields.flatten.length = 0 → ∀ copy ∈ placed off fields, Inside lo hi copy := by
  induction fields with
  | nil => simp [placed]
  | cons bytes rest ih =>
    intro off h
    rw [List.flatten_cons, List.length_append] at h
    exact List.forall_mem_cons.mpr ⟨inside_iff.mpr (Or.inl (by omega)), ih _ (by omega)⟩

/-- **Fields in a region** that may go on behind 32 bits. A copy does not wrap, but the offset
behind it does, so the last field that is not empty must start before 32 bits end. -/
theorem placed_inside_iff {lo hi : ℕ} (hhi : hi < lo + w32) (fields : List (List UInt8)) :
    ∀ {off : ℕ}, off < w32 → ((∀ copy ∈ placed off fields, Inside lo hi copy) ↔
      fields.flatten.length = 0 ∨
        lo ≤ off ∧ off + fields.flatten.length ≤ hi ∧ lastStart off fields < w32) := by
  induction fields with
  | nil => simp [placed]
  | cons bytes rest ih =>
    intro off hoff
    have hnext : add32 off bytes.length < w32 := Nat.mod_lt _ (by decide)
    simp only [placed, List.forall_mem_cons, inside_iff, List.flatten_cons, List.length_append,
      lastStart]
    by_cases hrest : rest.flatten.length = 0
    · have hempty := placed_inside_of_empty lo hi rest (add32 off bytes.length) hrest
      rw [if_pos hrest, hrest, and_iff_left hempty]
      omega
    · rw [if_neg hrest, ih hnext]
      by_cases hend : off + bytes.length < w32
      · rw [add32_of_lt hend]
        omega
      · -- the next field starts in front of the region
        have hlast := le_lastStart rest (off + bytes.length)
        have hwrap : add32 off bytes.length = (off + bytes.length) % w32 := rfl
        simp only [w32] at hhi hoff hend hlast hwrap ⊢
        omega

theorem offsetAfter_eq (fields : List (List UInt8)) : ∀ {off : ℕ}, off < w32 →
    offsetAfter off fields = (off + fields.flatten.length) % w32 := by
  induction fields with
  | nil => exact fun h => (Nat.mod_eq_of_lt h).symm
  | cons bytes rest ih =>
    intro off _
    have hnext : add32 off bytes.length < w32 := Nat.mod_lt _ (by decide)
    rw [offsetAfter, ih hnext, List.flatten_cons, List.length_append]
    simp only [add32, w32]
    omega

theorem length_allGenericFields (off : ℕ) (data : MediaSegment) :
    (allGenericFields off data).flatten.length =
      32 + data.extraData.length + extraDataFill data := by
  simp only [allGenericFields, genericFields, List.cons_append, List.nil_append,
    List.flatten_cons, List.flatten_nil, List.length_append, length_leBytes, List.length_replicate,
    List.length_nil]
  omega

/-- Extra data that fits its field is filled up to 32 bytes. -/
theorem length_generic_of_le {data : MediaSegment} (off : ℕ)
    (h : data.extraData.length ≤ maxExtraDataSize) :
    (allGenericFields off data).flatten.length = 64 := by
  rw [length_allGenericFields]
  simp only [extraDataFill, sizeValues, maxExtraDataSize] at h ⊢
  omega

/-- The last of the generic fields is the fill, or the extra data that leaves nothing to fill. -/
theorem lastStart_generic {data : MediaSegment} (off off' : ℕ)
    (h : data.extraData.length ≤ maxExtraDataSize) :
    lastStart off (allGenericFields off' data) = off + 32 + data.extraData.length % 32 := by
  have hfill : extraDataFill data = 32 - data.extraData.length := by
    simp only [extraDataFill, sizeValues, maxExtraDataSize] at h ⊢
    omega
  simp only [allGenericFields, genericFields, List.cons_append, List.nil_append, lastStart,
    List.flatten_cons, List.flatten_nil, List.length_append, length_leBytes, List.length_replicate,
    List.length_nil, hfill]
  simp only [maxExtraDataSize] at h
  split_ifs <;> omega

/-- Extra data that does not fit makes the fill larger than any buffer. -/
theorem lt_length_generic {data : MediaSegment} (off : ℕ)
    (h : maxExtraDataSize < data.extraData.length) :
    w32 + w32 < (allGenericFields off data).flatten.length := by
  rw [length_allGenericFields]
  simp only [extraDataFill, sizeValues, maxExtraDataSize, w32] at h ⊢
  omega

theorem typeOffset_eq {w : MediaFrameWriterV1} {data : MediaSegment}
    (hoff : w.metadataOffset < w32) (h : data.extraData.length < sizeValues) :
    typeOffset w data = (w.metadataOffset + 96) % w32 := by
  unfold typeOffset
  rw [offsetAfter_eq _ hoff, length_allGenericFields]
  simp only [add32, encryptionMetadataSizeBytes, extraDataFill, maxExtraDataSize, sizeValues, w32]
    at h ⊢
  omega

theorem typeOffset_of_le {w : MediaFrameWriterV1} {data : MediaSegment}
    (hoff : w.metadataOffset < w32) (h : data.extraData.length ≤ maxExtraDataSize) :
    typeOffset w data = (w.metadataOffset + 96) % w32 :=
  typeOffset_eq hoff (Nat.lt_of_le_of_lt h (by decide))

/-! ## Confinement -/

/-- The description of the regions consists of numbers of 32 bits. -/
structure InRange (info : MediaPlayerShmInfo) : Prop where
  maxMetadataBytes : info.maxMetadataBytes < w32
  metadataOffset : info.metadataOffset < w32
  mediaDataOffset : info.mediaDataOffset < w32
  maxMediaBytes : info.maxMediaBytes < w32

/-- The writer after some calls. -/
def after (w : MediaFrameWriterV1) (datas : List MediaSegment) : MediaFrameWriterV1 :=
  datas.foldl (fun w data => (writeFrameV1 w data).1) w

theorem after_snoc (w : MediaFrameWriterV1) (datas : List MediaSegment) (data : MediaSegment) :
    after w (datas ++ [data]) = (writeFrameV1 (after w datas) data).1 := by
  simp [after]

/-- The byte counters of the two regions are within their limits. -/
def CountersKept (info : MediaPlayerShmInfo) (w : MediaFrameWriterV1) : Prop :=
  w.metadataBytesWritten ≤ info.maxMetadataBytes ∧ w.mediaBytesWritten ≤ info.maxMediaBytes

/-- A call writes inside the two regions, its frame takes 104 bytes of metadata if it is accepted,
and the counters stay within their limits. -/
structure CallConfined (info : MediaPlayerShmInfo) (w : MediaFrameWriterV1) (data : MediaSegment) :
    Prop where
  metadata : ∀ copy ∈ metadataWrites w data, Inside info.metadataOffset
    (info.metadataOffset + info.maxMetadataBytes) copy
  media : ∀ copy ∈ mediaWrites w data, Inside info.mediaDataOffset
    (info.mediaDataOffset + info.maxMediaBytes) copy
  frame : (writeFrameV1 w data).2 = .ok →
    (∀ copy ∈ metadataWrites w data,
      Inside w.metadataOffset (w.metadataOffset + metadataV1SizePerFrameBytes) copy) ∧
    (writeFrameV1 w data).1.metadataOffset = add32 w.metadataOffset metadataV1SizePerFrameBytes
  counters : CountersKept info (writeFrameV1 w data).1

/-- The copies of the constructor. -/
def createWrites (info : MediaPlayerShmInfo) : List (ℕ × List UInt8) :=
  [(info.metadataOffset, List.replicate info.maxMetadataBytes 0),
    (info.metadataOffset, leBytes 4 1)]

theorem shmBuffer_createWriterV1 (shm : Mem UInt8) (info : MediaPlayerShmInfo) :
    (createWriterV1 shm info).shmBuffer = applyWrites shm (createWrites info) := rfl

/-- **Confinement** of the constructor and of every call of a sequence. -/
structure Confined (shm : Mem UInt8) (info : MediaPlayerShmInfo) (datas : List MediaSegment) :
    Prop where
  created : (∀ copy ∈ createWrites info, Inside info.metadataOffset
    (info.metadataOffset + info.maxMetadataBytes) copy) ∧
    CountersKept info (createWriterV1 shm info)
  calls : ∀ pre data post, datas = pre ++ data :: post →
    CallConfined info (after (createWriterV1 shm info) pre) data

/-- **The condition on a call.** If it passes the check of the metadata space, the extra data fits
its field and the generic metadata the region; if it passes the check of the media space too, the
data fits its region and, with a class for its type, the whole frame the metadata region. Where the
metadata region goes on behind 32 bits, the last field starts before they end. -/
def Fits (info : MediaPlayerShmInfo) (w : MediaFrameWriterV1) (data : MediaSegment) : Prop :=
  HasMetadataSpace w →
    data.extraData.length ≤ maxExtraDataSize ∧ info.metadataOffset ≤ w.metadataOffset ∧
    w.metadataOffset + 64 ≤ info.metadataOffset + info.maxMetadataBytes ∧
    w.metadataOffset + 32 + data.extraData.length % 32 < w32 ∧
    (HasMediaSpace w data →
      (data.data.length = 0 ∨ info.mediaDataOffset ≤ w.mediaDataOffset ∧
        w.mediaDataOffset + data.data.length ≤ info.mediaDataOffset + info.maxMediaBytes) ∧
      (typeFields data ≠ none →
        w.metadataOffset + metadataV1SizePerFrameBytes ≤
          info.metadataOffset + info.maxMetadataBytes ∧ w.metadataOffset + 100 < w32))

/-- What every call keeps. -/
structure Kept (info : MediaPlayerShmInfo) (w : MediaFrameWriterV1) : Prop where
  maxMetadataBytes : w.maxMetadataBytes = info.maxMetadataBytes
  maxMediaBytes : w.maxMediaBytes = info.maxMediaBytes
  metadataOffset : w.metadataOffset < w32
  counters : CountersKept info w

section confinement

variable {shm : Mem UInt8} {info : MediaPlayerShmInfo} {w : MediaFrameWriterV1}
  {data : MediaSegment}

theorem offsetAfter_lt (fields : List (List UInt8)) {off : ℕ} (h : off < w32) :
    offsetAfter off fields < w32 := by
  rw [offsetAfter_eq _ h]
  exact Nat.mod_lt _ (by decide)

theorem typeOffset_lt (w : MediaFrameWriterV1) (data : MediaSegment) : typeOffset w data < w32 :=
  Nat.mod_lt _ (by decide)

theorem kept_writeFrameV1 (h : Kept info w) (data : MediaSegment) :
    Kept info (writeFrameV1 w data).1 := by
  obtain ⟨hmeta, hmedia⟩ := h.counters
  obtain ⟨h1, heq⟩ | ⟨h1, h2, heq⟩ | ⟨h1, h2, h3, heq⟩ | ⟨fields, h1, h2, h3, heq⟩ :=
    writeFrameV1_cases w data
  · rw [heq]
    exact h
  · rw [heq, genericWritten_eq]
    exact ⟨h.maxMetadataBytes, h.maxMediaBytes, typeOffset_lt w data, hmeta, hmedia⟩
  · rw [heq, genericWritten_eq]
    exact ⟨h.maxMetadataBytes, h.maxMediaBytes, typeOffset_lt w data, hmeta,
      h.maxMediaBytes ▸ h2⟩
  · rw [heq, genericWritten_eq, frameWritten, foldl_put]
    exact ⟨h.maxMetadataBytes, h.maxMediaBytes, offsetAfter_lt fields (typeOffset_lt w data),
      h.maxMetadataBytes ▸ h1, h.maxMediaBytes ▸ h2⟩

theorem kept_after (datas : List MediaSegment) : ∀ {w : MediaFrameWriterV1}, Kept info w →
    Kept info (after w datas) := by
  induction datas with
  | nil => exact fun h => h
  | cons data rest ih => exact fun h => ih (kept_writeFrameV1 h data)

/-! ### The three stages -/

theorem genericWrites_inside_iff (hinfo : InRange info) (hw : Kept info w)
    (h1 : HasMetadataSpace w) :
    (∀ copy ∈ genericWrites w data, Inside info.metadataOffset
      (info.metadataOffset + info.maxMetadataBytes) copy) ↔
    data.extraData.length ≤ maxExtraDataSize ∧ info.metadataOffset ≤ w.metadataOffset ∧
      w.metadataOffset + 64 ≤ info.metadataOffset + info.maxMetadataBytes ∧
      w.metadataOffset + 32 + data.extraData.length % 32 < w32 := by
  have hmax := hinfo.maxMetadataBytes
  rw [genericWrites, if_pos h1,
    placed_inside_iff (Nat.add_lt_add_left hmax _) _ hw.metadataOffset]
  by_cases hextra : data.extraData.length ≤ maxExtraDataSize
  · rw [length_generic_of_le _ hextra, lastStart_generic _ _ hextra]
    omega
  · have hlong := lt_length_generic w.mediaDataOffset (Nat.lt_of_not_le hextra)
    have hoff := hinfo.metadataOffset
    omega

/-- The generic metadata of a frame lies in the first 64 of its bytes. -/
theorem genericWrites_inside_frame (hw : Kept info w)
    (hextra : data.extraData.length ≤ maxExtraDataSize)
    (hlast : w.metadataOffset + 32 + data.extraData.length % 32 < w32) :
    ∀ copy ∈ genericWrites w data,
      Inside w.metadataOffset (w.metadataOffset + metadataV1SizePerFrameBytes) copy := by
  intro copy hcopy
  unfold genericWrites at hcopy
  split_ifs at hcopy
  · have hlen := length_generic_of_le w.mediaDataOffset hextra
    have hregion : w.metadataOffset + 64 < w.metadataOffset + w32 :=
      Nat.add_lt_add_left (by decide) _
    have hplaced := (placed_inside_iff hregion _ hw.metadataOffset).mpr
      (Or.inr ⟨Nat.le_refl _, Nat.le_of_eq (congrArg (w.metadataOffset + ·) hlen),
        lastStart_generic _ _ hextra ▸ hlast⟩)
    exact (hplaced copy hcopy).mono (Nat.le_refl _) (Nat.add_le_add_left (by decide) _)
  · cases hcopy

theorem mediaWrites_inside_iff (h1 : HasMetadataSpace w) (h2 : HasMediaSpace w data) :
    (∀ copy ∈ mediaWrites w data, Inside info.mediaDataOffset
      (info.mediaDataOffset + info.maxMediaBytes) copy) ↔
    data.data.length = 0 ∨ info.mediaDataOffset ≤ w.mediaDataOffset ∧
      w.mediaDataOffset + data.data.length ≤ info.mediaDataOffset + info.maxMediaBytes := by
  rw [mediaWrites, if_pos ⟨h1, h2⟩, List.forall_mem_singleton, inside_iff]

/-- The type specific metadata ends the frame, or wraps to the front of the buffer. -/
theorem typeWrites_inside_iff (hinfo : InRange info) (hw : Kept info w) (h1 : HasMetadataSpace w)
    (h2 : HasMediaSpace w data) {fields : List (List UInt8)} (h3 : typeFields data = some fields)
    (hextra : data.extraData.length ≤ maxExtraDataSize)
    (hlo : info.metadataOffset ≤ w.metadataOffset) :
    ((∀ copy ∈ typeWrites w data, Inside info.metadataOffset
        (info.metadataOffset + info.maxMetadataBytes) copy) ∧
      ∀ copy ∈ typeWrites w data,
        Inside w.metadataOffset (w.metadataOffset + metadataV1SizePerFrameBytes) copy) ↔
    w.metadataOffset + metadataV1SizePerFrameBytes ≤
      info.metadataOffset + info.maxMetadataBytes ∧ w.metadataOffset + 100 < w32 := by
  obtain ⟨a, b, rfl, ha, hb⟩ := length_of_typeFields h3
  have hmax := hinfo.maxMetadataBytes
  have hoff := hw.metadataOffset
  rw [typeWrites, if_pos ⟨h1, h2⟩, h3, typeOffset_of_le hoff hextra]
  simp only [Option.getD_some, placed, List.forall_mem_cons, List.not_mem_nil, false_implies,
    implies_true, and_true, inside_iff, ha, hb, add32, metadataV1SizePerFrameBytes, w32]
    at hmax hoff ⊢
  omega

/-- **The condition is what confines a call.** -/
theorem callConfined_iff (hinfo : InRange info) (hw : Kept info w) (data : MediaSegment) :
    CallConfined info w data ↔ Fits info w data := by
  have hkept := (kept_writeFrameV1 hw data).counters
  obtain ⟨h1, heq⟩ | ⟨h1, h2, heq⟩ | ⟨h1, h2, h3, heq⟩ | ⟨fields, h1, h2, h3, heq⟩ :=
    writeFrameV1_cases w data
  · refine iff_of_true ⟨?_, ?_, ?_, hkept⟩ fun h => absurd h h1
    · simp [metadataWrites, genericWrites, typeWrites, h1]
    · simp [mediaWrites, h1]
    · rw [heq]
      exact fun h => by cases h
  · have htype : typeWrites w data = [] := if_neg fun h => h2 h.2
    constructor
    · intro h hspace
      have hmeta := h.metadata
      rw [metadataWrites, htype, List.append_nil, genericWrites_inside_iff hinfo hw h1] at hmeta
      obtain ⟨hextra, hlo, hend, hlast⟩ := hmeta
      exact ⟨hextra, hlo, hend, hlast, fun hmedia => absurd hmedia h2⟩
    · intro h
      obtain ⟨hextra, hlo, hend, hlast, -⟩ := h h1
      refine ⟨?_, ?_, ?_, hkept⟩
      · rw [metadataWrites, htype, List.append_nil, genericWrites_inside_iff hinfo hw h1]
        exact ⟨hextra, hlo, hend, hlast⟩
      · simp [mediaWrites, h2]
      · rw [heq]
        exact fun h => by cases h
  · have htype : typeWrites w data = [] := by
      rw [typeWrites, if_pos ⟨h1, h2⟩, h3]
      rfl
    constructor
    · intro h hspace
      have hmeta := h.metadata
      rw [metadataWrites, htype, List.append_nil, genericWrites_inside_iff hinfo hw h1] at hmeta
      obtain ⟨hextra, hlo, hend, hlast⟩ := hmeta
      exact ⟨hextra, hlo, hend, hlast, fun _ =>
        ⟨(mediaWrites_inside_iff h1 h2).mp h.media, fun hne => absurd h3 hne⟩⟩
    · intro h
      obtain ⟨hextra, hlo, hend, hlast, hmedia⟩ := h h1
      refine ⟨?_, (mediaWrites_inside_iff h1 h2).mpr (hmedia h2).1, ?_, hkept⟩
      · rw [metadataWrites, htype, List.append_nil, genericWrites_inside_iff hinfo hw h1]
        exact ⟨hextra, hlo, hend, hlast⟩
      · rw [heq]
        exact fun h => by cases h
  · have hne : typeFields data ≠ none := by rw [h3]; exact Option.some_ne_none _
    constructor
    · intro h hspace
      have hmeta := List.forall_mem_append.mp h.metadata
      have hframe := List.forall_mem_append.mp (h.frame (by rw [heq])).1
      obtain ⟨hextra, hlo, hend, hlast⟩ := (genericWrites_inside_iff hinfo hw h1).mp hmeta.1
      exact ⟨hextra, hlo, hend, hlast, fun _ =>
        ⟨(mediaWrites_inside_iff h1 h2).mp h.media, fun _ =>
          (typeWrites_inside_iff hinfo hw h1 h2 h3 hextra hlo).mp ⟨hmeta.2, hframe.2⟩⟩⟩
    · intro h
      obtain ⟨hextra, hlo, hend, hlast, hmedia⟩ := h h1
      obtain ⟨htype, htypeFrame⟩ :=
        (typeWrites_inside_iff hinfo hw h1 h2 h3 hextra hlo).mpr ((hmedia h2).2 hne)
      refine ⟨?_, (mediaWrites_inside_iff h1 h2).mpr (hmedia h2).1, fun _ => ⟨?_, ?_⟩, hkept⟩
      · exact List.forall_mem_append.mpr
          ⟨(genericWrites_inside_iff hinfo hw h1).mpr ⟨hextra, hlo, hend, hlast⟩, htype⟩
      · exact List.forall_mem_append.mpr
          ⟨genericWrites_inside_frame hw hextra hlast, htypeFrame⟩
      · obtain ⟨a, b, rfl, ha, hb⟩ := length_of_typeFields h3
        rw [heq, genericWritten_eq, frameWritten, foldl_put]
        show offsetAfter (typeOffset w data) [a, b] = _
        rw [typeOffset_of_le hw.metadataOffset hextra]
        simp only [offsetAfter, add32, ha, hb, metadataV1SizePerFrameBytes, w32]
        omega

/-- The constructor stays inside the metadata region that has room for the version. -/
theorem created_iff :
    ((∀ copy ∈ createWrites info, Inside info.metadataOffset
        (info.metadataOffset + info.maxMetadataBytes) copy) ∧
      CountersKept info (createWriterV1 shm info)) ↔ versionSizeBytes ≤ info.maxMetadataBytes := by
  simp only [createWrites, List.forall_mem_cons, List.not_mem_nil, false_implies, implies_true,
    and_true, inside_iff, List.length_replicate, length_leBytes, CountersKept, createWriterV1,
    versionSizeBytes]
  omega

/-- **Confinement.** The writer stays inside its regions exactly when the metadata region has room
for the version and every call meets the condition. -/
theorem confined_iff (shm : Mem UInt8) (hinfo : InRange info) (datas : List MediaSegment) :
    Confined shm info datas ↔
      versionSizeBytes ≤ info.maxMetadataBytes ∧
      ∀ pre data post, datas = pre ++ data :: post →
        Fits info (after (createWriterV1 shm info) pre) data := by
  have hcalls : versionSizeBytes ≤ info.maxMetadataBytes → ∀ pre data,
      (CallConfined info (after (createWriterV1 shm info) pre) data ↔
        Fits info (after (createWriterV1 shm info) pre) data) := by
    intro hversion pre data
    refine callConfined_iff hinfo (kept_after pre ⟨rfl, rfl, ?_, hversion, ?_⟩) data
    · exact Nat.mod_lt _ (by decide)
    · exact Nat.zero_le _
  constructor
  · rintro ⟨hcreated, h⟩
    have hversion := created_iff.mp hcreated
    exact ⟨hversion, fun pre data post heq => (hcalls hversion pre data).mp (h pre data post heq)⟩
  · rintro ⟨hversion, h⟩
    exact ⟨created_iff.mpr hversion, fun pre data post heq =>
      (hcalls hversion pre data).mpr (h pre data post heq)⟩

end confinement

instance (info : MediaPlayerShmInfo) (w : MediaFrameWriterV1) (data : MediaSegment) :
    Decidable (Fits info w data) := inferInstanceAs (Decidable (_ → _))

/-- Regions with room for one frame. -/
def oneFrame : MediaPlayerShmInfo := ⟨108, 0, 108, 8⟩

theorem three_bytes_lt : ([1, 2, 3] : List UInt8).length < w32 := by decide

/-- An audio segment of three bytes. -/
def shortSegment : MediaSegment :=
  { MediaSegment.mk' 1 .audio (.audio 13 2) 10 20 with
    data := [1, 2, 3]
    dataLength_lt := three_bytes_lt }

/-- The second segment finds no space left. -/
theorem confined_one_frame : Confined (fun _ => 0) oneFrame [shortSegment, shortSegment] := by
  refine (confined_iff _ ⟨by decide, by decide, by decide, by decide⟩ _).mpr
    ⟨by decide, fun pre data post h => ?_⟩
  rcases pre with _ | ⟨d, _ | ⟨d', pre⟩⟩
  · cases h
    decide
  · cases h
    decide
  · simp at h

/-- The extra data of a segment is a byte longer than its field: the count of the bytes that fill it
up wraps to almost the size of the address space. -/
theorem long_extra_data_escapes : ¬Confined (fun _ => 0) oneFrame
    [{ shortSegment with extraData := List.replicate 33 7 }] := by
  intro h
  have hw : Kept oneFrame (createWriterV1 (fun _ => 0) oneFrame) :=
    ⟨rfl, rfl, by decide, by decide, by decide⟩
  have hfits := (callConfined_iff ⟨by decide, by decide, by decide, by decide⟩ hw _).mp
    (h.calls [] _ [] rfl)
  exact absurd hfits (by decide)

end Rialto.Media.WriterV1
