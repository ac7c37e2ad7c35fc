import Rialto.Media.FramesV1

/-! # Writing and reading frames of version 1

A call of `writeFrameV1` that fails after its first stage has moved the writer: the frames behind it
are not where the reader looks for them. What the reader returns of accepted frames lacks the id of
the source.

* `Complete`, `atomic_iff`: when failing calls leave the writer and the frames alone.
* `round_trip_iff`: when the reader returns what was written. -/

namespace Rialto.Media.RoundTripV1

open Rialto.Lib.Memory Rialto.Lib.Word Rialto.Media.Segment Rialto.Media.Frames
  Rialto.Media.FrameWriter Rialto.Media.WriterV1 Rialto.Media.FramesV1

/-! ## Failing calls -/

/-- The segments that were accepted in a sequence of calls. -/
def accepted (w : MediaFrameWriterV1) : List MediaSegment → List MediaSegment
  | [] => []
  | data :: rest =>
    if (writeFrameV1 w data).2 = .ok then data :: accepted (writeFrameV1 w data).1 rest
    else accepted (writeFrameV1 w data).1 rest

theorem accepted_snoc (data : MediaSegment) : ∀ (datas : List MediaSegment)
    (w : MediaFrameWriterV1), accepted w (datas ++ [data]) = accepted w datas ++
      if (writeFrameV1 (after w datas) data).2 = .ok then [data] else []
  | [], w => by
    simp only [List.nil_append, accepted]
    rfl
  | d :: datas, w => by
    have ih := accepted_snoc data datas (writeFrameV1 w d).1
    simp only [List.cons_append, accepted, ih]
    split_ifs <;> simp_all [after]

/-- The offsets, the byte counters and the frame count are as they were. -/
structure Unmoved (w w' : MediaFrameWriterV1) : Prop where
  mediaDataOffset : w'.mediaDataOffset = w.mediaDataOffset
  metadataOffset : w'.metadataOffset = w.metadataOffset
  mediaBytesWritten : w'.mediaBytesWritten = w.mediaBytesWritten
  metadataBytesWritten : w'.metadataBytesWritten = w.metadataBytesWritten
  numFrames : w'.numFrames = w.numFrames

/-- **Failing calls are atomic**: they leave the writer as it was, and whenever the region is read,
the reader returns exactly the segments that were accepted before. -/
structure Atomic (info : MediaPlayerShmInfo) (type : MediaSourceType) (shm : Mem UInt8)
    (datas : List MediaSegment) : Prop where
  failed : ∀ pre data post, datas = pre ++ data :: post →
    (writeFrameV1 (after (createWriterV1 shm info) pre) data).2 ≠ .ok →
    Unmoved (after (createWriterV1 shm info) pre)
      (writeFrameV1 (after (createWriterV1 shm info) pre) data).1
  read : ∀ pre post, datas = pre ++ post → ReadsBack SameFrame info type
    (after (createWriterV1 shm info) pre) (accepted (createWriterV1 shm info) pre)

/-- **The condition on a call.** If there is space for the metadata, the segment has the type of the
reader and the class for it, extra data that fits its field, and data that fits the rest of the
media region. -/
def Complete (type : MediaSourceType) (w : MediaFrameWriterV1) (data : MediaSegment) : Prop :=
  HasMetadataSpace w → typeFields data ≠ none ∧ data.type = type ∧
    data.extraData.length ≤ maxExtraDataSize ∧
    w.mediaBytesWritten + data.data.length ≤ w.maxMediaBytes

instance (type : MediaSourceType) (w : MediaFrameWriterV1) (data : MediaSegment) :
    Decidable (Complete type w data) := inferInstanceAs (Decidable (_ → _))

/-- The writer and the frames after calls that meet the condition. -/
structure Good (info : MediaPlayerShmInfo) (type : MediaSourceType) (w : MediaFrameWriterV1)
    (segs : List MediaSegment) : Prop where
  laid : Laid info w segs
  stored : Stored info w segs
  type : ∀ s ∈ segs, s.type = type

section atomic

variable {info : MediaPlayerShmInfo} {w : MediaFrameWriterV1} {segs : List MediaSegment}
  {data : MediaSegment} {type : MediaSourceType}

/-- A call that meets the condition is accepted or changes nothing. -/
theorem good_writeFrameV1 (hp : Placed info) (hg : Good info type w segs)
    (hc : Complete type w data) :
    Good info type (writeFrameV1 w data).1
      (segs ++ if (writeFrameV1 w data).2 = .ok then [data] else []) ∧
    ((writeFrameV1 w data).2 ≠ .ok → (writeFrameV1 w data).1 = w) := by
  have hmax := hg.laid.maxMediaBytes
  have hlt := hp.media_lt
  have hspace : HasMetadataSpace w → HasMediaSpace w data := fun h1 => by
    have hfits := (hc h1).2.2.2
    unfold HasMediaSpace
    rwa [add32_of_lt (by omega)]
  obtain ⟨h1, heq⟩ | ⟨h1, h2, heq⟩ | ⟨h1, h2, h3, heq⟩ | ⟨fields, h1, h2, h3, heq⟩ :=
    writeFrameV1_cases w data
  · rw [heq, if_neg (fun h => by cases h), List.append_nil]
    exact ⟨hg, fun _ => rfl⟩
  · exact absurd (hspace h1) h2
  · exact absurd h3 (hc h1).1
  · obtain ⟨-, htype, hextra, hfits⟩ := hc h1
    rw [heq, if_pos rfl]
    refine ⟨⟨laid_frameWritten hp hg.laid ⟨h1, h2, h3, hextra⟩,
      stored_frameWritten hp hg.laid hg.stored ⟨h1, h2, h3, hextra⟩ (hmax ▸ hfits), ?_⟩,
      fun h => absurd rfl h⟩
    intro s hs
    rcases List.mem_append.mp hs with hs | hs
    · exact hg.type s hs
    · obtain rfl := List.mem_singleton.mp hs
      exact htype

/-- A call that does not meet the condition moves the writer, or the frames are not read back. -/
theorem complete_of_readsBack (hp : Placed info) (hg : Good info type w segs)
    (hsize : data.extraData.length < sizeValues)
    (hfailed : (writeFrameV1 w data).2 ≠ .ok → Unmoved w (writeFrameV1 w data).1)
    (hread : ReadsBack SameFrame info type (writeFrameV1 w data).1
      (segs ++ if (writeFrameV1 w data).2 = .ok then [data] else [])) :
    Complete type w data := by
  have h1 := hp.metadata_le
  have h2 := hp.media_lt
  have hoff := hg.laid.metadataOffset
  have hle := hg.laid.metadata_le
  have hmoved : typeOffset w data ≠ w.metadataOffset := by
    rw [typeOffset_eq (by omega) hsize]
    simp only [w32] at h2 ⊢
    omega
  obtain ⟨h1, heq⟩ | ⟨h1, h2, heq⟩ | ⟨h1, h2, h3, heq⟩ | ⟨fields, h1, h2, h3, heq⟩ :=
    writeFrameV1_cases w data
  · exact fun h => absurd h h1
  · have hsame := (hfailed (by rw [heq]; exact fun h => by cases h)).metadataOffset
    rw [heq, genericWritten_eq] at hsame
    exact absurd hsame hmoved
  · have hsame := (hfailed (by rw [heq]; exact fun h => by cases h)).metadataOffset
    rw [heq, genericWritten_eq] at hsame
    exact absurd hsame hmoved
  · rw [heq, if_pos rfl] at hread
    obtain ⟨b, hb, htype, hextra, -⟩ := readsBack_mem hread
      (List.mem_append_right _ (List.mem_singleton_self data))
    rw [hb.type] at htype
    rw [hb.extraData] at hextra
    have hl := laid_frameWritten hp hg.laid ⟨h1, h2, h3, hextra⟩
    have htypes : ∀ s ∈ segs ++ [data], s.type = type := by
      intro s hs
      rcases List.mem_append.mp hs with hs | hs
      · exact hg.type s hs
      · obtain rfl := List.mem_singleton.mp hs
        exact htype
    have hfits := fits_of_readsBack hp hl htypes (fun a b h => h.data) hread
    rw [total_snoc, ← hg.stored.bytes] at hfits
    refine fun _ => ⟨by rw [h3]; exact Option.some_ne_none _, htype, hextra, ?_⟩
    rw [hg.laid.maxMediaBytes]
    exact hfits

/-- Calls that meet the condition, as long as the ones before them do. -/
theorem good_after (hp : Placed info) (shm : Mem UInt8) {datas : List MediaSegment}
    (hc : ∀ pre data post, datas = pre ++ data :: post →
      Good info type (after (createWriterV1 shm info) pre)
        (accepted (createWriterV1 shm info) pre) →
      Complete type (after (createWriterV1 shm info) pre) data) :
    ∀ pre post, datas = pre ++ post → Good info type (after (createWriterV1 shm info) pre)
      (accepted (createWriterV1 shm info) pre) := by
  intro pre
  induction pre using List.reverseRecOn with
  | nil =>
    intro post _
    obtain ⟨hl, hs⟩ := laid_createWriterV1 hp shm
    exact ⟨hl, hs, fun s hs => by cases hs⟩
  | append_singleton pre data ih =>
    intro post heq
    have heq' : datas = pre ++ data :: post := by
      rw [heq, List.append_assoc, List.singleton_append]
    have hg := ih (data :: post) heq'
    rw [after_snoc, accepted_snoc]
    exact (good_writeFrameV1 hp hg (hc pre data post heq' hg)).1

/-- **Failing calls.** A sequence of calls is atomic exactly when every call meets the condition. -/
theorem atomic_iff (hp : Placed info) (type : MediaSourceType) (shm : Mem UInt8)
    (datas : List MediaSegment) (hsize : ∀ d ∈ datas, d.extraData.length < sizeValues) :
    Atomic info type shm datas ↔ ∀ pre data post, datas = pre ++ data :: post →
      Complete type (after (createWriterV1 shm info) pre) data := by
  constructor
  · intro h
    have hc : ∀ pre data post, datas = pre ++ data :: post →
        Good info type (after (createWriterV1 shm info) pre)
          (accepted (createWriterV1 shm info) pre) →
        Complete type (after (createWriterV1 shm info) pre) data := by
      intro pre data post heq hg
      have hread := h.read (pre ++ [data]) post (by rw [heq, List.append_assoc]; rfl)
      rw [after_snoc, accepted_snoc] at hread
      exact complete_of_readsBack hp hg (hsize data (by rw [heq]; simp))
        (h.failed pre data post heq) hread
    intro pre data post heq
    exact hc pre data post heq (good_after hp shm hc pre (data :: post) heq)
  · intro hc
    have hg := good_after hp shm fun pre data post heq _ => hc pre data post heq
    constructor
    · intro pre data post heq hfailed
      obtain ⟨-, hsame⟩ := good_writeFrameV1 hp (hg pre (data :: post) heq) (hc pre data post heq)
      rw [hsame hfailed]
      exact ⟨rfl, rfl, rfl, rfl, rfl⟩
    · intro pre post heq
      have hpre := hg pre post heq
      exact readsBack_of_stored hp hpre.laid hpre.stored hpre.type fun _ _ _ h => h.toSameFrame

end atomic

theorem placed_oneFrame : Placed oneFrame := ⟨by decide, by decide, by decide, by decide⟩

/-- The second segment finds no space for its metadata. -/
theorem atomic_one_frame : Atomic oneFrame .audio (fun _ => 0) [shortSegment, shortSegment] := by
  refine (atomic_iff placed_oneFrame _ _ _ (by decide)).mpr fun pre data post h => ?_
  rcases pre with _ | ⟨d, _ | ⟨d', pre⟩⟩
  · cases h
    decide
  · cases h
    decide
  · simp at h

/-- A segment of nine bytes finds no space in the media region after its generic metadata was
written: the next frame starts 96 bytes too far. -/
theorem no_media_space_moves : ¬Atomic oneFrame .audio (fun _ => 0)
    [{ shortSegment with data := List.replicate 9 7, dataLength_lt := by decide }] := fun h =>
  absurd (h.failed [] _ [] rfl (by decide)).metadataOffset (by decide)

/-! ## The round trip -/

section roundTrip

variable {info : MediaPlayerShmInfo} {segs : List MediaSegment} {type : MediaSourceType}

/-- All calls of a sequence return OK. -/
def AllAccepted (w : MediaFrameWriterV1) (segs : List MediaSegment) : Prop :=
  ∀ pre data post, segs = pre ++ data :: post → (writeFrameV1 (after w pre) data).2 = .ok

theorem acceptable_of_ok {w : MediaFrameWriterV1} {data : MediaSegment}
    (h : (writeFrameV1 w data).2 = .ok) (hextra : data.extraData.length ≤ maxExtraDataSize) :
    ∃ fields, Acceptable w data fields ∧ (writeFrameV1 w data).1 =
      frameWritten (dataWritten (genericWritten w data) data) fields := by
  obtain ⟨h1, heq⟩ | ⟨h1, h2, heq⟩ | ⟨h1, h2, h3, heq⟩ | ⟨fields, h1, h2, h3, heq⟩ :=
    writeFrameV1_cases w data
  · rw [heq] at h
    cases h
  · rw [heq] at h
    cases h
  · rw [heq] at h
    cases h
  · exact ⟨fields, ⟨h1, h2, h3, hextra⟩, by rw [heq]⟩

/-- Accepted segments are laid out, and stored as long as their data does not wrap. -/
theorem laid_after (hp : Placed info) (shm : Mem UInt8)
    (hok : AllAccepted (createWriterV1 shm info) segs)
    (hextra : ∀ s ∈ segs, s.extraData.length ≤ maxExtraDataSize) :
    ∀ pre post, segs = pre ++ post → Laid info (after (createWriterV1 shm info) pre) pre ∧
      (total pre ≤ info.maxMediaBytes →
        Stored info (after (createWriterV1 shm info) pre) pre) := by
  intro pre
  induction pre using List.reverseRecOn with
  | nil =>
    obtain ⟨hl, hs⟩ := laid_createWriterV1 hp shm
    exact fun _ _ => ⟨hl, fun _ => hs⟩
  | append_singleton pre data ih =>
    intro post heq
    have heq' : segs = pre ++ data :: post := by
      rw [heq, List.append_assoc, List.singleton_append]
    obtain ⟨hl, hs⟩ := ih (data :: post) heq'
    obtain ⟨fields, ha, hw⟩ := acceptable_of_ok (hok pre data post heq')
      (hextra data (by rw [heq']; simp))
    rw [after_snoc, hw]
    refine ⟨laid_frameWritten hp hl ha, fun htotal => ?_⟩
    rw [total_snoc] at htotal
    have hs := hs (by omega)
    exact stored_frameWritten hp hl hs ha (by rw [hs.bytes]; exact htotal)

/-- **The round trip.** Clear segments of one type that were all accepted are read back exactly when
their source id is 0 and the sum of their lengths fits the region without wrapping. -/
theorem round_trip_iff (hp : Placed info) (shm : Mem UInt8)
    (hok : AllAccepted (createWriterV1 shm info) segs)
    (htype : ∀ s ∈ segs, s.type = type) (hclear : ∀ s ∈ segs, s.encrypted = false)
    (hextra : ∀ s ∈ segs, s.extraData.length ≤ maxExtraDataSize) :
    ReadsBack SameSourceFrame info type (after (createWriterV1 shm info) segs) segs ↔
      (∀ s ∈ segs, s.sourceId = 0) ∧ total segs ≤ info.maxMediaBytes := by
  obtain ⟨hl, hs⟩ := laid_after hp shm hok hextra segs [] (List.append_nil segs).symm
  constructor
  · intro h
    refine ⟨fun s hmem => ?_, fits_of_readsBack hp hl htype (fun _ _ h => h.data) h⟩
    obtain ⟨b, hb, -, -, hzero⟩ := readsBack_mem h hmem
    rw [← hb.sourceId, hzero]
  · rintro ⟨hzero, htotal⟩
    refine readsBack_of_stored hp hl (hs htotal) htype fun a ha b hb => ⟨hb.toSameFrame, ?_, ?_⟩
    · rw [hb.sourceId, hzero a ha]
    · rw [hb.encrypted, hclear a ha]

end roundTrip

/-- A segment of source 0. -/
theorem round_trip_source_zero : ReadsBack SameSourceFrame oneFrame .audio
    (after (createWriterV1 (fun _ => 0) oneFrame) [{ shortSegment with sourceId := 0 }])
    [{ shortSegment with sourceId := 0 }] := by
  refine (round_trip_iff placed_oneFrame _ ?_ (by decide) (by decide) (by decide)).mpr
    ⟨by decide, by decide⟩
  intro pre data post h
  rcases pre with _ | ⟨d, pre⟩
  · cases h
    decide
  · simp at h

/-- A segment of source 1 is accepted, and not read back. -/
theorem source_one_lost :
    (writeFrameV1 (createWriterV1 (fun _ => 0) oneFrame) shortSegment).2 = .ok ∧
    ¬ReadsBack SameSourceFrame oneFrame .audio
      (after (createWriterV1 (fun _ => 0) oneFrame) [shortSegment]) [shortSegment] := by
  refine ⟨by decide, fun h => ?_⟩
  obtain ⟨b, hb, -, -, hzero⟩ := readsBack_mem h (List.mem_singleton_self shortSegment)
  rw [hb.sourceId] at hzero
  exact absurd hzero (by decide)

end Rialto.Media.RoundTripV1
