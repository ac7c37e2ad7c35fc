import Rialto.Client.MediaPipeline
import Rialto.Lib.Runs
import Rialto.Media.WriterV2
import Rialto.Player.SubSamples
import Rialto.Shm.Contents

/-! # The data path

The client writes the segments of a request into the region that the server has described for it,
the server reads them after it has got the answer. Both work on one shared memory, in which every
request of every source has its region, and between the last write for a request and the read of it
there is any number of steps of the client for other requests; the server clears a region before it
asks for data in it.

* `State`: the client, the segments that `addSegment` has accepted for each request, and the
  answers that the server has not read.
* `Meets`: no segment is added to a request, and no region is cleared, where data of another
  request is held.
* `Inv`: the region of a request in the map holds the segments accepted for it, and that of an
  answer the segments that were answered with; `step_inv`: every step keeps it.
* `data_path`: whatever was done in between, the reader returns the segments of the answer, and the
  player does with them what it would do with those of the client. -/

namespace Rialto.Link.DataPath

open Rialto.Lib.Endian Rialto.Lib.Memory Rialto.Lib.OrdMap Rialto.Lib.Runs Rialto.Lib.Word
open Rialto.Media.Segment Rialto.Media.Frames Rialto.Media.FramesV2 Rialto.Media.FrameWriter
open Rialto.Media.WriterV1 (Inside inside_iff applyWrites InRange)
open Rialto.Client.MediaPipeline (Env NeedDataRequest Call withKeyId)
open Rialto.Player.SubSamples (toSegment)

/-! ## Regions -/

/-- The byte belongs to the metadata or to the data of the request. -/
def Within (shmInfo : MediaPlayerShmInfo) (a : ℕ) : Prop :=
  shmInfo.metadataOffset ≤ a ∧
    a < shmInfo.metadataOffset + shmInfo.maxMetadataBytes + shmInfo.maxMediaBytes

/-- The regions have no byte in common. -/
def Apart (shmInfo shmInfo' : MediaPlayerShmInfo) : Prop :=
  shmInfo.metadataOffset + shmInfo.maxMetadataBytes + shmInfo.maxMediaBytes ≤
      shmInfo'.metadataOffset ∨
    shmInfo'.metadataOffset + shmInfo'.maxMetadataBytes + shmInfo'.maxMediaBytes ≤
      shmInfo.metadataOffset

instance (shmInfo shmInfo' : MediaPlayerShmInfo) : Decidable (Apart shmInfo shmInfo') :=
  inferInstanceAs (Decidable (_ ∨ _))

theorem Apart.notWithin {shmInfo shmInfo' : MediaPlayerShmInfo} (h : Apart shmInfo shmInfo')
    {a : ℕ} (ha : Within shmInfo' a) : ¬Within shmInfo a := by
  unfold Apart at h
  unfold Within at ha ⊢
  omega

/-- The description of a region is worked out in 32 bits, in which nothing wraps. -/
theorem places_needMediaData (r : Region) :
    (needMediaData r).mediaDataOffset = r.dataOffset + getMaxMetadataBytes ∧
      (needMediaData r).maxMediaBytes = r.maxDataLen - getMaxMetadataBytes := by
  have hmeta := r.metadata_lt
  have hfits := r.fits
  exact ⟨add32_of_lt (by omega), sub32_of_le (by omega) (by omega)⟩

theorem within_needMediaData {r : Region} {a : ℕ} :
    Within (needMediaData r) a ↔ r.dataOffset ≤ a ∧ a < r.dataOffset + r.maxDataLen := by
  have hmeta := r.metadata_lt
  unfold Within
  rw [(places_needMediaData r).2]
  show r.dataOffset ≤ a ∧ a < r.dataOffset + getMaxMetadataBytes + _ ↔ _
  omega

/-- The buffer of the server gives the region to the source of the session. -/
structure Describes (b : Shm.Buffer.SharedMemoryBuffer) (sessionId : ℤ) (type : MediaSourceType)
    (r : Region) : Prop where
  owns : 0 ≤ sessionId ∧ Shm.Isolation.Owns b .generic sessionId
  offset : Shm.Buffer.getDataOffset b .generic sessionId type = some r.dataOffset
  length : Shm.Buffer.getMaxDataLen b .generic sessionId type = r.maxDataLen

/-- **Requests of different sources** are in different regions, whatever was mapped before. -/
theorem apart_of_sources {b : Shm.Buffer.SharedMemoryBuffer} (hinv : Shm.Mapping.Inv b)
    {sessionId sessionId' : ℤ} {type type' : MediaSourceType} {r r' : Region}
    (h : Describes b sessionId type r) (h' : Describes b sessionId' type' r')
    (hne : (sessionId, type) ≠ (sessionId', type')) :
    Apart (needMediaData r) (needMediaData r') := by
  have hmeta := r.metadata_lt
  have hmeta' := r'.metadata_lt
  have hdisjoint := (Shm.Isolation.isolated_of_inv hinv).disjoint .generic sessionId type .generic
    sessionId' type' h.owns.1 h'.owns.1 h.owns.2 h'.owns.2 fun heq => hne (Prod.mk.inj heq).2
  by_contra hnot
  have hlen := (places_needMediaData r).2
  have hlen' := (places_needMediaData r').2
  unfold Apart at hnot
  rw [hlen, hlen'] at hnot
  simp only [show (needMediaData r).metadataOffset = r.dataOffset from rfl,
    show (needMediaData r').metadataOffset = r'.dataOffset from rfl,
    show (needMediaData r).maxMetadataBytes = getMaxMetadataBytes from rfl,
    show (needMediaData r').maxMetadataBytes = getMaxMetadataBytes from rfl] at hnot
  have hboth : max r.dataOffset r'.dataOffset ∈
      Shm.Isolation.region b .generic sessionId type := by
    refine ⟨r.dataOffset, h.offset, ?_, ?_⟩
    · omega
    · rw [h.length]
      omega
  refine Set.disjoint_left.mp hdisjoint hboth ⟨r'.dataOffset, h'.offset, ?_, ?_⟩
  · omega
  · rw [h'.length]
    omega

/-! ## The two sides -/

/-- An answer: the frames the client has written for a request, and the segments they are of. -/
structure Answer where
  id : ℕ
  shmInfo : MediaPlayerShmInfo
  numFrames : ℕ
  segments : List MediaSegment

/-- The client with the shared memory, the segments accepted for each request since it is in the
map, and the answers that were not read. -/
structure State where
  client : Client.MediaPipeline.State
  accepted : ℕ → List MediaSegment
  answers : List Answer

def init (shm : Mem UInt8) : State := ⟨Client.MediaPipeline.init shm, fun _ => [], []⟩

inductive Act
  | client (a : Client.MediaPipeline.Act)
  | clearData (shmInfo : MediaPlayerShmInfo)
  | readData (i : ℕ)

/-- A segment is accepted when `addSegment` returns `OK`, with the key id it is written with. -/
def add (s : State) (id : ℕ) (a : Client.MediaPipeline.Segment) :
    AddSegmentStatus → ℕ → List MediaSegment
  | .ok => Function.update s.accepted id
      (s.accepted id ++ a.mediaSegment.toList.map (withKeyId · a.keyId))
  | _ => s.accepted

/-- The segments accepted, after an action of the client. -/
def accept (env : Env) (s : State) : Client.MediaPipeline.Act → ℕ → List MediaSegment
  | .addSegment id a => add s id a (Client.MediaPipeline.addSegment env s.client id a).2
  | .proceed i =>
    match s.client.calls[i]? with
    | some (.inserting id _) => Function.update s.accepted id []
    | _ => s.accepted
  | _ => s.accepted

/-- The answers, after an action of the client: the section of `haveData` takes the request. -/
def answered (s : State) : Client.MediaPipeline.Act → List Answer
  | .proceed i =>
    match s.client.calls[i]? with
    | some (.answering _ id) =>
      match s.client.needDataRequestMap.find? id with
      | some request => s.answers ++ [⟨id, request.shmInfo, request.numFrames, s.accepted id⟩]
      | none => s.answers
    | _ => s.answers
  | _ => s.answers

/-- The memory after `clearData`. -/
def cleared (shm : Mem UInt8) (shmInfo : MediaPlayerShmInfo) : Mem UInt8 :=
  fill shm shmInfo.metadataOffset 0 (shmInfo.maxMetadataBytes + shmInfo.maxMediaBytes)

def step (env : Env) (s : State) : Act → Option State
  | .client a =>
    match Client.MediaPipeline.step env s.client a with
    | none => none
    | some client => some ⟨client, accept env s a, answered s a⟩
  | .clearData shmInfo =>
    some { s with client := { s.client with shm := cleared s.client.shm shmInfo } }
  | .readData i =>
    if i < s.answers.length then some { s with answers := s.answers.eraseIdx i } else none

/-- No request of the kind has data in the region, and no answer. -/
structure Unused (s : State) (p : ℕ → Prop) (shmInfo : MediaPlayerShmInfo) : Prop where
  requests : ∀ id request, p id → s.client.needDataRequestMap.find? id = some request →
    request.frameWriter.isSome → Apart shmInfo request.shmInfo
  answers : ∀ answer ∈ s.answers, answer.numFrames ≠ 0 → Apart shmInfo answer.shmInfo

/-- The condition on a step. -/
def Meets (s : State) : Act → Prop
  | .client (.addSegment id _) => ∀ request, s.client.needDataRequestMap.find? id = some request →
      Unused s (· ≠ id) request.shmInfo
  | .clearData shmInfo => Unused s (fun _ => True) shmInfo
  | _ => True

/-! ## A writer and the other regions -/

section writers

variable {pb : Protobuf} {r : Region} {w : MediaFrameWriterV2} {segs : List MediaSegment}

/-- The writer has written the frames of the segments and accounted for them. -/
structure Filled (pb : Protobuf) (r : Region) (w : MediaFrameWriterV2)
    (segs : List MediaSegment) : Prop where
  written : Written pb r w segs
  counted : Media.WriterV2.Counted (needMediaData r) w

theorem filled_createWriter (pb : Protobuf) (r : Region) (shm : Mem UInt8) :
    Filled pb r (createWriter shm (needMediaData r)) [] :=
  ⟨written_createWriter pb r shm, Media.WriterV2.counted_createWriter shm _⟩

theorem fitting_needMediaData (r : Region) : Media.WriterV2.Fitting (needMediaData r) := by
  have hmeta := r.metadata_lt
  have hfits := r.fits
  obtain ⟨hdata, hmedia⟩ := places_needMediaData r
  refine ⟨⟨show getMaxMetadataBytes < w32 by decide, show r.dataOffset < w32 by omega, ?_, ?_⟩, ?_⟩
  · rw [hdata]
    omega
  · rw [hmedia]
    omega
  · rw [hdata, hmedia]
    omega

/-- **The frame of a filled region**: a memory that agrees on the region holds the same frames. -/
theorem Filled.congr (h : Filled pb r w segs) {shm : Mem UInt8}
    (hshm : ∀ a, Within (needMediaData r) a → shm a = w.shmBuffer a) :
    Filled pb r { w with shmBuffer := shm } segs := by
  obtain ⟨hw, hc⟩ := h
  have hmeta := r.metadata_lt
  have hmax := hw.maxBytes
  have hacc := hw.accounted
  have hbytes := hw.bytesWritten
  have h4 : 4 ≤ getMaxMetadataBytes := by decide
  refine ⟨⟨hw.maxBytes, hw.dataOffset, hw.accounted, hw.bytesWritten, hw.numFrames, ?_, ?_,
    hw.serialized⟩, ⟨hc.maxBytes, hc.offset, hc.frames_le, hc.bytesWritten_le⟩⟩
  · refine (readRange_congr fun a ha ha' => ?_).trans hw.stored
    refine hshm a (within_needMediaData.mpr ?_)
    unfold Region.start at ha ha'
    omega
  · refine (readRange_congr fun a ha ha' => ?_).trans hw.version
    refine hshm a (within_needMediaData.mpr ?_)
    omega

/-- Making a writer changes only its own region. -/
theorem createWriter_outside (shm : Mem UInt8) (r : Region) {a : ℕ}
    (ha : ¬Within (needMediaData r) a) :
    (createWriter shm (needMediaData r)).shmBuffer a = shm a := by
  have hmeta := r.metadata_lt
  have h4 : 4 ≤ getMaxMetadataBytes := by decide
  obtain ⟨hdata, hmedia⟩ := places_needMediaData r
  rw [within_needMediaData] at ha
  unfold createWriter
  dsimp only
  rw [hdata, hmedia]
  refine (write_of_notMem ?_).trans ((write_of_notMem ?_).trans (write_of_notMem ?_))
  · rw [length_leBytes]
    show a < r.dataOffset ∨ r.dataOffset + 4 ≤ a
    omega
  · rw [List.length_replicate]
    omega
  · rw [List.length_replicate]
    show a < r.dataOffset ∨ r.dataOffset + getMaxMetadataBytes ≤ a
    omega

/-- **A write** adds its segment, or leaves the frames, and changes only its own region. -/
theorem Filled.writeFrame (hpb : pb.Lawful) (h : Filled pb r w segs) (data : MediaSegment) :
    Filled pb r (Media.Frames.writeFrame pb w data).1
        (if (Media.Frames.writeFrame pb w data).2 = .ok then segs ++ [data] else segs) ∧
      ∀ a, ¬Within (needMediaData r) a →
        (Media.Frames.writeFrame pb w data).1.shmBuffer a = w.shmBuffer a := by
  have hf := fitting_needMediaData r
  refine ⟨⟨writeFrame_spec hpb h.written data,
    (Media.WriterV2.counted_writeFrame hpb hf h.counted data).1⟩, fun a ha => ?_⟩
  have hoff := h.written.dataOffset
  have hmeta := r.metadata_lt
  obtain ⟨hdata, hmedia⟩ := places_needMediaData r
  rw [Media.WriterV2.shmBuffer_writeFrame]
  have hinside := Media.WriterV2.frameWrites_inside hpb hf h.counted data
  rw [hdata, hmedia] at hinside
  rw [within_needMediaData] at ha
  unfold Region.start at hoff
  have hout : a < w.dataOffset ∨
      r.dataOffset + getMaxMetadataBytes + (r.maxDataLen - getMaxMetadataBytes) ≤ a := by
    omega
  exact Media.WriterV2.applyWrites_outside hout _ _ hinside

end writers

/-! ## The invariant -/

/-- The region holds the segments, which are those that the writer of the request has written. -/
def Holds (pb : Protobuf) (shm : Mem UInt8) (r : Region) (segs : List MediaSegment) :
    Option AnyWriter → Prop
  | none => segs = []
  | some (.v1 _) => False
  | some (.v2 w) => Filled pb r { w with shmBuffer := shm } segs

/-- The frames of the answer are in its region. -/
structure Answered (pb : Protobuf) (shm : Mem UInt8) (a : Answer) : Prop where
  numFrames : a.numFrames = a.segments.length
  filled : a.numFrames ≠ 0 → ∃ r, ∃ w : MediaFrameWriterV2, a.shmInfo = needMediaData r ∧
    Filled pb r { w with shmBuffer := shm } a.segments

structure Inv (env : Env) (s : State) : Prop where
  requests : ∀ id request, s.client.needDataRequestMap.find? id = some request →
    ∃ r, request.shmInfo = needMediaData r ∧
      Holds env.pb s.client.shm r (s.accepted id) request.frameWriter
  answers : ∀ answer ∈ s.answers, Answered env.pb s.client.shm answer

theorem inv_init (env : Env) (shm : Mem UInt8) : Inv env (init shm) :=
  ⟨nofun, nofun⟩

theorem Holds.congr {pb : Protobuf} {shm shm' : Mem UInt8} {r : Region} {segs : List MediaSegment}
    {writer : Option AnyWriter} (h : Holds pb shm r segs writer)
    (hshm : writer.isSome → ∀ a, Within (needMediaData r) a → shm' a = shm a) :
    Holds pb shm' r segs writer := by
  rcases writer with _ | _ | w
  · exact h
  · exact h
  · exact Filled.congr h (hshm rfl)

/-- A request that the server has described and nothing was added to. -/
theorem holds_none (pb : Protobuf) (shm : Mem UInt8) (r : Region) : Holds pb shm r [] none := rfl

section steps

variable {env : Env} {s : State}

/-- What holds data is as before, when the memory changes in an unused region only. -/
theorem Inv.write (h : Inv env s) {p : ℕ → Prop} {shmInfo : MediaPlayerShmInfo}
    (hunused : Unused s p shmInfo) {shm : Mem UInt8}
    (hshm : ∀ a, ¬Within shmInfo a → shm a = s.client.shm a) :
    (∀ id request, p id → s.client.needDataRequestMap.find? id = some request →
      ∃ r, request.shmInfo = needMediaData r ∧
        Holds env.pb shm r (s.accepted id) request.frameWriter) ∧
    ∀ answer ∈ s.answers, Answered env.pb shm answer := by
  constructor
  · intro id request hp hfind
    obtain ⟨r, hr, hholds⟩ := h.requests id request hfind
    refine ⟨r, hr, hholds.congr fun hsome a ha => hshm a ?_⟩
    have hapart := hunused.requests id request hp hfind hsome
    rw [hr] at hapart
    exact hapart.notWithin ha
  · intro answer hmem
    have hanswer := h.answers answer hmem
    refine ⟨hanswer.numFrames, fun hne => ?_⟩
    obtain ⟨r, w, hr, hfilled⟩ := hanswer.filled hne
    refine ⟨r, w, hr, hfilled.congr fun a ha => hshm a ?_⟩
    have hapart := hunused.answers answer hmem hne
    rw [hr] at hapart
    exact hapart.notWithin ha

/-- Requests may leave the map. -/
theorem Inv.requests_sub (h : Inv env s) {s' : State} (hshm : s'.client.shm = s.client.shm)
    (haccepted : s'.accepted = s.accepted) (hanswers : s'.answers = s.answers)
    (hsub : ∀ id request, s'.client.needDataRequestMap.find? id = some request →
      s.client.needDataRequestMap.find? id = some request) : Inv env s' := by
  refine ⟨fun id request hfind => ?_, ?_⟩
  · rw [hshm, haccepted]
    exact h.requests id request (hsub id request hfind)
  · rw [hshm, hanswers]
    exact h.answers

theorem find?_of_erase {m : OMap ℕ NeedDataRequest} {id i : ℕ} {request : NeedDataRequest}
    (h : (m.erase id).find? i = some request) : m.find? i = some request := by
  rw [OMap.find?_erase] at h
  split_ifs at h
  exact h

/-- The writer that `addSegment` uses is one of version 2, and has filled the region so far. -/
theorem filled_frameWriter {client : Client.MediaPipeline.State}
    (hversion : env.metadataVersion ≠ 1) {request : NeedDataRequest} {r : Region}
    (hr : request.shmInfo = needMediaData r) {segs : List MediaSegment}
    (h : Holds env.pb client.shm r segs request.frameWriter)
    {data : MediaSegment} {created : Bool} {writer : AnyWriter}
    (hwriter : Client.MediaPipeline.frameWriter env client request data created = some writer) :
    ∃ w, writer = .v2 w ∧ Filled env.pb r w segs ∧
      ∀ a, ¬Within request.shmInfo a → w.shmBuffer a = client.shm a := by
  unfold Client.MediaPipeline.frameWriter at hwriter
  rcases hrequest : request.frameWriter with _ | _ | w
  · rw [hrequest] at h hwriter
    dsimp only at hwriter
    split_ifs at hwriter
    cases hwriter
    obtain rfl : segs = [] := h
    unfold createFrameWriter
    rw [if_neg hversion, hr]
    exact ⟨_, rfl, filled_createWriter env.pb r client.shm,
      fun a ha => createWriter_outside client.shm r ha⟩
  · rw [hrequest] at h
    exact h.elim
  · rw [hrequest] at h hwriter
    cases hwriter
    exact ⟨_, rfl, h, fun a _ => rfl⟩

/-- `addSegment` fails and changes nothing, or it writes with the writer of a request. -/
theorem addSegment_shape (env : Env) (client : Client.MediaPipeline.State) (id : ℕ)
    (a : Client.MediaPipeline.Segment) :
    Client.MediaPipeline.addSegment env client id a = (client, .error) ∨
    ∃ mediaSegment request writer, a.mediaSegment = some mediaSegment ∧
      client.needDataRequestMap.find? id = some request ∧
      Client.MediaPipeline.frameWriter env client request (withKeyId mediaSegment a.keyId)
        a.created = some writer ∧
      Client.MediaPipeline.addSegment env client id a =
        ({ client with
          shm := (writer.writeFrame env.pb (withKeyId mediaSegment a.keyId)).1.shmBuffer
          needDataRequestMap := client.needDataRequestMap.insert id { request with
            frameWriter := some (writer.writeFrame env.pb (withKeyId mediaSegment a.keyId)).1 } },
          (writer.writeFrame env.pb (withKeyId mediaSegment a.keyId)).2) := by
  unfold Client.MediaPipeline.addSegment
  rcases hsegment : a.mediaSegment with _ | mediaSegment
  · exact Or.inl rfl
  rcases hfind : client.needDataRequestMap.find? id with _ | request
  · exact Or.inl rfl
  dsimp only
  split_ifs
  · exact Or.inl rfl
  rcases hwriter : Client.MediaPipeline.frameWriter env client request
    (withKeyId mediaSegment a.keyId) a.created with _ | writer
  · exact Or.inl rfl
  · exact Or.inr ⟨mediaSegment, request, writer, rfl, rfl, hwriter, rfl⟩

/-- **Adding a segment**: the request it is added to holds it now, if it was accepted, and the
others hold what they held. -/
theorem inv_addSegment (hpb : env.pb.Lawful) (hversion : env.metadataVersion ≠ 1) (h : Inv env s)
    {id : ℕ} {a : Client.MediaPipeline.Segment}
    (hok : Meets s (.client (.addSegment id a))) :
    Inv env ⟨(Client.MediaPipeline.addSegment env s.client id a).1,
      accept env s (.addSegment id a), s.answers⟩ := by
  obtain heq | ⟨mediaSegment, request, writer, hsegment, hfind, hwriter, heq⟩ :=
    addSegment_shape env s.client id a
  · show Inv env ⟨_, add s id a (Client.MediaPipeline.addSegment env s.client id a).2, _⟩
    rw [heq]
    exact ⟨h.requests, h.answers⟩
  · obtain ⟨r, hr, hholds⟩ := h.requests id request hfind
    obtain ⟨w, rfl, hfilled, houtside⟩ := filled_frameWriter hversion hr hholds hwriter
    obtain ⟨hwritten, hkept⟩ := hfilled.writeFrame hpb (withKeyId mediaSegment a.keyId)
    have hshm : ∀ b, ¬Within request.shmInfo b →
        (Media.Frames.writeFrame env.pb w (withKeyId mediaSegment a.keyId)).1.shmBuffer b =
          s.client.shm b := fun b hb =>
      (hkept b (by rwa [← hr])).trans (houtside b hb)
    obtain ⟨hothers, hanswers⟩ := h.write (hok request hfind) hshm
    have haccept : accept env s (.addSegment id a) = Function.update s.accepted id
        (if (Media.Frames.writeFrame env.pb w (withKeyId mediaSegment a.keyId)).2 = .ok then
          s.accepted id ++ [withKeyId mediaSegment a.keyId] else s.accepted id) := by
      show add s id a (Client.MediaPipeline.addSegment env s.client id a).2 = _
      rw [heq]
      show add s id a (Media.Frames.writeFrame env.pb w (withKeyId mediaSegment a.keyId)).2 = _
      rcases (Media.Frames.writeFrame env.pb w (withKeyId mediaSegment a.keyId)).2 with _ | _ | _
      · unfold add
        rw [hsegment]
        rfl
      · exact (Function.update_eq_self id s.accepted).symm
      · exact (Function.update_eq_self id s.accepted).symm
    rw [haccept, heq]
    refine ⟨fun i request' hfind' => ?_, hanswers⟩
    replace hfind' : (s.client.needDataRequestMap.insert id { request with
        frameWriter := some (AnyWriter.v2
          (Media.Frames.writeFrame env.pb w (withKeyId mediaSegment a.keyId)).1) }).find? i =
        some request' := hfind'
    rw [OMap.find?_insert] at hfind'
    split_ifs at hfind' with hi
    · subst hi
      cases hfind'
      refine ⟨r, hr, ?_⟩
      show Holds _ _ _ (Function.update s.accepted i _ i) _
      rw [Function.update_self]
      exact hwritten
    · obtain ⟨r', hr', hholds'⟩ := hothers i request' hi hfind'
      refine ⟨r', hr', ?_⟩
      show Holds _ _ _ (Function.update s.accepted id _ i) _
      rw [Function.update_of_ne hi]
      exact hholds'

/-- **Answering**: the frames of the request that is taken are in its region. -/
theorem answered_takeRequest (h : Inv env s) {id : ℕ} {request : NeedDataRequest}
    (hfind : s.client.needDataRequestMap.find? id = some request) :
    Answered env.pb s.client.shm ⟨id, request.shmInfo, request.numFrames, s.accepted id⟩ := by
  obtain ⟨r, hr, hholds⟩ := h.requests id request hfind
  unfold NeedDataRequest.numFrames
  rcases hwriter : request.frameWriter with _ | _ | w
  · rw [hwriter] at hholds
    have hnone : s.accepted id = [] := hholds
    exact ⟨by rw [hnone]; rfl, fun hne => absurd rfl hne⟩
  · rw [hwriter] at hholds
    exact hholds.elim
  · rw [hwriter] at hholds
    have hfilled : Filled env.pb r { w with shmBuffer := s.client.shm } (s.accepted id) := hholds
    exact ⟨hfilled.written.numFrames, fun _ => ⟨r, w, hr, hfilled⟩⟩

/-- **The next part of a call** puts a request into the map, with nothing added to it, takes one
out, or leaves the map. -/
theorem inv_proceed (h : Inv env s) {i : ℕ} {client : Client.MediaPipeline.State}
    (hstep : Client.MediaPipeline.proceed s.client i = some client) :
    Inv env ⟨client, accept env s (.proceed i), answered s (.proceed i)⟩ := by
  unfold Client.MediaPipeline.proceed at hstep
  rcases hcall : s.client.calls[i]? with _ | call
  · rw [hcall] at hstep
    cases hstep
  simp only [hcall] at hstep
  simp only [accept, answered, hcall]
  cases call with
  | known id region =>
    unfold Client.MediaPipeline.resume at hstep
    dsimp only at hstep
    split_ifs at hstep <;> cases hstep <;>
      exact h.requests_sub rfl rfl rfl fun _ _ hfind => hfind
  | inserting id region =>
    cases hstep
    refine ⟨fun j request hfind => ?_, h.answers⟩
    replace hfind : (s.client.needDataRequestMap.insert id ⟨needMediaData region, none⟩).find? j =
      some request := hfind
    show ∃ r, _ ∧ Holds _ s.client.shm _ (Function.update s.accepted id [] j) _
    rw [OMap.find?_insert] at hfind
    split_ifs at hfind with hj
    · cases hfind
      rw [hj, Function.update_self]
      exact ⟨region, rfl, holds_none _ _ _⟩
    · rw [Function.update_of_ne hj]
      exact h.requests j request hfind
  | delivering id =>
    unfold Client.MediaPipeline.resume at hstep
    dsimp only at hstep
    split_ifs at hstep <;> cases hstep <;>
      exact h.requests_sub rfl rfl rfl fun _ _ hfind => hfind
  | answering status id =>
    unfold Client.MediaPipeline.resume Client.MediaPipeline.takeRequest at hstep
    dsimp only at hstep
    rcases hfind : s.client.needDataRequestMap.find? id with _ | request
    · simp only [hfind] at hstep ⊢
      cases hstep
      exact h.requests_sub rfl rfl rfl fun _ _ hfind => hfind
    · simp only [hfind] at hstep ⊢
      cases hstep
      refine ⟨fun j request' hfind' => h.requests j request' (find?_of_erase hfind'), ?_⟩
      intro answer hmem
      rcases List.mem_append.mp hmem with hmem | hmem
      · exact h.answers answer hmem
      · obtain rfl := List.mem_singleton.mp hmem
        exact answered_takeRequest h hfind
  | discarding id =>
    unfold Client.MediaPipeline.resume Client.MediaPipeline.discardNeedDataRequest at hstep
    dsimp only at hstep
    rcases hfind : s.client.needDataRequestMap.find? id with _ | request
    · rw [hfind] at hstep
      cases hstep
      exact h.requests_sub rfl rfl rfl fun _ _ hfind => hfind
    · rw [hfind] at hstep
      cases hstep
      exact h.requests_sub rfl rfl rfl fun _ _ hfind => find?_of_erase hfind
  | clearing =>
    cases hstep
    exact ⟨nofun, h.answers⟩
  | sending status numFrames id =>
    cases hstep
    exact h.requests_sub rfl rfl rfl fun _ _ hfind => hfind
  | positioning =>
    cases hstep
    exact h.requests_sub rfl rfl rfl fun _ _ hfind => hfind
  | adding sourceId type =>
    cases hstep
    exact h.requests_sub rfl rfl rfl fun _ _ hfind => hfind
  | removing sourceId =>
    cases hstep
    exact h.requests_sub rfl rfl rfl fun _ _ hfind => hfind

/-- The other steps of the client leave the requests, or drop them all. -/
theorem inv_client (hpb : env.pb.Lawful) (hversion : env.metadataVersion ≠ 1) (h : Inv env s)
    {a : Client.MediaPipeline.Act} (hok : Meets s (.client a))
    {client : Client.MediaPipeline.State}
    (hstep : Client.MediaPipeline.step env s.client a = some client) :
    Inv env ⟨client, accept env s a, answered s a⟩ := by
  cases a with
  | addSegment id a =>
    have hadded := inv_addSegment hpb hversion h hok
    unfold Client.MediaPipeline.step at hstep
    dsimp only at hstep
    cases hstep
    exact ⟨hadded.requests, hadded.answers⟩
  | proceed i => exact inv_proceed h hstep
  | notifyNeedMediaData sourceId requestId region =>
    cases hstep
    unfold Client.MediaPipeline.notifyNeedMediaData
    dsimp only
    split_ifs <;> exact h.requests_sub rfl rfl rfl fun _ _ hfind => hfind
  | haveData status id =>
    cases hstep
    unfold Client.MediaPipeline.haveData
    split_ifs <;> exact h.requests_sub rfl rfl rfl fun _ _ hfind => hfind
  | setPosition =>
    cases hstep
    unfold Client.MediaPipeline.setPosition
    split_ifs <;> exact h.requests_sub rfl rfl rfl fun _ _ hfind => hfind
  | notifyBufferTerm =>
    cases hstep
    exact ⟨nofun, h.answers⟩
  | stop =>
    cases hstep
    exact h.requests_sub rfl rfl rfl fun _ _ hfind => hfind
  | notifyPlaybackState state =>
    cases hstep
    exact h.requests_sub rfl rfl rfl fun _ _ hfind => hfind
  | notifyNetworkState state =>
    cases hstep
    exact h.requests_sub rfl rfl rfl fun _ _ hfind => hfind
  | attachSource sourceId type =>
    cases hstep
    exact h.requests_sub rfl rfl rfl fun _ _ hfind => hfind
  | removeSource sourceId =>
    cases hstep
    exact h.requests_sub rfl rfl rfl fun _ _ hfind => hfind
  | releaseClient =>
    cases hstep
    exact h.requests_sub rfl rfl rfl fun _ _ hfind => hfind

/-- Clearing a region changes nothing outside of it. -/
theorem cleared_outside (shm : Mem UInt8) {shmInfo : MediaPlayerShmInfo} {a : ℕ}
    (ha : ¬Within shmInfo a) : cleared shm shmInfo a = shm a := by
  refine write_of_notMem ?_
  rw [List.length_replicate]
  unfold Within at ha
  omega

/-- What `clearData` of the server clears is the region of the requests of the source. -/
theorem clearData_eq_cleared {b : Shm.Buffer.SharedMemoryBuffer} (hinv : Shm.Mapping.Inv b)
    {sessionId : ℤ} {type : MediaSourceType} {r : Region} (h : Describes b sessionId type r)
    (shm : Mem UInt8) :
    (Shm.Contents.clearData b shm .generic sessionId type).2 = cleared shm (needMediaData r) := by
  obtain ⟨k, howns⟩ := Shm.Isolation.owns_iff.mp h.owns.2
  have hmeta := r.metadata_lt
  have hlen : getMaxMetadataBytes + (r.maxDataLen - getMaxMetadataBytes) = r.maxDataLen := by omega
  rw [Shm.Contents.clearData_eq hinv h.owns.1 howns, Shm.Contents.offset, h.offset, h.length]
  unfold cleared
  rw [(places_needMediaData r).2]
  show fill shm r.dataOffset 0 r.maxDataLen =
    fill shm r.dataOffset 0 (getMaxMetadataBytes + (r.maxDataLen - getMaxMetadataBytes))
  rw [hlen]

/-- **Every step keeps the invariant.** -/
theorem step_inv (hpb : env.pb.Lawful) (hversion : env.metadataVersion ≠ 1) {a : Act} {s' : State}
    (h : Inv env s) (hok : Meets s a) (hstep : step env s a = some s') : Inv env s' := by
  cases a with
  | client a =>
    unfold step at hstep
    rcases hclient : Client.MediaPipeline.step env s.client a with _ | client
    · simp only [hclient] at hstep
      cases hstep
    · simp only [hclient] at hstep
      cases hstep
      exact inv_client hpb hversion h hok hclient
  | clearData shmInfo =>
    cases hstep
    obtain ⟨hrequests, hanswers⟩ := h.write hok fun a ha => cleared_outside s.client.shm ha
    exact ⟨fun id request => hrequests id request trivial, hanswers⟩
  | readData i =>
    unfold step at hstep
    dsimp only at hstep
    split_ifs at hstep
    cases hstep
    exact ⟨h.requests, fun answer hmem => h.answers answer (List.mem_of_mem_eraseIdx hmem)⟩

theorem run_inv (hpb : env.pb.Lawful) (hversion : env.metadataVersion ≠ 1) {shm : Mem UInt8}
    {as : List Act} (h : Run (step env) Meets (init shm) as s) : Inv env s :=
  h.invariant (Inv env) (fun _ _ _ hinv hok hstep => step_inv hpb hversion hinv hok hstep)
    (inv_init env shm)

end steps

/-! ## What the player gets -/

section player

variable {K : Type} {a b : MediaSegment}

/-- What the player makes of a segment does not depend on the fields that it does not use. -/
theorem createBuffer_same (player : Player.Attach.Env K) (h : SameSegment a b) :
    Player.Attach.createBuffer player (toSegment b) =
      Player.Attach.createBuffer player (toSegment a) := by
  have hdata : (toSegment b).data = (toSegment a).data := h.data
  have htime : (toSegment b).timeStamp = (toSegment a).timeStamp := h.timeStamp
  have hduration : (toSegment b).duration = (toSegment a).duration := h.duration
  have hencrypted : (toSegment b).encrypted = (toSegment a).encrypted := h.encrypted
  unfold Player.Attach.createBuffer
  rw [hdata, htime, hduration, hencrypted]
  by_cases henc : a.encrypted = true
  · obtain ⟨hsession, hkey, hvector, hlast, hsamples⟩ := h.encryption henc
    have hb : toSegment b = { toSegment b with
        mediaKeySessionId := (toSegment a).mediaKeySessionId
        keyId := (toSegment a).keyId
        initVector := (toSegment a).initVector
        initWithLast15 := (toSegment a).initWithLast15
        subSamples := (toSegment a).subSamples } := by
      unfold toSegment
      rw [hsession, hkey, hvector, hlast, hsamples]
    rw [hb]
  · have hclear : ¬(toSegment a).encrypted = true := henc
    rw [if_neg hclear, if_neg hclear]

theorem type_same (h : SameSegment a b) : (toSegment b).type = (toSegment a).type := by
  unfold toSegment
  rw [h.type]

theorem segmentClass_same (h : SameSegment a b) :
    (toSegment b).segmentClass = (toSegment a).segmentClass := by
  unfold toSegment
  rw [h.fields]

theorem readAll_same (player : Player.Attach.Env K) {segs out : List MediaSegment}
    (h : List.Forall₂ SameSegment segs out) : ∀ t : Player.Attach.State K,
      Player.Attach.readAll player (out.map toSegment) t =
        Player.Attach.readAll player (segs.map toSegment) t := by
  induction h with
  | nil => exact fun _ => rfl
  | cons hsame _ ih =>
    intro t
    rw [List.map_cons, List.map_cons, Player.Attach.readAll, Player.Attach.readAll]
    simp only [createBuffer_same player hsame, type_same hsame, segmentClass_same hsame, ih]

/-- **The player** does with segments that were read what it does with those that were written. -/
theorem attach_same (player : Player.Attach.Env K) {segs out : List MediaSegment}
    (h : List.Forall₂ SameSegment segs out) (t : Player.Attach.State K) :
    Player.Attach.readShmDataAndAttachSamples player (out.map toSegment) t =
      Player.Attach.readShmDataAndAttachSamples player (segs.map toSegment) t := by
  have hfront : ∀ u, Player.Attach.frontIs u (out.map toSegment) =
      Player.Attach.frontIs u (segs.map toSegment) := by
    intro u
    unfold Player.Attach.frontIs
    cases h with
    | nil => rfl
    | cons hsame _ => simp only [List.map_cons, List.head?_cons, Option.bind_some, type_same hsame]
  unfold Player.Attach.readShmDataAndAttachSamples
  rw [readAll_same player h, hfront, hfront]

end player

/-! ## From end to end -/

/-- The reader that is made for the answer returns its segments, and the player does with them what
it would do with those that the client was given. -/
structure Delivered (pb : Protobuf) (shm : Mem UInt8) (answer : Answer) (type : MediaSourceType) :
    Prop where
  read : ∃ dataOffset, createDataReader type shm answer.shmInfo.metadataOffset answer.numFrames =
      some (.v2 type dataOffset answer.numFrames) ∧
    List.Forall₂ SameSegment answer.segments
      (readData pb shm type dataOffset answer.numFrames) ∧
    ∀ (K : Type) (player : Player.Attach.Env K) (t : Player.Attach.State K),
      Player.Attach.readShmDataAndAttachSamples player
          ((readData pb shm type dataOffset answer.numFrames).map toSegment) t =
        Player.Attach.readShmDataAndAttachSamples player (answer.segments.map toSegment) t

theorem Answered.delivered {pb : Protobuf} (hpb : pb.Lawful) {shm : Mem UInt8} {answer : Answer}
    (h : Answered pb shm answer) (hframes : answer.numFrames ≠ 0) {type : MediaSourceType}
    (hsegments : ∀ x ∈ answer.segments, x.type = type ∧ SubSamplesFit x) :
    Delivered pb shm answer type := by
  obtain ⟨r, w, hr, hfilled⟩ := h.filled hframes
  have hmeta := r.metadata_lt
  have hfits := r.fits
  have hversion : readUint32 shm r.dataOffset = 2 := by
    unfold readUint32
    rw [hfilled.written.version, leValue_leBytes_of_lt (by decide)]
    rfl
  obtain ⟨out, hout, hall⟩ := readFrames_frames hpb answer.segments r.start
    hfilled.written.serialized (fun x hx => (hsegments x hx).1) (fun x hx => (hsegments x hx).2)
    hfilled.written.stored
  have hread : readData pb shm type r.start answer.numFrames = out := by
    unfold readData
    rw [h.numFrames]
    exact congrArg (Option.getD · []) hout
  refine ⟨r.start, ?_, ?_, fun K player t => ?_⟩
  · rw [hr]
    show createDataReader type shm r.dataOffset answer.numFrames = _
    unfold createDataReader
    rw [hversion, if_neg (by decide), if_pos rfl, add32_of_lt (by omega)]
    rfl
  · rw [hread]
    exact hall
  · rw [hread]
    exact attach_same player hall t

/-- **The data path.** In every run in which data is only written to unused regions, whatever other
requests are filled, answered, dropped or cleared in the meantime: the number of frames of an answer
that was not read is that of its segments, and the server reads exactly these segments. -/
theorem data_path {env : Env} (hpb : env.pb.Lawful) (hversion : env.metadataVersion ≠ 1)
    {shm : Mem UInt8} {as : List Act} {s : State}
    (h : Run (step env) Meets (init shm) as s) :
    ∀ answer ∈ s.answers, answer.numFrames = answer.segments.length ∧
      (answer.numFrames ≠ 0 → ∀ type, (∀ x ∈ answer.segments, x.type = type ∧ SubSamplesFit x) →
        Delivered env.pb s.client.shm answer type) := by
  intro answer hmem
  have hanswered := (run_inv hpb hversion h).answers answer hmem
  exact ⟨hanswered.numFrames, fun hframes _ hsegments =>
    hanswered.delivered hpb hframes hsegments⟩

/-! ## Two requests side by side -/

/-- The condition, as it is checked along a run. -/
def unused (s : State) (p : ℕ → Bool) (shmInfo : MediaPlayerShmInfo) : Bool :=
  (s.client.needDataRequestMap.entries.all fun e =>
    !p e.1 || e.2.frameWriter.isNone || decide (Apart shmInfo e.2.shmInfo)) &&
  s.answers.all fun answer => answer.numFrames == 0 || decide (Apart shmInfo answer.shmInfo)

def checked (s : State) : Act → Bool
  | .client (.addSegment id _) => (s.client.needDataRequestMap.find? id).all fun request =>
      unused s (· != id) request.shmInfo
  | .clearData shmInfo => unused s (fun _ => true) shmInfo
  | _ => true

theorem unused_of_checked {s : State} {p : ℕ → Bool} {shmInfo : MediaPlayerShmInfo}
    (h : unused s p shmInfo = true) : Unused s (p · = true) shmInfo := by
  simp only [unused, Bool.and_eq_true, List.all_eq_true, Bool.or_eq_true, Bool.not_eq_eq_eq_not,
    Bool.not_true, decide_eq_true_eq, beq_iff_eq, Option.isNone_iff_eq_none] at h
  obtain ⟨hrequests, hanswers⟩ := h
  refine ⟨fun id request hp hfind hsome => ?_, fun answer hmem hne => ?_⟩
  · obtain (hno | hnone) | hapart := hrequests (id, request) (OMap.find?_eq_some.mp hfind)
    · exact absurd (hp.symm.trans hno) Bool.noConfusion
    · rw [hnone] at hsome
      cases hsome
    · exact hapart
  · obtain hzero | hapart := hanswers answer hmem
    · exact absurd hzero hne
    · exact hapart

theorem meets_of_checked {s : State} {a : Act} (h : checked s a = true) : Meets s a := by
  cases a with
  | client a =>
    cases a with
    | addSegment id a =>
      intro request hfind
      have hunused := unused_of_checked (p := (· != id)) (by simpa [checked, hfind] using h)
      exact ⟨fun i request' hne => hunused.requests i request' (by simpa using hne),
        hunused.answers⟩
    | _ => trivial
  | clearData shmInfo =>
    have hunused := unused_of_checked (p := fun _ => true) h
    exact ⟨fun i request' _ => hunused.requests i request' rfl, hunused.answers⟩
  | readData i => trivial

instance (x : MediaSegment) : Decidable (SubSamplesFit x) :=
  inferInstanceAs (Decidable (∀ _ ∈ _, _))

/-- A segment that protobuf fails to serialize. -/
def videoSegment : MediaSegment :=
  { MediaSegment.mk' 2 .video (.video 640 480) 0 40 with
    data := [6]
    dataLength_lt := by decide }

theorem metadata_lt_half : getMaxMetadataBytes < 2570 := by decide

theorem audio_lt_w32 : 0 + 2570 < Lib.Word.w32 := by decide

theorem video_lt_w32 : 2570 + 2570 < Lib.Word.w32 := by decide

/-- Requests of both sources are filled in turn; that of audio is answered with two segments, that
of video is filled further, and the region behind both is cleared. -/
def sideBySide : List Act :=
  let audio : Region := ⟨0, 2570, metadata_lt_half, audio_lt_w32⟩
  let video : Region := ⟨2570, 2570, metadata_lt_half, video_lt_w32⟩
  let segment : MediaSegment → Client.MediaPipeline.Segment := fun s => ⟨some s, true, [], true⟩
  [.client (.attachSource 1 .audio), .client (.proceed 0), .client (.attachSource 2 .video),
    .client (.proceed 0), .client (.notifyPlaybackState .playing),
    .client (.notifyNeedMediaData 1 0 audio), .client (.proceed 0), .client (.proceed 0),
    .client (.proceed 0), .client (.notifyNeedMediaData 2 1 video), .client (.proceed 0),
    .client (.proceed 0), .client (.proceed 0), .client (.addSegment 0 (segment clearSegment)),
    .client (.addSegment 1 (segment videoSegment)),
    .client (.addSegment 0 (segment encryptedSegment)), .client (.haveData .ok 0),
    .client (.proceed 0), .client (.addSegment 1 (segment videoSegment)),
    .clearData ⟨2500, 5140, 7640, 100⟩]

theorem data_path_side_by_side : ∃ s answer,
    Run (step ⟨twoMessages, 2⟩) Meets (init fun _ => 0) sideBySide s ∧ answer ∈ s.answers ∧
      answer.id = 0 ∧ answer.numFrames = 2 ∧
      Delivered twoMessages s.client.shm answer .audio := by
  have hview : ((runsIf (step ⟨twoMessages, 2⟩) (fun s a => checked s a = true) (init fun _ => 0)
      sideBySide).map fun s => s.answers.map fun answer => (answer.id, answer.numFrames,
        decide (∀ x ∈ answer.segments, x.type = .audio ∧ SubSamplesFit x))) =
      some [(0, 2, true)] := by
    decide +kernel
  obtain ⟨s, hs, hview⟩ := Option.map_eq_some_iff.mp hview
  have hrun := (Run.of_runsIf hs).mono fun _ _ => meets_of_checked
  obtain ⟨answer, hmem, hanswer⟩ := List.mem_map.mp (hview ▸ List.mem_singleton_self _)
  simp only [Prod.mk.injEq, decide_eq_true_eq] at hanswer
  obtain ⟨hid, hframes, hsegments⟩ := hanswer
  refine ⟨s, answer, hrun, hmem, hid, hframes, ?_⟩
  exact (data_path twoMessages_lawful (by decide) hrun answer hmem).2
    (by rw [hframes]; decide) .audio hsegments

end Rialto.Link.DataPath
