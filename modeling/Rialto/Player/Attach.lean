import Rialto.Lib.Endian
import Rialto.Player.Context

/-! # Attaching samples

The two tasks that attach samples, with what the buffers hold. `AttachSamples` creates its buffers
and sorts them when it is constructed; `ReadShmDataAndAttachSamples` creates each buffer, updates
the caps and attaches the buffer before it goes on to the next segment.

* `Segment`, `Buffer`, `createBuffer`: the data of a segment, its times and its protection data.
* `State`: what the tasks read and change in the context, and what they do to the appsrcs, to the
  pipeline and to the client, in order.
* `attach_paths_agree`: for segments of one type both tasks do the same.
* `Same`: the tasks do to the flags and the numbers of buffers what those of the player model do. -/

namespace Rialto.Player.Attach

open Rialto.Lib.Endian
open Rialto.Pipeline.Session (Source)
open Rialto.Player.Context (other)

/-! ## Segments and buffers -/

structure SubSamplePair where
  numClearBytes : ℕ
  numEncryptedBytes : ℕ

/-- The dynamic class of a segment, with what it has besides `MediaSegment`. -/
inductive SegmentClass
  | audio (sampleRate numberOfChannels : ℤ)
  | video (width height : ℤ)
  | other

/-- A segment; its type is `none` when it is unknown. -/
structure Segment where
  type : Option Source
  segmentClass : SegmentClass
  data : List UInt8
  timeStamp : Int64
  duration : Int64
  encrypted : Bool
  mediaKeySessionId : ℤ
  keyId : List UInt8
  initVector : List UInt8
  subSamples : List SubSamplePair
  initWithLast15 : ℕ

/-- `GstRialtoProtectionData`, with the contents of its buffers. -/
structure ProtectionData where
  keySessionId : ℤ
  subsampleCount : ℕ
  initWithLast15 : ℕ
  key : List UInt8
  iv : List UInt8
  subsamples : List UInt8

/-- A `GstBuffer`. -/
structure Buffer where
  data : List UInt8
  timestamp : UInt64
  duration : UInt64
  protection : Option ProtectionData

/-- What is decided outside: by the decryption service, by GStreamer and by the client. Caps are
known to GStreamer only. -/
structure Env (K : Type*) where
  isNetflixKeySystem : ℤ → Bool
  addProtectionMetadata : List UInt8 → ProtectionData → Bool
  gstCapsSetSimple : K → String → ℤ → K
  setStateSucceeds : Bool
  notifyNeedMediaData : Bool

section attach

variable {K : Type*}

/-- `n` bytes of a number, most significant first. -/
def putBe (n v : ℕ) : List UInt8 := (leBytes n v).reverse

def createBuffer (env : Env K) (mediaSegment : Segment) : Buffer where
  data := mediaSegment.data
  timestamp := mediaSegment.timeStamp.toUInt64
  duration := mediaSegment.duration.toUInt64
  protection :=
    if mediaSegment.encrypted then
      let data : ProtectionData :=
        { keySessionId := mediaSegment.mediaKeySessionId
          subsampleCount := mediaSegment.subSamples.length % 2 ^ 32
          initWithLast15 := mediaSegment.initWithLast15
          key := if env.isNetflixKeySystem mediaSegment.mediaKeySessionId then []
            else mediaSegment.keyId
          iv := mediaSegment.initVector
          subsamples := mediaSegment.subSamples.flatMap fun subSample =>
            putBe 2 subSample.numClearBytes ++ putBe 4 subSample.numEncryptedBytes }
      if env.addProtectionMetadata mediaSegment.data data then some data else none
    else none

/-! ## The context -/

/-- What is done to an appsrc, to the pipeline and to the client. -/
inductive Event (K : Type*)
  | setCaps (t : Source) (caps : K)
  | pushBuffer (t : Source) (buffer : Buffer)
  | setStatePlaying
  | notifyPlaybackFailure
  | notifyBuffered
  | notifyNeedMediaData (t : Source)

/-- The context, with the caps of the appsrcs. -/
structure State (K : Type*) where
  streamInfo : Source → Bool
  appSrc : Source → Bool
  caps : Source → K
  needData : Source → Bool
  needDataPending : Source → Bool
  dataPushed : Source → Bool
  bufferedNotificationSent : Bool
  buffers : Source → List Buffer
  lastAudioSampleTimestamps : Int64
  underflowOccured : Source → Bool
  audioSourceRemoved : Bool
  pipeline : Bool
  events : List (Event K)

def State.emit (s : State K) (events : List (Event K)) : State K :=
  { s with events := s.events ++ events }

/-! ## The player -/

def findAppSrc (s : State K) (t : Source) : State K :=
  { s with appSrc := Function.update s.appSrc t (s.appSrc t || s.streamInfo t) }

/-- `gst_app_src_set_caps` -/
def setCaps (s : State K) (t : Source) (caps : K) : State K :=
  { s with caps := Function.update s.caps t caps }.emit [.setCaps t caps]

def updateAudioCaps (env : Env K) (rate channels : ℤ) (s : State K) : State K :=
  let s := findAppSrc s .audio
  if s.appSrc .audio then
    let newCaps := s.caps .audio
    let newCaps := if rate ≠ 0 then env.gstCapsSetSimple newCaps "rate" rate else newCaps
    let newCaps :=
      if channels ≠ 0 then env.gstCapsSetSimple newCaps "channels" channels else newCaps
    if rate ≠ 0 ∨ channels ≠ 0 then setCaps s .audio newCaps else s
  else s

def updateVideoCaps (env : Env K) (width height : ℤ) (s : State K) : State K :=
  let s := findAppSrc s .video
  if s.appSrc .video then
    setCaps s .video
      (env.gstCapsSetSimple (env.gstCapsSetSimple (s.caps .video) "width" width) "height" height)
  else s

/-- `changePipelineState`, to playing. -/
def play (env : Env K) (s : State K) : State K :=
  if !s.pipeline then s.emit [.notifyPlaybackFailure]
  else if !env.setStateSucceeds then s.emit [.setStatePlaying, .notifyPlaybackFailure]
  else s.emit [.setStatePlaying]

def cancelUnderflow (env : Env K) (t : Source) (s : State K) : State K :=
  if !s.underflowOccured t then s
  else
    let s := { s with underflowOccured := Function.update s.underflowOccured t false }
    if s.underflowOccured (other t) then s else (play env s).emit [.notifyBuffered]

/-- All buffers of a source go to its appsrc; audio has the time of the last one. -/
def pushBuffers (s : State K) (t : Source) : State K :=
  { s with
    buffers := Function.update s.buffers t []
    dataPushed := Function.update s.dataPushed t true
    lastAudioSampleTimestamps :=
      match t, (s.buffers t).getLast? with
      | .audio, some buffer => buffer.timestamp.toInt64
      | _, _ => s.lastAudioSampleTimestamps }.emit ((s.buffers t).map (.pushBuffer t))

/-- `attachAudioData` and `attachVideoData`. -/
def attachData (env : Env K) (t : Source) (s : State K) : State K :=
  if (s.buffers t).isEmpty || !s.needData t then s
  else
    let s := findAppSrc s t
    if s.appSrc t then
      let s := pushBuffers s t
      let s :=
        if !s.bufferedNotificationSent && s.dataPushed (other t) then
          { s with bufferedNotificationSent := true }.emit [.notifyBuffered]
        else s
      cancelUnderflow env t s
    else s

def attachAudioData (env : Env K) : State K → State K := attachData env .audio

def attachVideoData (env : Env K) : State K → State K := attachData env .video

/-- `notifyNeedMediaData`, for one source. -/
def notifyFor (env : Env K) (t : Source) (s : State K) : State K :=
  let s := { s with needDataPending := Function.update s.needDataPending t false }
  if s.needData t then
    { s with needDataPending :=
      Function.update s.needDataPending t env.notifyNeedMediaData }.emit [.notifyNeedMediaData t]
  else s

def notifyNeedMediaData (env : Env K) (audioNotificationNeeded videoNotificationNeeded : Bool)
    (s : State K) : State K :=
  if audioNotificationNeeded then notifyFor env .audio s
  else if videoNotificationNeeded then notifyFor env .video s
  else s

/-- `audioBuffers.push_back` and `videoBuffers.push_back`. -/
def pushBack (t : Source) (buffer : Buffer) (s : State K) : State K :=
  { s with buffers := Function.update s.buffers t (s.buffers t ++ [buffer]) }

/-! ## The tasks -/

structure AudioData where
  buffer : Buffer
  rate : ℤ
  channels : ℤ

structure VideoData where
  buffer : Buffer
  width : ℤ
  height : ℤ

/-- The constructor of `AttachSamples`: the audio and the video data of the segments. A segment of
another class than that of its type is dropped. -/
def attachSamplesData (env : Env K) : List Segment → List AudioData × List VideoData
  | [] => ([], [])
  | mediaSegment :: mediaSegments =>
    let data := attachSamplesData env mediaSegments
    let gstBuffer := createBuffer env mediaSegment
    match mediaSegment.type, mediaSegment.segmentClass with
    | some .video, .video width height => (data.1, ⟨gstBuffer, width, height⟩ :: data.2)
    | some .audio, .audio rate channels => (⟨gstBuffer, rate, channels⟩ :: data.1, data.2)
    | _, _ => data

def attachAllAudio (env : Env K) : List AudioData → State K → State K
  | [], s => s
  | audioData :: rest, s =>
    attachAllAudio env rest (attachAudioData env (pushBack .audio audioData.buffer
      (updateAudioCaps env audioData.rate audioData.channels s)))

def attachAllVideo (env : Env K) : List VideoData → State K → State K
  | [], s => s
  | videoData :: rest, s =>
    attachAllVideo env rest (attachVideoData env (pushBack .video videoData.buffer
      (updateVideoCaps env videoData.width videoData.height s)))

/-- `AttachSamples::execute` -/
def attachSamples (env : Env K) (data : List AudioData × List VideoData) (s : State K) : State K :=
  notifyNeedMediaData env (!data.1.isEmpty) (!data.2.isEmpty)
    (attachAllVideo env data.2 (attachAllAudio env data.1 s))

/-- The loop of `ReadShmDataAndAttachSamples::execute`. A segment of another class than that of its
type is attached without an update of the caps. -/
def readAll (env : Env K) : List Segment → State K → State K
  | [], s => s
  | mediaSegment :: mediaSegments, s =>
    let gstBuffer := createBuffer env mediaSegment
    match mediaSegment.type with
    | some .video =>
      let s := match mediaSegment.segmentClass with
        | .video width height => updateVideoCaps env width height s
        | _ => s
      readAll env mediaSegments (attachVideoData env (pushBack .video gstBuffer s))
    | some .audio =>
      let s := match mediaSegment.segmentClass with
        | .audio rate channels => updateAudioCaps env rate channels s
        | _ => s
      readAll env mediaSegments (attachAudioData env (pushBack .audio gstBuffer s))
    | none => readAll env mediaSegments s

def frontIs (t : Source) (mediaSegments : List Segment) : Bool :=
  mediaSegments.head?.bind Segment.type = some t

/-- `ReadShmDataAndAttachSamples::execute`, for the segments that the reader returns. -/
def readShmDataAndAttachSamples (env : Env K) (mediaSegments : List Segment) (s : State K) :
    State K :=
  notifyNeedMediaData env (frontIs .audio mediaSegments) (frontIs .video mediaSegments)
    (readAll env mediaSegments s)

/-! ## What is attached -/

def Segment.classMatches (mediaSegment : Segment) : Bool :=
  match mediaSegment.type, mediaSegment.segmentClass with
  | some .audio, .audio _ _ => true
  | some .video, .video _ _ => true
  | _, _ => false

/-- The segments of a type, with the class of the type. -/
def matching (t : Source) (segments : List Segment) : List Segment :=
  segments.filter fun segment => segment.type = some t && segment.classMatches

theorem readAll_append (env : Env K) : ∀ {segments segments' : List Segment} {s : State K},
    readAll env (segments ++ segments') s = readAll env segments' (readAll env segments s) := by
  intro segments
  induction segments with
  | nil => exact fun {_ _} => rfl
  | cons segment rest ih =>
    intro segments' s
    rw [List.cons_append, readAll, readAll]
    split
    · exact ih
    · exact ih
    · exact ih

theorem attachAllAudio_eq (env : Env K) : ∀ (segments : List Segment) (s : State K),
    attachAllAudio env (attachSamplesData env segments).1 s =
      readAll env (matching .audio segments) s := by
  intro segments
  induction segments with
  | nil => exact fun _ => rfl
  | cons segment rest ih =>
    intro s
    unfold matching at ih ⊢
    rw [attachSamplesData, List.filter_cons]
    rcases htype : segment.type with _ | t
    · exact ih s
    · cases t <;> cases hclass : segment.segmentClass <;>
        simp [Segment.classMatches, htype, hclass, attachAllAudio, readAll, ih]

theorem attachAllVideo_eq (env : Env K) : ∀ (segments : List Segment) (s : State K),
    attachAllVideo env (attachSamplesData env segments).2 s =
      readAll env (matching .video segments) s := by
  intro segments
  induction segments with
  | nil => exact fun _ => rfl
  | cons segment rest ih =>
    intro s
    unfold matching at ih ⊢
    rw [attachSamplesData, List.filter_cons]
    rcases htype : segment.type with _ | t
    · exact ih s
    · cases t <;> cases hclass : segment.segmentClass <;>
        simp [Segment.classMatches, htype, hclass, attachAllVideo, readAll, ih]

theorem isEmpty_attachSamplesData (env : Env K) (segments : List Segment) :
    (attachSamplesData env segments).1.isEmpty = (matching .audio segments).isEmpty ∧
      (attachSamplesData env segments).2.isEmpty = (matching .video segments).isEmpty := by
  induction segments with
  | nil => exact ⟨rfl, rfl⟩
  | cons segment rest ih =>
    unfold matching at ih ⊢
    rw [attachSamplesData, List.filter_cons, List.filter_cons]
    rcases htype : segment.type with _ | t
    · exact ih
    · cases t <;> cases hclass : segment.segmentClass <;>
        simp [Segment.classMatches, htype, hclass, ih]

/-- `AttachSamples` attaches the matching audio segments and then the matching video segments. -/
theorem attachSamples_eq (env : Env K) (segments : List Segment) (s : State K) :
    attachSamples env (attachSamplesData env segments) s =
      notifyNeedMediaData env (!(matching .audio segments).isEmpty)
        (!(matching .video segments).isEmpty)
        (readAll env (matching .audio segments ++ matching .video segments) s) := by
  obtain ⟨haudio, hvideo⟩ := isEmpty_attachSamplesData env segments
  unfold attachSamples
  rw [attachAllVideo_eq, attachAllAudio_eq, haudio, hvideo, readAll_append]

/-! ## Segments of one type -/

/-- The segment has the type, and the class of its type. -/
def OfType (t : Option Source) (mediaSegment : Segment) : Prop :=
  mediaSegment.type = t ∧
    match t with
    | some .audio => ∃ rate channels, mediaSegment.segmentClass = .audio rate channels
    | some .video => ∃ width height, mediaSegment.segmentClass = .video width height
    | none => True

variable {env : Env K}

/-- All segments match their type, and no other. -/
theorem matching_eq {t : Option Source} {mediaSegments : List Segment}
    (h : ∀ mediaSegment ∈ mediaSegments, OfType t mediaSegment) (u : Source) :
    matching u mediaSegments = if t = some u then mediaSegments else [] := by
  unfold matching
  split_ifs with heq
  · subst heq
    refine List.filter_eq_self.mpr fun mediaSegment hmem => ?_
    obtain ⟨htype, hclass⟩ := h mediaSegment hmem
    cases u with
    | audio =>
      obtain ⟨rate, channels, hclass⟩ := hclass
      simp [Segment.classMatches, htype, hclass]
    | video =>
      obtain ⟨width, height, hclass⟩ := hclass
      simp [Segment.classMatches, htype, hclass]
  · refine List.filter_eq_nil_iff.mpr fun mediaSegment hmem => ?_
    simp [(h mediaSegment hmem).1, heq]

theorem readAll_unknown (env : Env K) : ∀ {mediaSegments : List Segment} (s : State K),
    (∀ mediaSegment ∈ mediaSegments, OfType none mediaSegment) →
      readAll env mediaSegments s = s := by
  intro mediaSegments
  induction mediaSegments with
  | nil => exact fun _ _ => rfl
  | cons mediaSegment rest ih =>
    intro s h
    obtain ⟨htype, -⟩ := h mediaSegment List.mem_cons_self
    rw [readAll, htype]
    exact ih s fun seg hseg => h seg (List.mem_cons_of_mem _ hseg)

/-- The type of the first segment is the type of all. -/
theorem frontIs_eq {t : Option Source} {u : Source} {mediaSegments : List Segment}
    (h : ∀ mediaSegment ∈ mediaSegments, OfType t mediaSegment) :
    frontIs u mediaSegments = (!mediaSegments.isEmpty && decide (t = some u)) := by
  cases mediaSegments with
  | nil => rfl
  | cons mediaSegment rest =>
    obtain ⟨htype, -⟩ := h mediaSegment List.mem_cons_self
    simp [frontIs, htype]

/-- **The two tasks agree**: for every context and all segments of one type, with the class of that
type, they leave the same context behind and do the same to the appsrcs, to the pipeline and to the
client, in the same order. -/
theorem attach_paths_agree (env : Env K) (t : Option Source) (mediaSegments : List Segment)
    (h : ∀ mediaSegment ∈ mediaSegments, OfType t mediaSegment) (s : State K) :
    attachSamples env (attachSamplesData env mediaSegments) s =
      readShmDataAndAttachSamples env mediaSegments s := by
  unfold readShmDataAndAttachSamples
  rw [attachSamples_eq, matching_eq h, matching_eq h, frontIs_eq h, frontIs_eq h]
  rcases t with _ | t
  · simp [readAll_unknown env s h, readAll]
  · cases t with
    | audio => simp
    | video => simp

/-! ## The tasks of the player model -/

/-- The flags are the same, and as many buffers wait. -/
structure Same (s : State K) (c : Context.State) : Prop where
  streamInfo : s.streamInfo = c.streamInfo
  appSrc : s.appSrc = c.appSrc
  needData : s.needData = c.needData
  needDataPending : s.needDataPending = c.needDataPending
  dataPushed : s.dataPushed = c.dataPushed
  bufferedNotificationSent : s.bufferedNotificationSent = c.bufferedNotificationSent
  underflowOccured : s.underflowOccured = c.underflowOccured
  buffers : ∀ t, (s.buffers t).length = (c.buffers t).length

variable {s : State K} {c : Context.State}

theorem Same.findAppSrc (h : Same s c) (t : Source) :
    Same (findAppSrc s t) (Context.findAppSrc c t) :=
  { h with
    appSrc := by
      show Function.update s.appSrc t (s.appSrc t || s.streamInfo t) =
        Function.update c.appSrc t (c.appSrc t || c.streamInfo t)
      rw [h.appSrc, h.streamInfo] }

theorem Same.updateAudioCaps (h : Same s c) (env : Env K) (rate channels : ℤ) :
    Same (updateAudioCaps env rate channels s) (Context.findAppSrc c .audio) := by
  have hfind := h.findAppSrc .audio
  unfold Attach.updateAudioCaps
  dsimp only
  split_ifs
  · exact { hfind with }
  · exact { hfind with }
  · exact { hfind with }
  · exact { hfind with }
  · exact hfind
  · exact hfind

theorem Same.updateVideoCaps (h : Same s c) (env : Env K) (width height : ℤ) :
    Same (updateVideoCaps env width height s) (Context.findAppSrc c .video) := by
  have hfind := h.findAppSrc .video
  unfold Attach.updateVideoCaps
  dsimp only
  split_ifs
  · exact { hfind with }
  · exact hfind

theorem Same.play (h : Same s c) : Same (play env s) c := by
  unfold Attach.play
  split_ifs
  · exact { h with }
  · exact { h with }
  · exact { h with }

theorem Same.cancelUnderflow (h : Same s c) (t : Source) :
    Same (cancelUnderflow env t s) (Context.cancelUnderflow c t) := by
  have hcleared : Same
      { s with underflowOccured := Function.update s.underflowOccured t false }
      { c with underflowOccured := Function.update c.underflowOccured t false } :=
    { h with
      underflowOccured := by
        dsimp only
        rw [h.underflowOccured] }
  have hother : Function.update s.underflowOccured t false (other t) =
      c.underflowOccured (other t) := by
    rw [h.underflowOccured]
    cases t with
    | audio => rfl
    | video => rfl
  have hflags := congrFun h.underflowOccured t
  unfold Attach.cancelUnderflow Context.cancelUnderflow
  dsimp only
  by_cases hflag : c.underflowOccured t = true
  · have hs : ¬(!s.underflowOccured t) = true := by simp [hflags, hflag]
    have hc : ¬(!c.underflowOccured t) = true := by simp [hflag]
    rw [if_neg hs, if_neg hc]
    by_cases hrest : c.underflowOccured (other t) = true
    · rw [if_pos (hother.trans hrest), if_pos hrest]
      exact hcleared
    · have hrest' : ¬Function.update s.underflowOccured t false (other t) = true := by
        rw [hother]
        exact hrest
      have hplay : Same (Attach.play env
          { s with underflowOccured := Function.update s.underflowOccured t false }) _ :=
        hcleared.play
      rw [if_neg hrest', if_neg hrest]
      exact { hplay with }
  · have hs : (!s.underflowOccured t) = true := by simp [hflags, hflag]
    have hc : (!c.underflowOccured t) = true := by simp [hflag]
    rw [if_pos hs, if_pos hc]
    exact h

theorem Same.pushBuffers (h : Same s c) (t : Source) (pushed : Source → List ℕ) :
    Same (pushBuffers s t) { c with
      pushed := pushed
      buffers := Function.update c.buffers t []
      dataPushed := Function.update c.dataPushed t true } :=
  { h with
    dataPushed := by
      show Function.update s.dataPushed t true = Function.update c.dataPushed t true
      rw [h.dataPushed]
    buffers := fun u => by
      show (Function.update s.buffers t [] u).length = (Function.update c.buffers t [] u).length
      by_cases heq : u = t
      · subst heq
        simp
      · rw [Function.update_of_ne heq, Function.update_of_ne heq]
        exact h.buffers u }

/-- The buffers that wait go to the appsrc, in both models. -/
theorem Same.attachData (h : Same s c) (t : Source) :
    Same (attachData env t s) (Context.attachData c t) := by
  have hempty : (s.buffers t).isEmpty = decide (c.buffers t = []) := by
    have hlength := h.buffers t
    rw [Bool.eq_iff_iff, List.isEmpty_iff, decide_eq_true_iff, ← List.length_eq_zero_iff,
      ← List.length_eq_zero_iff, hlength]
  have hneed := congrFun h.needData t
  have hfind := h.findAppSrc t
  have hsrc := congrFun hfind.appSrc t
  have hother : (Attach.pushBuffers (Attach.findAppSrc s t) t).dataPushed (other t) =
      c.dataPushed (other t) := by
    show Function.update s.dataPushed t true (other t) = _
    rw [h.dataPushed]
    cases t with
    | audio => rfl
    | video => rfl
  have hpushed := hfind.pushBuffers t (Function.update c.pushed t (c.pushed t ++ c.buffers t))
  have hsame : (Attach.pushBuffers (Attach.findAppSrc s t) t).bufferedNotificationSent =
      c.bufferedNotificationSent := h.bufferedNotificationSent
  unfold Attach.attachData Context.attachData
  dsimp only
  by_cases hnone : (c.buffers t = [] || !c.needData t) = true
  · rw [if_pos (by rw [hempty, hneed]; exact hnone), if_pos hnone]
    exact h
  · rw [if_neg (by rw [hempty, hneed]; exact hnone), if_neg hnone]
    by_cases happ : (Context.findAppSrc c t).appSrc t = true
    · rw [if_pos (hsrc.trans happ), if_pos happ]
      refine Same.cancelUnderflow ?_ t
      rw [hsame, hother]
      cases hsent : c.bufferedNotificationSent with
      | true =>
        simp only [Bool.not_true, Bool.false_and, Bool.false_eq_true, if_false, Bool.true_or]
        exact { hpushed with bufferedNotificationSent := hsame.trans hsent }
      | false =>
        simp only [Bool.not_false, Bool.true_and, Bool.false_or]
        by_cases hdata : c.dataPushed (other t) = true
        · rw [if_pos hdata, hdata]
          exact { hpushed with bufferedNotificationSent := rfl }
        · rw [if_neg hdata]
          rw [Bool.not_eq_true] at hdata
          exact { hpushed with bufferedNotificationSent := by rw [hdata]; exact hsame.trans hsent }
    · rw [if_neg (by rw [hsrc]; exact happ), if_neg happ]
      exact hfind

theorem Same.attachBuffer (h : Same s c) (env : Env K) (t : Source) (buffer : Buffer) (n : ℕ) :
    Same (Attach.attachData env t (pushBack t buffer s)) (Context.attachBuffer c t n) := by
  have hback : Same (pushBack t buffer s)
      { c with buffers := Function.update c.buffers t (c.buffers t ++ [n]) } := by
    refine { h with buffers := fun u => ?_ }
    show (Function.update s.buffers t (s.buffers t ++ [buffer]) u).length =
      (Function.update c.buffers t (c.buffers t ++ [n]) u).length
    by_cases heq : u = t
    · subst heq
      simp [h.buffers]
    · rw [Function.update_of_ne heq, Function.update_of_ne heq]
      exact h.buffers u
  exact hback.attachData t

theorem Same.attachAllAudio (env : Env K) : ∀ {audioData : List AudioData} {numbers : List ℕ}
    {s : State K} {c : Context.State}, Same s c → audioData.length = numbers.length →
      Same (attachAllAudio env audioData s) (Context.attachAll .audio numbers c) := by
  intro audioData
  induction audioData with
  | nil =>
    intro numbers s c h hlength
    rw [List.length_eq_zero_iff.mp hlength.symm]
    exact h
  | cons data rest ih =>
    intro numbers s c h hlength
    rcases numbers with _ | ⟨n, numbers⟩
    · cases hlength
    · have hcaps := h.updateAudioCaps env data.rate data.channels
      have hfirst := hcaps.attachBuffer env .audio data.buffer n
      have hlength' : rest.length = numbers.length := by simpa using hlength
      have hrest := ih hfirst hlength'
      exact hrest

theorem Same.attachAllVideo (env : Env K) : ∀ {videoData : List VideoData} {numbers : List ℕ}
    {s : State K} {c : Context.State}, Same s c → videoData.length = numbers.length →
      Same (attachAllVideo env videoData s) (Context.attachAll .video numbers c) := by
  intro videoData
  induction videoData with
  | nil =>
    intro numbers s c h hlength
    rw [List.length_eq_zero_iff.mp hlength.symm]
    exact h
  | cons data rest ih =>
    intro numbers s c h hlength
    rcases numbers with _ | ⟨n, numbers⟩
    · cases hlength
    · have hcaps := h.updateVideoCaps env data.width data.height
      have hfirst := hcaps.attachBuffer env .video data.buffer n
      have hlength' : rest.length = numbers.length := by simpa using hlength
      have hrest := ih hfirst hlength'
      exact hrest

theorem Same.notifyFor (h : Same s c) (t : Source) {e : Context.Env}
    (hsends : e.sends = env.notifyNeedMediaData) :
    Same (notifyFor env t s) (Context.notifyNeedMediaData c e t) := by
  have hneed := congrFun h.needData t
  unfold Attach.notifyFor Context.notifyNeedMediaData
  dsimp only
  rw [hsends, ← hneed]
  by_cases hdata : s.needData t = true
  · rw [if_pos hdata, hdata, Bool.true_and]
    refine { h with needDataPending := ?_ }
    show Function.update (Function.update s.needDataPending t false) t _ = _
    rw [Function.update_idem, h.needDataPending]
  · rw [if_neg hdata]
    rw [Bool.not_eq_true] at hdata
    rw [hdata, Bool.false_and]
    refine { h with needDataPending := ?_ }
    show Function.update s.needDataPending t false = _
    rw [h.needDataPending]

/-- **`AttachSamples`** does to the flags what the task of the player model does. -/
theorem Same.attachSamples (h : Same s c) {data : List AudioData × List VideoData}
    {audioData videoData : List ℕ} (haudio : data.1.length = audioData.length)
    (hvideo : data.2.length = videoData.length) {e : Context.Env}
    (hsends : e.sends = env.notifyNeedMediaData) :
    Same (attachSamples env data s)
      (Context.execute c e (.attachSamples audioData videoData)) := by
  have hall := Same.attachAllVideo env (Same.attachAllAudio env h haudio) hvideo
  have hempty : ∀ {α : Type} {xs : List α} {ns : List ℕ}, xs.length = ns.length →
      ((!xs.isEmpty) = true ↔ ns ≠ []) := by
    intro α xs ns hlength
    rw [Bool.not_eq_true', List.isEmpty_eq_false_iff, ne_eq, ne_eq, ← List.length_eq_zero_iff,
      ← List.length_eq_zero_iff, hlength]
  unfold Attach.attachSamples Attach.notifyNeedMediaData Context.execute
  dsimp only
  by_cases ha : audioData = []
  · rw [if_neg ((hempty haudio).not.mpr (not_not.mpr ha)), if_neg (not_not.mpr ha)]
    by_cases hv : videoData = []
    · rw [if_neg ((hempty hvideo).not.mpr (not_not.mpr hv)), if_neg (not_not.mpr hv)]
      exact hall
    · rw [if_pos ((hempty hvideo).mpr hv), if_pos hv]
      exact hall.notifyFor .video hsends
  · rw [if_pos ((hempty haudio).mpr ha), if_pos ha]
    exact hall.notifyFor .audio hsends

/-- A segment, as the player model knows it. -/
def Segment.shape (mediaSegment : Segment) : Context.Segment :=
  ⟨mediaSegment.type, mediaSegment.classMatches⟩

theorem Same.readAll (env : Env K) : ∀ {mediaSegments : List Segment} {s : State K}
    {c : Context.State}, Same s c → Same (readAll env mediaSegments s)
      (Context.readAll (mediaSegments.map Segment.shape) c) := by
  intro mediaSegments
  induction mediaSegments with
  | nil => exact fun h => h
  | cons mediaSegment rest ih =>
    intro s c h
    have hcreated : Same s { c with created := c.created ++ [mediaSegment.type] } := { h with }
    rw [Attach.readAll, List.map_cons, Context.readAll]
    rcases htype : mediaSegment.type with _ | t
    · simp only [Segment.shape, htype] at hcreated ⊢
      exact ih hcreated
    · cases t with
      | audio =>
        simp only [Segment.shape, htype, Segment.classMatches] at hcreated ⊢
        cases hclass : mediaSegment.segmentClass with
        | audio rate channels =>
          exact ih ((hcreated.updateAudioCaps env rate channels).attachBuffer env .audio _ _)
        | video width height => exact ih (hcreated.attachBuffer env .audio _ _)
        | other => exact ih (hcreated.attachBuffer env .audio _ _)
      | video =>
        simp only [Segment.shape, htype, Segment.classMatches] at hcreated ⊢
        cases hclass : mediaSegment.segmentClass with
        | video width height =>
          exact ih ((hcreated.updateVideoCaps env width height).attachBuffer env .video _ _)
        | audio rate channels => exact ih (hcreated.attachBuffer env .video _ _)
        | other => exact ih (hcreated.attachBuffer env .video _ _)

/-- **`ReadShmDataAndAttachSamples`** does to the flags what the task of the player model does. -/
theorem Same.readShmDataAndAttachSamples (h : Same s c) (mediaSegments : List Segment)
    {e : Context.Env} (hsends : e.sends = env.notifyNeedMediaData) :
    Same (readShmDataAndAttachSamples env mediaSegments s)
      (Context.execute c e (.readShmDataAndAttachSamples (mediaSegments.map Segment.shape))) := by
  have hall : Same (Attach.readAll env mediaSegments s) _ := Same.readAll env h
  have hfront : (mediaSegments.map Segment.shape).head?.bind Context.Segment.type =
      mediaSegments.head?.bind Segment.type := by
    cases mediaSegments with
    | nil => rfl
    | cons mediaSegment rest => rfl
  unfold Attach.readShmDataAndAttachSamples Context.execute
  dsimp only
  rw [hfront]
  unfold frontIs notifyNeedMediaData
  rcases mediaSegments.head?.bind Segment.type with _ | t
  · exact hall
  · cases t with
    | audio => exact hall.notifyFor .audio hsends
    | video => exact hall.notifyFor .video hsends

end attach

/-! ## Two samples -/

/-- A decryption service and a client that answer no, and caps that record their fields. -/
def plainEnv : Env (List (String × ℤ)) where
  isNetflixKeySystem := fun _ => false
  addProtectionMetadata := fun _ _ => true
  gstCapsSetSimple caps field value := (field, value) :: caps
  setStateSucceeds := true
  notifyNeedMediaData := false

def sample (rate : ℤ) (time : Int64) : Segment where
  type := some .audio
  segmentClass := .audio rate 2
  data := [1]
  timeStamp := time
  duration := 10
  encrypted := false
  mediaKeySessionId := 0
  keyId := []
  initVector := []
  subSamples := []
  initWithLast15 := 0

/-- Audio is attached and needs data; video was pushed. -/
def waitingForAudio : State (List (String × ℤ)) where
  streamInfo := fun _ => true
  appSrc := fun _ => false
  caps := fun _ => []
  needData := fun _ => true
  needDataPending := fun _ => true
  dataPushed := fun t => t = .video
  bufferedNotificationSent := false
  buffers := fun _ => []
  lastAudioSampleTimestamps := 0
  underflowOccured := fun _ => false
  audioSourceRemoved := false
  pipeline := true
  events := []

/-- Both tasks update the caps, push the sample, tell the client that all is buffered, do the same
with the next sample, and ask for more. -/
theorem attach_paths_agree_two :
    (attachSamples plainEnv (attachSamplesData plainEnv [sample 48000 5, sample 0 15])
      waitingForAudio).events.length = 6 ∧
    attachSamples plainEnv (attachSamplesData plainEnv [sample 48000 5, sample 0 15])
        waitingForAudio =
      readShmDataAndAttachSamples plainEnv [sample 48000 5, sample 0 15] waitingForAudio := by
  refine ⟨by decide +kernel, attach_paths_agree plainEnv (some .audio) _ ?_ waitingForAudio⟩
  intro mediaSegment hmem
  rcases List.mem_cons.mp hmem with rfl | hmem
  · exact ⟨rfl, 48000, 2, rfl⟩
  · rw [List.mem_singleton.mp hmem]
    exact ⟨rfl, 0, 2, rfl⟩

end Rialto.Player.Attach
