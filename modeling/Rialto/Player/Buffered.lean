import Rialto.Player.Attach

/-! # All is buffered

The client is told that the initial data is buffered by the attach function of one source, when data
of the other source was pushed before. A player whose only source is audio, or video, never tells
it.

* `Act`, `perform`: a sample that is attached, need-data and enough-data events, in any order, for
  sources that are attached before.
* `Announced`: the client was told once if every attached source has pushed data, and not before.
* `buffered_once_iff`: that holds in every state of every run exactly when both sources are
  attached. -/

namespace Rialto.Player.Buffered

open Rialto.Lib.Runs Rialto.Player.Attach
open Rialto.Pipeline.Session (Source)
open Rialto.Player.Context (other)

variable {K : Type*}

/-! ## Samples and events -/

/-- `NeedData::execute` -/
def needDataTask (env : Env K) (t : Source) (s : State K) : State K :=
  if s.streamInfo t then
    let s := { s with needData := Function.update s.needData t true }
    if !s.needDataPending t && !(t = .audio && s.audioSourceRemoved) then
      { s with needDataPending :=
        Function.update s.needDataPending t env.notifyNeedMediaData }.emit [.notifyNeedMediaData t]
    else s
  else s

/-- `EnoughData::execute` -/
def enoughDataTask (t : Source) (s : State K) : State K :=
  if s.streamInfo t then { s with needData := Function.update s.needData t false } else s

/-- One segment is attached; a task that attaches segments ends with `notifyNeedMediaData`. -/
inductive Act (K : Type*)
  | attachSegment (env : Env K) (mediaSegment : Segment)
  | notifyNeedMediaData (env : Env K) (audioNotificationNeeded videoNotificationNeeded : Bool)
  | needData (env : Env K) (t : Source)
  | enoughData (t : Source)

def perform (s : State K) : Act K → State K
  | .attachSegment env mediaSegment => readAll env [mediaSegment] s
  | .notifyNeedMediaData env audioNotificationNeeded videoNotificationNeeded =>
    notifyNeedMediaData env audioNotificationNeeded videoNotificationNeeded s
  | .needData env t => needDataTask env t s
  | .enoughData t => enoughDataTask t s

def step (s : State K) (a : Act K) : Option (State K) := some (perform s a)

/-- A player before any data arrives. -/
def init (attached : Source → Bool) (caps : Source → K) : State K where
  streamInfo := attached
  appSrc := fun _ => false
  caps := caps
  needData := fun _ => false
  needDataPending := fun _ => false
  dataPushed := fun _ => false
  bufferedNotificationSent := false
  buffers := fun _ => []
  lastAudioSampleTimestamps := 0
  underflowOccured := fun _ => false
  audioSourceRemoved := false
  pipeline := true
  events := []

/-! ## The tasks are runs -/

theorem run_readAll (env : Env K) : ∀ (segments : List Segment) (s : State K),
    Run step (fun _ _ => True) s (segments.map (.attachSegment env)) (readAll env segments s) := by
  intro segments
  induction segments with
  | nil => exact Run.nil
  | cons segment rest ih =>
    intro s
    have hrest := ih (readAll env [segment] s)
    rw [← readAll_append, List.singleton_append] at hrest
    exact Run.cons trivial rfl hrest

/-- `ReadShmDataAndAttachSamples` attaches its segments one by one. -/
theorem run_readShmDataAndAttachSamples (env : Env K) (segments : List Segment) (s : State K) :
    Run step (fun _ _ => True) s
      (segments.map (.attachSegment env) ++
        [.notifyNeedMediaData env (frontIs .audio segments) (frontIs .video segments)])
      (readShmDataAndAttachSamples env segments s) :=
  (run_readAll env segments s).append (Run.cons trivial rfl (Run.nil _))

/-- `AttachSamples` attaches the segments that match, audio first. -/
theorem run_attachSamples (env : Env K) (segments : List Segment) (s : State K) :
    Run step (fun _ _ => True) s
      ((matching .audio segments ++ matching .video segments).map (.attachSegment env) ++
        [.notifyNeedMediaData env (!(matching .audio segments).isEmpty)
          (!(matching .video segments).isEmpty)])
      (attachSamples env (attachSamplesData env segments) s) := by
  rw [attachSamples_eq]
  exact (run_readAll env _ s).append (Run.cons trivial rfl (Run.nil _))

/-! ## The announcement -/

/-- Data of the source was pushed. -/
def Pushed (s : State K) (t : Source) : Prop := ∃ buffer, .pushBuffer t buffer ∈ s.events

def isBuffered : Event K → Bool
  | .notifyBuffered => true
  | _ => false

/-- How often the client was told that all is buffered. -/
def announcements (s : State K) : ℕ := s.events.countP isBuffered

/-- The client was told once if every attached source has pushed data, and never if one has not. -/
def Announced (s : State K) : Prop :=
  ((∀ t, s.streamInfo t = true → Pushed s t) → announcements s = 1) ∧
    ((∃ t, s.streamInfo t = true ∧ ¬Pushed s t) → announcements s = 0)

/-- The flags are what they are meant to be: no underflow is noted, data is pushed to attached
sources only, and the client is told when both sources have pushed. -/
structure Inv (attached : Source → Bool) (s : State K) : Prop where
  streamInfo : s.streamInfo = attached
  appSrc : ∀ t, s.appSrc t = true → attached t = true
  underflow : ∀ t, s.underflowOccured t = false
  pushed : ∀ t, s.dataPushed t = true ↔ Pushed s t
  known : ∀ t, s.dataPushed t = true → attached t = true
  sent : s.bufferedNotificationSent = (s.dataPushed .audio && s.dataPushed .video)
  told : announcements s = if s.bufferedNotificationSent then 1 else 0

section invariant

variable {attached : Source → Bool} {s s' : State K}

theorem inv_init (attached : Source → Bool) (caps : Source → K) :
    Inv attached (init attached caps) where
  streamInfo := rfl
  appSrc := fun t h => by cases h
  underflow := fun _ => rfl
  pushed := fun t => iff_of_false (fun h => by cases h) fun ⟨_, h⟩ => by cases h
  known := fun t h => by cases h
  sent := rfl
  told := rfl

/-- Events that are neither. -/
def Quiet (events : List (Event K)) : Prop :=
  ∀ e ∈ events, isBuffered e = false ∧ ∀ t buffer, e ≠ .pushBuffer t buffer

/-- Nothing that matters here is changed, and nothing is pushed or told. -/
theorem Inv.quiet (h : Inv attached s) {events : List (Event K)} (hquiet : Quiet events)
    (hevents : s'.events = s.events ++ events) (hstream : s'.streamInfo = s.streamInfo)
    (happ : ∀ t, s'.appSrc t = true → s.appSrc t = true ∨ s.streamInfo t = true)
    (hunderflow : s'.underflowOccured = s.underflowOccured)
    (hpushed : s'.dataPushed = s.dataPushed)
    (hsent : s'.bufferedNotificationSent = s.bufferedNotificationSent) : Inv attached s' where
  streamInfo := hstream.trans h.streamInfo
  appSrc := fun t ht => (happ t ht).elim (h.appSrc t) fun hs => by rw [← h.streamInfo]; exact hs
  underflow := fun t => by rw [hunderflow]; exact h.underflow t
  pushed := fun t => by
    rw [hpushed, h.pushed]
    unfold Pushed
    rw [hevents]
    constructor
    · rintro ⟨buffer, hmem⟩
      exact ⟨buffer, List.mem_append_left _ hmem⟩
    · rintro ⟨buffer, hmem⟩
      rcases List.mem_append.mp hmem with hmem | hmem
      · exact ⟨buffer, hmem⟩
      · exact absurd rfl ((hquiet _ hmem).2 t buffer)
  known := fun t ht => h.known t (hpushed ▸ ht)
  sent := by rw [hsent, hpushed, h.sent]
  told := by
    have hnone : events.countP isBuffered = 0 :=
      List.countP_eq_zero.mpr fun e he => by simp [(hquiet e he).1]
    have htold := h.told
    unfold announcements at htold ⊢
    rw [hevents, List.countP_append, hnone, hsent, Nat.add_zero, htold]

theorem quiet_nil : Quiet ([] : List (Event K)) := fun _ h => by cases h

theorem quiet_singleton {e : Event K} (hbuffered : isBuffered e = false)
    (hpush : ∀ t buffer, e ≠ .pushBuffer t buffer) : Quiet [e] := by
  intro e' he'
  rw [List.mem_singleton.mp he']
  exact ⟨hbuffered, hpush⟩

theorem Inv.findAppSrc (h : Inv attached s) (t : Source) : Inv attached (findAppSrc s t) := by
  refine h.quiet quiet_nil (List.append_nil _).symm rfl (fun u hu => ?_) rfl rfl rfl
  by_cases heq : u = t
  · subst heq
    simpa [Attach.findAppSrc] using hu
  · exact Or.inl (by simpa [Attach.findAppSrc, Function.update_of_ne heq] using hu)

theorem Inv.setCaps (h : Inv attached s) (t : Source) (caps : K) :
    Inv attached (setCaps s t caps) :=
  h.quiet (quiet_singleton rfl fun _ _ => by simp) rfl rfl (fun _ => Or.inl) rfl rfl rfl

theorem Inv.updateAudioCaps (h : Inv attached s) (env : Env K) (rate channels : ℤ) :
    Inv attached (updateAudioCaps env rate channels s) := by
  unfold Attach.updateAudioCaps
  dsimp only
  split_ifs <;> first | exact (h.findAppSrc .audio).setCaps .audio _ | exact h.findAppSrc .audio

theorem Inv.updateVideoCaps (h : Inv attached s) (env : Env K) (width height : ℤ) :
    Inv attached (updateVideoCaps env width height s) := by
  unfold Attach.updateVideoCaps
  dsimp only
  split_ifs
  · exact (h.findAppSrc .video).setCaps .video _
  · exact h.findAppSrc .video

theorem Inv.pushBack (h : Inv attached s) (t : Source) (buffer : Buffer) :
    Inv attached (pushBack t buffer s) :=
  h.quiet quiet_nil (List.append_nil _).symm rfl (fun _ => Or.inl) rfl rfl rfl

theorem pushed_pushBuffers {t : Source} (hbuffers : s.buffers t ≠ []) (u : Source) :
    Pushed (pushBuffers s t) u ↔ Pushed s u ∨ u = t := by
  unfold Pushed pushBuffers State.emit
  simp only [List.mem_append, List.mem_map]
  constructor
  · rintro ⟨buffer, hmem | ⟨b, -, heq⟩⟩
    · exact Or.inl ⟨buffer, hmem⟩
    · cases heq
      exact Or.inr rfl
  · rintro (⟨buffer, hmem⟩ | rfl)
    · exact ⟨buffer, Or.inl hmem⟩
    · obtain ⟨buffer, hmem⟩ := List.exists_mem_of_ne_nil _ hbuffers
      exact ⟨buffer, Or.inr ⟨buffer, hmem, rfl⟩⟩

theorem announcements_pushBuffers (s : State K) (t : Source) :
    announcements (pushBuffers s t) = announcements s := by
  have hnone : ((s.buffers t).map (Event.pushBuffer (K := K) t)).countP isBuffered = 0 := by
    refine List.countP_eq_zero.mpr fun e he => ?_
    obtain ⟨buffer, -, rfl⟩ := List.mem_map.mp he
    simp [isBuffered]
  show (s.events ++ (s.buffers t).map (Event.pushBuffer t)).countP isBuffered = _
  rw [List.countP_append, hnone, Nat.add_zero]
  rfl

/-- Both flags, when one of them is set. -/
theorem both_update (d : Source → Bool) (t : Source) :
    (Function.update d t true .audio && Function.update d t true .video) = d (other t) := by
  cases t with
  | audio => simp [other]
  | video => simp [other]

/-- **Data that is pushed** is announced when it is the last that is missing. -/
theorem Inv.attachData (h : Inv attached s) (env : Env K) (t : Source) :
    Inv attached (attachData env t s) := by
  have hfind := h.findAppSrc t
  unfold Attach.attachData
  dsimp only
  by_cases hidle : ((s.buffers t).isEmpty || !s.needData t) = true
  · rw [if_pos hidle]
    exact h
  rw [if_neg hidle]
  by_cases happ : (Attach.findAppSrc s t).appSrc t = true
  swap
  · rw [if_neg happ]
    exact hfind
  rw [if_pos happ]
  have hbuffers : (Attach.findAppSrc s t).buffers t ≠ [] := by
    intro hnil
    have hnil' : s.buffers t = [] := hnil
    simp [hnil'] at hidle
  have hother : Function.update s.dataPushed t true (other t) = s.dataPushed (other t) := by
    cases t with
    | audio => rfl
    | video => rfl
  have hpushed : ∀ u, Function.update s.dataPushed t true u = true ↔
      Pushed (pushBuffers (Attach.findAppSrc s t) t) u := by
    intro u
    rw [pushed_pushBuffers hbuffers, ← hfind.pushed]
    by_cases heq : u = t
    · subst heq
      simp
    · simp only [Function.update_of_ne heq, heq, or_false]
      rfl
  have hknown : ∀ u, Function.update s.dataPushed t true u = true → attached u = true := by
    intro u hu
    by_cases heq : u = t
    · subst heq
      exact hfind.appSrc u happ
    · rw [Function.update_of_ne heq] at hu
      exact h.known u hu
  have htold := announcements_pushBuffers (Attach.findAppSrc s t) t
  have hbefore : announcements (Attach.findAppSrc s t) =
      if s.bufferedNotificationSent then 1 else 0 := hfind.told
  -- no underflow is noted, so there is none to cancel
  have hcancel : ∀ s₁ : State K, s₁.underflowOccured t = false → cancelUnderflow env t s₁ = s₁ := by
    intro s₁ hflag
    unfold cancelUnderflow
    rw [hflag]
    rfl
  by_cases hannounce : (!(pushBuffers (Attach.findAppSrc s t) t).bufferedNotificationSent &&
      (pushBuffers (Attach.findAppSrc s t) t).dataPushed (other t)) = true
  · have hsame := hcancel
      ({ pushBuffers (Attach.findAppSrc s t) t with bufferedNotificationSent := true }.emit
        [.notifyBuffered]) (h.underflow t)
    rw [if_pos hannounce, hsame]
    rw [Bool.and_eq_true, Bool.not_eq_true'] at hannounce
    have hsent : s.bufferedNotificationSent = false := hannounce.1
    have hdata : s.dataPushed (other t) = true := hother ▸ hannounce.2
    refine ⟨h.streamInfo, hfind.appSrc, h.underflow, fun u => (hpushed u).trans ?_, hknown, ?_, ?_⟩
    · unfold Pushed State.emit
      simp
    · exact ((both_update s.dataPushed t).trans hdata).symm
    · show (_ ++ [Event.notifyBuffered]).countP isBuffered = 1
      rw [List.countP_append]
      show announcements (pushBuffers (Attach.findAppSrc s t) t) + 1 = 1
      rw [htold, hbefore, hsent]
      rfl
  · have hsame := hcancel (pushBuffers (Attach.findAppSrc s t) t) (h.underflow t)
    rw [if_neg hannounce, hsame]
    refine ⟨h.streamInfo, hfind.appSrc, h.underflow, hpushed, hknown, ?_, ?_⟩
    · show s.bufferedNotificationSent = _
      refine Eq.trans ?_ (both_update s.dataPushed t).symm
      -- it was told before, or the other source is still missing
      have hnot : ¬(!s.bufferedNotificationSent && s.dataPushed (other t)) = true := by
        rw [← hother]
        exact hannounce
      have hsent := h.sent
      cases t <;> simp only [other] at hnot ⊢ <;> revert hnot hsent <;>
        cases s.bufferedNotificationSent <;> cases s.dataPushed .audio <;>
        cases s.dataPushed .video <;> simp
    · rw [htold, hbefore]
      rfl

theorem Inv.notifyFor (h : Inv attached s) (env : Env K) (t : Source) :
    Inv attached (notifyFor env t s) := by
  unfold Attach.notifyFor
  dsimp only
  split_ifs
  · exact h.quiet (quiet_singleton rfl fun _ _ => by simp) rfl rfl (fun _ => Or.inl) rfl rfl rfl
  · exact h.quiet quiet_nil (List.append_nil _).symm rfl (fun _ => Or.inl) rfl rfl rfl

theorem Inv.attachSegment (h : Inv attached s) (env : Env K) (segment : Segment) :
    Inv attached (readAll env [segment] s) := by
  rw [readAll]
  split
  · refine Inv.attachData (Inv.pushBack ?_ .video _) env .video
    split
    · exact h.updateVideoCaps env _ _
    · exact h
  · refine Inv.attachData (Inv.pushBack ?_ .audio _) env .audio
    split
    · exact h.updateAudioCaps env _ _
    · exact h
  · exact h

/-- **Every step** keeps the flags what they are meant to be. -/
theorem Inv.perform (h : Inv attached s) (a : Act K) : Inv attached (perform s a) := by
  cases a with
  | attachSegment env segment => exact h.attachSegment env segment
  | notifyNeedMediaData env audioNotificationNeeded videoNotificationNeeded =>
    unfold Buffered.perform Attach.notifyNeedMediaData
    dsimp only
    split_ifs
    · exact h.notifyFor env .audio
    · exact h.notifyFor env .video
    · exact h
  | needData env t =>
    unfold Buffered.perform needDataTask
    dsimp only
    split_ifs
    · exact h.quiet (quiet_singleton rfl fun _ _ => by simp) rfl rfl (fun _ => Or.inl) rfl rfl rfl
    · exact h.quiet quiet_nil (List.append_nil _).symm rfl (fun _ => Or.inl) rfl rfl rfl
    · exact h
  | enoughData t =>
    unfold Buffered.perform enoughDataTask
    dsimp only
    split_ifs
    · exact h.quiet quiet_nil (List.append_nil _).symm rfl (fun _ => Or.inl) rfl rfl rfl
    · exact h

theorem run_inv {caps : Source → K} {as : List (Act K)}
    (hrun : Run step (fun _ _ => True) (init attached caps) as s) : Inv attached s :=
  hrun.invariant (Inv attached)
    (fun _ a _ ht _ hstep => Option.some.inj hstep ▸ ht.perform a) (inv_init attached caps)

/-- Nothing is told while a source has pushed no data. -/
theorem Inv.silent (h : Inv attached s) {t : Source} (hdata : s.dataPushed t = false) :
    announcements s = 0 := by
  have hsent : s.bufferedNotificationSent = false := by
    rw [h.sent]
    cases t with
    | audio => rw [hdata, Bool.false_and]
    | video => rw [hdata, Bool.and_false]
  rw [h.told, hsent]
  rfl

/-- A source that is not attached has pushed no data. -/
theorem Inv.missing (h : Inv attached s) {t : Source} (hmissing : attached t = false) :
    s.dataPushed t = false := by
  rw [← Bool.not_eq_true]
  intro hdata
  rw [h.known t hdata] at hmissing
  cases hmissing

/-- With both sources attached, the client is told what it should be told. -/
theorem Inv.announced (h : Inv attached s) (hboth : ∀ t, attached t = true) : Announced s := by
  constructor
  · intro hall
    have hpushed : ∀ t, s.dataPushed t = true := fun t =>
      (h.pushed t).mpr (hall t (by rw [h.streamInfo]; exact hboth t))
    rw [h.told, h.sent, hpushed, hpushed]
    rfl
  · rintro ⟨t, -, hnot⟩
    refine h.silent (t := t) ?_
    rw [← Bool.not_eq_true, h.pushed]
    exact hnot

/-- Data that waits for an attached source is pushed when the source needs it. -/
theorem dataPushed_attachData (env : Env K) {t : Source} (hneed : s.needData t = true)
    (hstream : s.streamInfo t = true) (hbuffers : s.buffers t ≠ []) :
    (attachData env t s).dataPushed t = true := by
  have hready : ¬((s.buffers t).isEmpty || !s.needData t) = true := by simp [hbuffers, hneed]
  have happ : (Attach.findAppSrc s t).appSrc t = true := by simp [Attach.findAppSrc, hstream]
  have hcancel : ∀ s₁ : State K, (cancelUnderflow env t s₁).dataPushed = s₁.dataPushed := by
    intro s₁
    unfold cancelUnderflow play State.emit
    dsimp only
    split_ifs <;> rfl
  unfold Attach.attachData
  dsimp only
  rw [if_neg hready, if_pos happ, hcancel]
  split_ifs
  · exact Function.update_self ..
  · exact Function.update_self ..

end invariant

/-! ## One source or two -/

/-- A client that takes every request, and caps that stay. -/
def keepCaps : Env K where
  isNetflixKeySystem := fun _ => false
  addProtectionMetadata := fun _ _ => true
  gstCapsSetSimple caps _ _ := caps
  setStateSucceeds := true
  notifyNeedMediaData := true

def emptySample (t : Source) : Segment where
  type := some t
  segmentClass := .other
  data := []
  timeStamp := 0
  duration := 0
  encrypted := false
  mediaKeySessionId := 0
  keyId := []
  initVector := []
  subSamples := []
  initWithLast15 := 0

/-- The source asks for data, and a sample arrives. -/
def firstSample (t : Source) : List (Act K) :=
  [.needData keepCaps t, .attachSegment keepCaps (emptySample t)]

def afterFirstSample (attached : Source → Bool) (caps : Source → K) (t : Source) : State K :=
  readAll keepCaps [emptySample t] (needDataTask keepCaps t (init attached caps))

theorem run_firstSample (attached : Source → Bool) (caps : Source → K) (t : Source) :
    Run step (fun _ _ => True) (init attached caps) (firstSample t)
      (afterFirstSample attached caps t) :=
  Run.cons trivial rfl (Run.cons trivial rfl (Run.nil _))

theorem pushed_firstSample {attached : Source → Bool} (caps : Source → K) {t : Source}
    (hattached : attached t = true) : Pushed (afterFirstSample attached caps t) t := by
  refine ((run_inv (run_firstSample attached caps t)).pushed t).mp ?_
  have hneed : (needDataTask keepCaps t (init attached caps)).needData t = true := by
    cases t <;> simp [needDataTask, init, hattached, State.emit]
  have hstream : (needDataTask keepCaps t (init attached caps)).streamInfo t = true := by
    cases t <;> simp [needDataTask, init, hattached, State.emit]
  cases t with
  | audio =>
    exact dataPushed_attachData (s := pushBack .audio _ _) keepCaps hneed hstream
      (by simp [pushBack])
  | video =>
    exact dataPushed_attachData (s := pushBack .video _ _) keepCaps hneed hstream
      (by simp [pushBack])

/-- **Buffered, once**: in every state of every run the client was told once if every attached
source has pushed data and not at all otherwise, exactly when both sources are attached. -/
theorem buffered_once_iff (attached : Source → Bool) (caps : Source → K) :
    (∀ as s, Run step (fun _ _ => True) (init attached caps) as s → Announced s) ↔
      ∀ t, attached t = true := by
  constructor
  · intro hall t
    by_contra hnot
    have hmissing : attached t = false := Bool.not_eq_true _ ▸ hnot
    -- the attached sources, one or none, have all pushed after a sample of the other source
    have hrun : ∃ as s, Run step (fun _ _ => True) (init attached caps) as s ∧
        ∀ u, s.streamInfo u = true → Pushed s u := by
      by_cases hother : attached (other t) = true
      · refine ⟨_, _, run_firstSample attached caps (other t), fun u hu => ?_⟩
        rw [(run_inv (run_firstSample attached caps (other t))).streamInfo] at hu
        have heq : u = other t := by
          cases t <;> cases u <;> simp_all [other]
        subst heq
        exact pushed_firstSample caps hother
      · refine ⟨_, _, Run.nil _, fun u hu => ?_⟩
        have hu : attached u = true := hu
        cases t <;> cases u <;> simp_all [other]
    obtain ⟨as, s, hrun, hpushed⟩ := hrun
    have htold := (hall as s hrun).1 hpushed
    have hinv := run_inv hrun
    rw [hinv.silent (hinv.missing hmissing)] at htold
    cases htold
  · exact fun hboth as s hrun => (run_inv hrun).announced hboth

/-- The only source is audio: a sample is pushed, and the client is not told. -/
theorem buffered_never_audio : ¬∀ attached : Source → Bool, (∃ t, attached t = true) →
    ∀ (as : List (Act Unit)) s,
      Run step (fun _ _ => True) (init attached fun _ => ()) as s → Announced s := by
  intro hall
  have hannounced := hall (fun t => t = .audio) ⟨.audio, rfl⟩ _ _ (run_firstSample _ _ .audio)
  have hnone : announcements (afterFirstSample (fun t => t = .audio) (fun _ => ()) .audio) = 0 := by
    decide +kernel
  have honce := hannounced.1 fun t ht => by
    cases t with
    | audio => exact pushed_firstSample _ rfl
    | video => cases ht
  rw [hnone] at honce
  cases honce

end Rialto.Player.Buffered
