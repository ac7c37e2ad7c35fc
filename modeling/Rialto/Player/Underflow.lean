import Rialto.Player.Context

/-! # Underflow and the client

A recovery from an underflow is a `Play` of the player itself, when the last flag is cancelled by
data or by the end of the stream.

* `Fed`: what cancelling the underflow of some sources does, for any order of the buffers.
* `Respects`: the last flag is cancelled only when the client's most recent request is not to pause,
  audio is removed only when it is not flagged, and an underflow is noted only for a source that can
  still receive data.
* `recovery_respects_client`: then no recovery plays against the client, and the pipeline is held
  only for a source that can still receive data.
* `recovery_against_client`: runs in which it is not so. -/

namespace Rialto.Player.Underflow

open Rialto.Lib.Runs Rialto.Player.Context
open Rialto.Pipeline.Session (Source)

/-- The source is attached and its stream was not ended. -/
def CanReceive (s : State) (t : Source) : Prop :=
  s.streamInfo t = true ∧ ¬(t = .audio ∧ s.audioSourceRemoved = true) ∧ s.ended t = false

/-- **The invariant.** -/
structure Sound (s : State) : Prop where
  flagged : ∀ t, s.underflowOccured t = true → CanReceive s t
  held : s.held = true → ∃ t, s.underflowOccured t = true
  recoveries : ∀ r ∈ s.recoveries, r ≠ some .pause

theorem sound_init : Sound init where
  flagged := fun _ h => by cases h
  held := fun h => by cases h
  recoveries := fun _ h => by cases h

/-- Only what the invariant does not read is changed, or a source can receive more. -/
theorem Sound.mono {s s' : State} (h : Sound s) (hflags : s'.underflowOccured = s.underflowOccured)
    (hcan : ∀ t, CanReceive s t → CanReceive s' t) (hheld : s'.held = true → s.held = true)
    (hrecoveries : s'.recoveries = s.recoveries) : Sound s' where
  flagged := fun t ht => hcan t (h.flagged t (by rwa [← hflags]))
  held := fun ht => by
    rw [hflags]
    exact h.held (hheld ht)
  recoveries := by
    rw [hrecoveries]
    exact h.recoveries

/-! ## Feeding sources -/

/-- The underflow of the sources in `fed` was cancelled: the pipeline plays if no flag is left. -/
structure Fed (fed : Source → Bool) (s s' : State) : Prop where
  streamInfo : s'.streamInfo = s.streamInfo
  audioSourceRemoved : s'.audioSourceRemoved = s.audioSourceRemoved
  ended : s'.ended = s.ended
  requested : s'.requested = s.requested
  needData : s'.needData = s.needData
  reachable : ∀ t, (s'.appSrc t || s'.streamInfo t) = (s.appSrc t || s.streamInfo t)
  flags : ∀ t, s'.underflowOccured t = (s.underflowOccured t && !fed t)
  outcome :
    (s'.held = s.held ∧ s'.recoveries = s.recoveries ∧
      ((∃ t, s.underflowOccured t = true) → ∃ t, s'.underflowOccured t = true)) ∨
    (s'.held = false ∧ s'.recoveries = s.recoveries ++ [s.requested] ∧
      (∃ t, s.underflowOccured t = true) ∧ ∀ t, s'.underflowOccured t = false)

theorem Fed.trans {f g fg : Source → Bool} {s s' s'' : State} (h : Fed f s s') (h' : Fed g s' s'')
    (hfg : ∀ t, fg t = (f t || g t)) : Fed fg s s'' where
  streamInfo := h'.streamInfo.trans h.streamInfo
  audioSourceRemoved := h'.audioSourceRemoved.trans h.audioSourceRemoved
  ended := h'.ended.trans h.ended
  requested := h'.requested.trans h.requested
  needData := h'.needData.trans h.needData
  reachable := fun t => (h'.reachable t).trans (h.reachable t)
  flags := fun t => by
    rw [h'.flags, h.flags, hfg, Bool.not_or, Bool.and_assoc]
  outcome := by
    rcases h.outcome with ⟨hheld, hrec, hflag⟩ | ⟨hheld, hrec, hflag, hnone⟩
    · rcases h'.outcome with ⟨hheld', hrec', hflag'⟩ | ⟨hheld', hrec', hflag', hnone'⟩
      · exact Or.inl ⟨hheld'.trans hheld, hrec'.trans hrec, fun hs => hflag' (hflag hs)⟩
      · obtain ⟨t, ht⟩ := hflag'
        rw [h.flags, Bool.and_eq_true] at ht
        exact Or.inr ⟨hheld', by rw [hrec', hrec, h.requested], ⟨t, ht.1⟩, hnone'⟩
    · -- no flag is left for the second
      rcases h'.outcome with ⟨hheld', hrec', -⟩ | ⟨-, -, ⟨t, ht⟩, -⟩
      · refine Or.inr ⟨hheld'.trans hheld, hrec'.trans hrec, hflag, fun t => ?_⟩
        rw [h'.flags, hnone, Bool.false_and]
      · rw [hnone t] at ht
        cases ht

/-- Nothing that matters here is changed. -/
theorem Fed.of_same {s s' : State} (hstream : s'.streamInfo = s.streamInfo)
    (hremoved : s'.audioSourceRemoved = s.audioSourceRemoved) (hended : s'.ended = s.ended)
    (hrequested : s'.requested = s.requested) (hneed : s'.needData = s.needData)
    (hreach : ∀ t, (s'.appSrc t || s'.streamInfo t) = (s.appSrc t || s.streamInfo t))
    (hflags : s'.underflowOccured = s.underflowOccured) (hheld : s'.held = s.held)
    (hrec : s'.recoveries = s.recoveries) : Fed (fun _ => false) s s' where
  streamInfo := hstream
  audioSourceRemoved := hremoved
  ended := hended
  requested := hrequested
  needData := hneed
  reachable := hreach
  flags := fun t => by rw [hflags, Bool.not_false, Bool.and_true]
  outcome := Or.inl ⟨hheld, hrec, fun h => by rwa [hflags]⟩

theorem fed_findAppSrc (s : State) (t : Source) : Fed (fun _ => false) s (findAppSrc s t) := by
  refine Fed.of_same rfl rfl rfl rfl rfl (fun u => ?_) rfl rfl rfl
  by_cases heq : u = t
  · subst heq
    simp [findAppSrc]
  · simp [findAppSrc, Function.update_of_ne heq]

theorem eq_or_other (t u : Source) : u = t ∨ u = other t := by
  cases t <;> cases u <;> simp [other]

theorem fed_cancelUnderflow (s : State) (t : Source) :
    Fed (fun u => u = t) s (cancelUnderflow s t) := by
  have hupdate : ∀ u, Function.update s.underflowOccured t false u =
      (s.underflowOccured u && !decide (u = t)) := by
    intro u
    by_cases heq : u = t
    · subst heq
      simp
    · simp [heq]
  unfold cancelUnderflow
  dsimp only
  split_ifs with hflag hother
  · refine ⟨rfl, rfl, rfl, rfl, rfl, fun _ => rfl, fun u => ?_, Or.inl ⟨rfl, rfl, id⟩⟩
    by_cases heq : u = t
    · subst heq
      simpa using hflag
    · simp [heq]
  · refine ⟨rfl, rfl, rfl, rfl, rfl, fun _ => rfl, hupdate, Or.inl ⟨rfl, rfl, fun _ => ?_⟩⟩
    refine ⟨other t, (hupdate (other t)).trans ?_⟩
    rw [hother]
    cases t <;> rfl
  · refine ⟨rfl, rfl, rfl, rfl, rfl, fun _ => rfl, hupdate, Or.inr ⟨rfl, rfl, ?_, fun u => ?_⟩⟩
    · exact ⟨t, by simpa using hflag⟩
    · show Function.update s.underflowOccured t false u = false
      rw [hupdate]
      rcases eq_or_other t u with rfl | rfl
      · simp
      · simp [hother]

/-- Data of the source that comes now goes to the appsrc. -/
def ready (s : State) (t : Source) : Bool := s.needData t && (s.appSrc t || s.streamInfo t)

theorem Fed.ready {f : Source → Bool} {s s' : State} (h : Fed f s s') (t : Source) :
    ready s' t = ready s t := by
  rw [Underflow.ready, Underflow.ready, h.needData, h.reachable]

theorem fed_attachData {s : State} {t : Source} (hbuffers : s.buffers t ≠ []) :
    Fed (fun u => u = t && ready s t) s (attachData s t) := by
  have hfind := fed_findAppSrc s t
  have happ : (findAppSrc s t).appSrc t = (s.appSrc t || s.streamInfo t) := by simp [findAppSrc]
  unfold attachData
  dsimp only
  rw [happ, decide_eq_false hbuffers, Bool.false_or]
  cases hneed : s.needData t with
  | false =>
    have hready : ready s t = false := by rw [ready, hneed, Bool.false_and]
    simp only [hready, Bool.and_false]
    exact Fed.of_same rfl rfl rfl rfl rfl (fun _ => rfl) rfl rfl rfl
  | true =>
    have hready : ready s t = (s.appSrc t || s.streamInfo t) := by rw [ready, hneed, Bool.true_and]
    rw [hready]
    cases hreach : s.appSrc t || s.streamInfo t with
    | false =>
      simp only [Bool.and_false]
      exact hfind
    | true =>
      simp only [Bool.and_true]
      refine Fed.trans (f := fun _ => false) ?_ (fed_cancelUnderflow _ t) fun u => rfl
      exact Fed.of_same rfl rfl rfl rfl rfl hfind.reachable rfl rfl rfl

theorem fed_attachBuffer (s : State) (t : Source) (b : ℕ) :
    Fed (fun u => u = t && ready s t) s (attachBuffer s t b) := by
  have hqueue : Fed (fun _ => false) s
      { s with buffers := Function.update s.buffers t (s.buffers t ++ [b]) } :=
    Fed.of_same rfl rfl rfl rfl rfl (fun _ => rfl) rfl rfl rfl
  refine hqueue.trans (fed_attachData ?_) fun u => rfl
  simp

theorem fed_attachAll (t : Source) : ∀ (bs : List ℕ) (s : State),
    Fed (fun u => u = t && bs ≠ [] && ready s t) s (attachAll t bs s)
  | [], s => by
    simp only [ne_eq, not_true_eq_false, decide_false, Bool.and_false, Bool.false_and]
    exact Fed.of_same rfl rfl rfl rfl rfl (fun _ => rfl) rfl rfl rfl
  | b :: bs, s => by
    have hfind := fed_findAppSrc s t
    have hattach := hfind.trans (fed_attachBuffer (findAppSrc s t) t b) fun _ => rfl
    refine hattach.trans (fed_attachAll t bs _) fun u => ?_
    rw [hattach.ready, hfind.ready]
    cases decide (u = t) <;> cases ready s t <;> simp

theorem fed_readAll : ∀ (segments : List Segment) (s : State),
    Fed (fun u => (segments.any fun segment => segment.type = some u) && ready s u) s
      (readAll segments s)
  | [], s => by
    exact Fed.of_same rfl rfl rfl rfl rfl (fun _ => rfl) rfl rfl rfl
  | segment :: segments, s => by
    let s₁ := { s with created := s.created ++ [segment.type] }
    have hnew : Fed (fun _ => false) s s₁ :=
      Fed.of_same rfl rfl rfl rfl rfl (fun _ => rfl) rfl rfl rfl
    unfold readAll
    dsimp only
    split
    · rename_i htype
      refine hnew.trans (fed_readAll segments s₁) fun u => ?_
      rw [List.any_cons, htype, hnew.ready]
      rfl
    · rename_i t htype
      have hfind : Fed (fun _ => false) s
          (if segment.classMatches then findAppSrc s₁ t else s₁) := by
        split_ifs
        · exact hnew.trans (fed_findAppSrc s₁ t) fun _ => rfl
        · exact hnew
      have hattach := hfind.trans (fed_attachBuffer _ t s.nextBuffer) fun _ => rfl
      refine hattach.trans (fed_readAll segments _) fun u => ?_
      rw [hattach.ready, hfind.ready, List.any_cons, htype]
      by_cases heq : u = t
      · subst heq
        cases ready s u <;> simp
      · simp [heq, Ne.symm heq]

/-! ## The tasks -/

/-- The sources whose underflow the task cancels. -/
def feeds (s : State) : Task → Source → Bool
  | .attachSamples audioData _, .audio => audioData ≠ [] && ready s .audio
  | .attachSamples _ videoData, .video => videoData ≠ [] && ready s .video
  | .readShmDataAndAttachSamples segments, t =>
    (segments.any fun segment => segment.type = some t) && ready s t
  | .eos u, t => t = u
  | _, _ => false

/-- No flag is left after the task, and there was one. -/
def Recovers (s : State) (task : Task) : Prop :=
  (∃ t, s.underflowOccured t = true) ∧ ∀ t, s.underflowOccured t = true → feeds s task t = true

/-- What else a task must meet. -/
def Careful (s : State) (env : Env) : Task → Prop
  | .removeSource t => t = .audio → s.underflowOccured .audio = false
  | .underflow t enabled => enabled = true → CanReceive s t
  | .checkAudioUnderflow =>
    s.appSrc .audio = true → env.late = true → s.audioUnderflowEnabled = true → CanReceive s .audio
  | _ => True

/-- **The condition on a task.** -/
structure Respects (s : State) (env : Env) (task : Task) : Prop where
  recovers : Recovers s task → s.requested ≠ some .pause
  careful : Careful s env task

theorem Sound.fed {s s' : State} {f : Source → Bool} (h : Sound s) (hfed : Fed f s s')
    (hrespects : (∃ t, s.underflowOccured t = true) →
      (∀ t, s.underflowOccured t = true → f t = true) → s.requested ≠ some .pause) : Sound s' := by
  have hcan : ∀ t, CanReceive s' t ↔ CanReceive s t := by
    intro t
    rw [CanReceive, CanReceive, hfed.streamInfo, hfed.audioSourceRemoved, hfed.ended]
  refine ⟨fun t ht => ?_, fun ht => ?_, fun r hr => ?_⟩
  · rw [hfed.flags, Bool.and_eq_true] at ht
    exact (hcan t).mpr (h.flagged t ht.1)
  · rcases hfed.outcome with ⟨hheld, -, hflag⟩ | ⟨hheld, -⟩
    · exact hflag (h.held (hheld ▸ ht))
    · rw [hheld] at ht
      cases ht
  · rcases hfed.outcome with ⟨-, hrec, -⟩ | ⟨-, hrec, hflag, hnone⟩
    · exact h.recoveries r (hrec ▸ hr)
    · rw [hrec] at hr
      rcases List.mem_append.mp hr with hr | hr
      · exact h.recoveries r hr
      · rw [List.mem_singleton.mp hr]
        refine hrespects hflag fun t ht => ?_
        have hcleared := hnone t
        rw [hfed.flags, ht, Bool.true_and, Bool.not_eq_false'] at hcleared
        exact hcleared

theorem sound_underflow {s : State} (h : Sound s) {t : Source} {enabled : Bool}
    (hcan : enabled = true → CanReceive s t) : Sound (underflow s t enabled) := by
  unfold underflow
  split_ifs with henabled hflag
  · exact h
  · exact h
  · have hflags : ∀ u, Function.update s.underflowOccured t true u = true →
        u = t ∨ s.underflowOccured u = true := by
      intro u hu
      by_cases heq : u = t
      · exact Or.inl heq
      · rw [Function.update_of_ne heq] at hu
        exact Or.inr hu
    refine ⟨fun u hu => ?_, fun _ => ⟨t, Function.update_self ..⟩, h.recoveries⟩
    rcases hflags u hu with rfl | hu
    · exact hcan (by simpa using henabled)
    · exact h.flagged u hu

theorem sound_needDataTask {s : State} (h : Sound s) (env : Env) (t : Source) :
    Sound (needDataTask s env t) := by
  unfold needDataTask
  dsimp only
  split_ifs
  · exact h.mono rfl (fun _ => id) id rfl
  · exact h.mono rfl (fun _ => id) id rfl
  · exact h

theorem sound_setPosition {s : State} (h : Sound s) (env : Env) : Sound (setPosition s env) := by
  unfold setPosition
  dsimp only
  split_ifs
  · refine sound_needDataTask (sound_needDataTask ?_ env .audio) env .video
    exact h.mono rfl (fun t ht => ⟨ht.1, ht.2.1, rfl⟩) id rfl
  · exact h.mono rfl (fun _ => id) id rfl

theorem sound_removeSource {s : State} (h : Sound s) {t : Source}
    (hflag : t = .audio → s.underflowOccured .audio = false) : Sound (removeSource s t) := by
  unfold removeSource
  split_ifs with ht
  · refine ⟨fun u hu => ?_, h.held, h.recoveries⟩
    cases u with
    | audio =>
      rw [show _ = false from hflag ht] at hu
      cases hu
    | video =>
      obtain ⟨hstream, -, hended⟩ := h.flagged .video hu
      exact ⟨hstream, by simp, hended⟩
  · exact h

theorem sound_attachSource {s : State} (h : Sound s) (env : Env) (t : Source)
    (mimeTypeKnown : Bool) : Sound (attachSource s env t mimeTypeKnown) := by
  unfold attachSource
  split_ifs
  · refine h.mono rfl (fun u hu => ⟨?_, hu.2⟩) id rfl
    by_cases heq : u = t
    · rw [heq]
      exact Function.update_self ..
    · exact (Function.update_of_ne heq ..).trans hu.1
  · exact h.mono rfl (fun u hu => ⟨hu.1, by simp [notifyNeedMediaData], hu.2.2⟩) id rfl
  · exact h

theorem sound_eos {s : State} (h : Sound s) {t : Source}
    (hrespects : Recovers s (.eos t) → s.requested ≠ some .pause) : Sound (eos s t) := by
  have hfed := fed_cancelUnderflow s t
  have hsound : Sound (cancelUnderflow s t) := h.fed hfed fun hflag hall => hrespects ⟨hflag, hall⟩
  unfold eos
  dsimp only
  split_ifs
  · refine ⟨fun u hu => ?_, hsound.held, hsound.recoveries⟩
    obtain ⟨hstream, hremoved, hended⟩ := hsound.flagged u hu
    refine ⟨hstream, hremoved, ?_⟩
    -- the flag of the source itself is cleared
    have hne : u ≠ t := by
      rintro rfl
      have hflag := hfed.flags u
      rw [decide_eq_true rfl, Bool.not_true, Bool.and_false] at hflag
      rw [show _ = false from hflag] at hu
      cases hu
    exact (Function.update_of_ne hne ..).trans hended
  · exact hsound

theorem sound_notifyNeedMediaData {s : State} (h : Sound s) (env : Env) (t : Source) :
    Sound (notifyNeedMediaData s env t) := h.mono rfl (fun _ => id) id rfl

theorem sound_changePipelineState {s : State} (h : Sound s) (newState : GstState) :
    Sound (changePipelineState s newState) :=
  ⟨h.flagged, fun hheld => (by cases hheld), h.recoveries⟩

theorem sound_attachSamples {s : State} (h : Sound s) {audioData videoData : List ℕ}
    (hrespects : Recovers s (.attachSamples audioData videoData) → s.requested ≠ some .pause) :
    Sound (attachAll .video videoData (attachAll .audio audioData s)) := by
  have haudio := fed_attachAll .audio audioData s
  have hboth : Fed (feeds s (.attachSamples audioData videoData)) s
      (attachAll .video videoData (attachAll .audio audioData s)) := by
    refine haudio.trans (fed_attachAll .video videoData _) fun t => ?_
    rw [haudio.ready]
    cases t <;> simp [feeds]
  exact h.fed hboth fun hflag hall => hrespects ⟨hflag, hall⟩

theorem sound_execute {s : State} (h : Sound s) {env : Env} {task : Task}
    (hok : Respects s env task) : Sound (execute s env task) := by
  cases task with
  | attachSamples audioData videoData =>
    have hall := sound_attachSamples h hok.recovers
    unfold execute
    dsimp only
    split_ifs
    · exact sound_notifyNeedMediaData hall env .audio
    · exact sound_notifyNeedMediaData hall env .video
    · exact hall
  | readShmDataAndAttachSamples segments =>
    have hall : Sound (readAll segments s) :=
      h.fed (fed_readAll segments s) fun hflag hall => hok.recovers ⟨hflag, hall⟩
    unfold execute
    dsimp only
    split
    · exact hall
    · exact sound_notifyNeedMediaData hall env _
  | needData t => exact sound_needDataTask h env t
  | enoughData t =>
    unfold execute
    dsimp only
    split_ifs
    · exact h.mono rfl (fun _ => id) id rfl
    · exact h
  | setPosition => exact sound_setPosition h env
  | attachSource t mimeTypeKnown => exact sound_attachSource h env t mimeTypeKnown
  | removeSource t => exact sound_removeSource h hok.careful
  | eos t => exact sound_eos h hok.recovers
  | underflow t enabled => exact sound_underflow h hok.careful
  | checkAudioUnderflow =>
    unfold execute
    dsimp only
    split_ifs with hlate
    · rw [Bool.and_eq_true] at hlate
      exact sound_underflow h (hok.careful hlate.1 hlate.2)
    · exact h
  | setupAudioDecoder => exact h.mono rfl (fun _ => id) id rfl
  | finishSetupSource =>
    unfold execute finishSetupSource
    dsimp only
    split_ifs
    · exact sound_notifyNeedMediaData (sound_notifyNeedMediaData h env .audio) env .video
    · exact sound_notifyNeedMediaData h env .audio
    · exact sound_notifyNeedMediaData h env .video
    · exact h
  | play => exact sound_changePipelineState h .playing
  | pause => exact sound_changePipelineState h .paused
  | stop => exact (sound_changePipelineState h .null).mono rfl (fun _ => id) id rfl

/-! ## Runs -/

/-- **The condition on a step.** -/
def Meets (s : State) : Act → Prop
  | .work env => ∀ task, s.queue.head? = some task → Respects s env task
  | _ => True

theorem step_sound {s s' : State} {a : Act} (h : Sound s) (hok : Meets s a)
    (hstep : step s a = some s') : Sound s' := by
  unfold step at hstep
  split at hstep
  · cases hstep
  · cases a with
    | attachSamples mediaSegments =>
      cases hstep
      exact h.mono rfl (fun _ => id) id rfl
    | underflowCallback t =>
      cases hstep
      exact h.mono rfl (fun _ => id) id rfl
    | request wish =>
      cases hstep
      exact h.mono rfl (fun _ => id) id rfl
    | enqueue task =>
      dsimp only at hstep
      split at hstep
      · cases hstep
        exact h.mono rfl (fun _ => id) id rfl
      · cases hstep
    | work env =>
      dsimp only at hstep
      split at hstep
      · cases hstep
      · rename_i task rest hqueue
        cases hstep
        have hrespects : Respects s env task := hok task (by rw [hqueue]; rfl)
        refine sound_execute (s := { s with queue := rest }) (h.mono rfl (fun _ => id) id rfl) ?_
        exact ⟨fun hrec => hrespects.recovers ⟨hrec.1, hrec.2⟩, by
          cases task <;> exact hrespects.careful⟩
    | destroy =>
      dsimp only at hstep
      split at hstep
      · cases hstep
        exact (sound_changePipelineState h .null).mono rfl (fun _ => id) id rfl
      · cases hstep

/-- **In every run whose steps meet the condition, no recovery sets the pipeline to playing when the
client's most recent request is to pause, and the pipeline is held only while a source that can
still receive data is flagged.** -/
theorem recovery_respects_client {as : List Act} {s : State} (h : Run step Meets init as s) :
    (∀ r ∈ s.recoveries, r ≠ some .pause) ∧
      (s.held = true → ∃ t, s.underflowOccured t = true ∧ CanReceive s t) := by
  have hs : Sound s :=
    h.invariant Sound (fun _ _ _ hs hok hstep => step_sound hs hok hstep) sound_init
  refine ⟨hs.recoveries, fun hheld => ?_⟩
  obtain ⟨t, ht⟩ := hs.held hheld
  exact ⟨t, ht, hs.flagged t ht⟩

/-! ## Runs on fixed inputs -/

def env : Env := ⟨true, true, false⟩

/-- Video plays and runs out of data. -/
def stalled : List Act :=
  [.enqueue (.attachSource .video true), .work env, .enqueue (.needData .video), .work env,
    .request .play, .work env, .underflowCallback .video, .work env]

/-- A sample of video comes. -/
def resumed : List Act :=
  [.enqueue (.readShmDataAndAttachSamples [⟨some .video, true⟩]), .work env]

/-- Audio is removed after it ran out of data. -/
def removed : List Act :=
  [.enqueue (.attachSource .audio true), .work env, .enqueue .setupAudioDecoder, .work env,
    .request .play, .work env, .underflowCallback .audio, .work env,
    .enqueue (.removeSource .audio), .work env]

instance (s : State) (t : Source) : Decidable (CanReceive s t) :=
  inferInstanceAs (Decidable (_ ∧ _ ∧ _))

/-- The condition, as it is checked along a run. -/
def checked (s : State) : Act → Bool
  | .work _ => s.queue.head?.all fun task =>
      (!(s.underflowOccured .audio || s.underflowOccured .video) || s.requested ≠ some .pause) &&
      match task with
      | .removeSource _ => !s.underflowOccured .audio
      | .underflow t _ => CanReceive s t
      | .checkAudioUnderflow => CanReceive s .audio
      | _ => true
  | _ => true

theorem meets_of_checked {s : State} {a : Act} (h : checked s a = true) : Meets s a := by
  cases a with
  | work =>
    intro task htask
    simp only [checked, htask, Option.all_some, Bool.and_eq_true] at h
    obtain ⟨hrequested, hcareful⟩ := h
    constructor
    · rintro ⟨⟨t, ht⟩, -⟩
      cases t <;> simpa [ht] using hrequested
    · cases task <;> simp_all [Careful]
  | _ => trivial

theorem recovery_respects_client_resumed :
    ∃ s, Run step Meets init (stalled ++ resumed) s ∧ s.recoveries = [some .play] ∧
      (∀ r ∈ s.recoveries, r ≠ some .pause) ∧
      (s.held = true → ∃ t, s.underflowOccured t = true ∧ CanReceive s t) := by
  have hview : (runsIf step (fun s a => checked s a = true) init (stalled ++ resumed)).map
      State.recoveries = some [some .play] := by
    decide +kernel
  obtain ⟨s, hs, hview⟩ := Option.map_eq_some_iff.mp hview
  have hrun := (Run.of_runsIf hs).mono fun _ _ => meets_of_checked
  exact ⟨s, hrun, hview, recovery_respects_client hrun⟩

/-- The pipeline plays after the client's pause was executed, and it is held for a source that was
removed. -/
theorem recovery_against_client :
    (∃ as s, Run step (fun _ _ => True) init as s ∧ s.recoveries = [some .pause] ∧
      s.pipeline = .playing) ∧
    ∃ as s, Run step (fun _ _ => True) init as s ∧ s.held = true ∧
      ¬∃ t, s.underflowOccured t = true ∧ CanReceive s t := by
  have hview : (runs step init (stalled ++ [.request .pause, .work env] ++ resumed)).map
      (fun s => (s.recoveries, s.pipeline)) = some ([some .pause], .playing) := by
    decide +kernel
  have hheld : (runs step init removed).map (fun s => (s.held, [Source.audio, .video].any fun t =>
      s.underflowOccured t && decide (CanReceive s t))) = some (true, false) := by
    decide +kernel
  obtain ⟨s, hs, hview⟩ := Option.map_eq_some_iff.mp hview
  obtain ⟨u, hu, hheld⟩ := Option.map_eq_some_iff.mp hheld
  simp only [Prod.mk.injEq] at hview hheld
  refine ⟨⟨_, s, Run.of_runs hs, hview⟩, removed, u, Run.of_runs hu, hheld.1, ?_⟩
  rintro ⟨t, hflag, hcan⟩
  have hnone := List.any_eq_false.mp hheld.2 t (by cases t <;> simp)
  simp [hflag, hcan] at hnone

end Rialto.Player.Underflow
