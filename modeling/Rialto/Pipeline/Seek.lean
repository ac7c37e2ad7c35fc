import Rialto.Pipeline.Queues

/-! # No stale samples after a seek

A seek is numbered when the worker begins it, and so are its flush of the pipeline and the main
thread's clearing of the requests, which happen in either order. A request carries the numbers of
the last flush and of the last clearing before it was issued, and a pushed buffer the number of the
last flush before it was pushed.

After its flush a seek asks for the data of each source itself, and with that clears the region of
the source. A queued task that was to read frames of version 2 there finds none of them any more;
but the seek leaves the region of a removed source alone, and segments are not in a region.

* `Current`, `Flushed`: the requests whose samples may be pushed, and what has been pushed;
* `Ready`, `Cleared`, `Harmless`: the queued tasks can attach samples of current requests only, or
  read a region that the seek is still to clear;
* `settled`: a step in which no answer passes a flush;
* `flushed_step`, `harmless_step`, `pushed_current`: along every run of such steps a buffer is
  pushed only for a request that was issued after the last flush and after the clearing of its seek.
  `answer_passes_flush`: runs in which an answer passes a flush. -/

namespace Rialto.Pipeline.Seek

open Rialto.Lib.OrdMap Rialto.Lib.Runs Rialto.Lib.Word
open Rialto.Pipeline.Session Rialto.Pipeline.Queues

variable {c c' : State} {a : Action} {as : List Action} {env : Env} {t u : Source}
  {task : MainTask} {wtask : WorkerTask} {request : Request}

/-! ## What has been pushed -/

/-- The request was issued after the flush of that number, and after the clearing for its seek. -/
def Current (flush : ℕ) (request : Request) : Prop :=
  request.flush = flush ∧ flush ≤ request.clears

/-- What was pushed was current then; the samples that wait are current; so are the active requests,
once those of the flushed seek have been cleared; and between the beginning of a seek and its flush
no samples wait. -/
structure Flushed (c : State) : Prop where
  pushed : ∀ p ∈ c.pushed, Current p.flush p.request
  buffers : ∀ t, ∀ r ∈ c.buffers t, Current c.flushed r
  requests : c.flushed ≤ c.clears → ∀ e ∈ c.activeRequests.entries, Current c.flushed e.2
  numbered : c.clears + c.mainQueue.count .clearActiveRequests = c.seeks
  flushed : c.flushed ≤ c.seeks
  emptied : .seek ∈ c.ops → ∀ t, c.buffers t = []

theorem flushed_init : Flushed init := by
  constructor
  · intro p h
    cases h
  · intro t r h
    cases h
  · intro _ e h
    cases h
  · rfl
  · exact le_rfl
  · intro h
    cases h

/-- A change that neither numbers nor pushes anything, and adds only current requests. -/
theorem Flushed.mono (h : Flushed c) (hp : c'.pushed = c.pushed) (hb : c'.buffers = c.buffers)
    (hf : c'.flushed = c.flushed) (hs : c'.seeks = c.seeks) (hc : c'.clears = c.clears)
    (hm : c'.mainQueue.count .clearActiveRequests = c.mainQueue.count .clearActiveRequests)
    (ho : .seek ∈ c'.ops → .seek ∈ c.ops)
    (hr : c.flushed ≤ c.clears → ∀ e ∈ c'.activeRequests.entries,
      e ∈ c.activeRequests.entries ∨ Current c.flushed e.2) : Flushed c' := by
  constructor
  · rw [hp]; exact h.pushed
  · rw [hb, hf]; exact h.buffers
  · intro hle e he
    rw [hf, hc] at hle
    rw [hf]
    exact (hr hle e he).elim (h.requests hle e) id
  · rw [hc, hm, hs]; exact h.numbered
  · rw [hf, hs]; exact h.flushed
  · rw [hb]; exact fun hseek => h.emptied (ho hseek)

/-- Once the requests of the flushed seek have been cleared, the active ones are current. -/
theorem Flushed.find (h : Flushed c) (hle : c.flushed ≤ c.clears) {id : ℕ}
    (hf : c.activeRequests.find? id = some request) : Current c.flushed request :=
  h.requests hle _ (OMap.find?_eq_some.mp hf)

/-! ## What waits in the queue -/

/-- The region holds frames of a current request, or none. -/
def RegionCurrent (c : State) (t : Source) : Prop :=
  c.flushed ≤ c.clears ∧ ∀ r, c.regions t = some r → Current c.flushed r

/-- The task attaches samples of a current request only. -/
def Ready (c : State) : WorkerTask → Prop
  | .readShmDataAndAttachSamples request _ version =>
    RegionCurrent c request.type ∧ (version = .v1 → Current c.flushed request)
  | .attachSamples request => request.segments.any Option.isSome = true → Current c.flushed request
  | _ => True

/-- A `NeedData` for the source would ask for its data. -/
def asks (c : State) (t : Source) : Bool :=
  !c.needDataPending t && !(t = .audio && c.audioSourceRemoved)

/-- The region of the source is about to be cleared: the worker has asked for its data, or will do
so before it comes to its next task. -/
def clearing (c : State) (t : Source) : Bool :=
  c.waiting == some t || (!c.ops.contains .seek && c.ops.contains (.needData t) && asks c t)

/-- The task reads frames of version 2 from a region that will have been cleared by then. -/
def Cleared (c : State) : WorkerTask → Prop
  | .readShmDataAndAttachSamples request _ version =>
    version = .v2 ∧ clearing c request.type = true
  | _ => False

/-- No queued task pushes samples of a request that is not current. -/
def Harmless (c : State) : Prop := ∀ wtask ∈ c.workerQueue, Ready c wtask ∨ Cleared c wtask

theorem harmless_init : Harmless init := by
  intro wtask h
  cases h

/-- Nothing is about to be cleared while the worker is between two tasks, or before its seek. -/
theorem clearing_idle (hw : c.waiting = none) (ho : c.ops = [] ∨ .seek ∈ c.ops) :
    clearing c t = false := by
  rcases ho with ho | ho
  · simp [clearing, hw, ho]
  · have hs : c.ops.contains .seek = true := List.contains_iff_mem.mpr ho
    simp [clearing, hw, ho]

theorem Harmless.ready (h : Harmless c) (hw : c.waiting = none) (ho : c.ops = [] ∨ .seek ∈ c.ops)
    (hmem : wtask ∈ c.workerQueue) : Ready c wtask := by
  refine (h wtask hmem).resolve_right fun hc => ?_
  cases wtask <;> first | exact hc | exact absurd hc.2 (by simp [clearing_idle hw ho])

/-- `Ready` looks at three numbers and the regions. -/
theorem Ready.mono (h : Ready c wtask) (hf : c'.flushed = c.flushed) (hc : c.clears ≤ c'.clears)
    (hr : c.flushed ≤ c.clears → ∀ t r, c'.regions t = some r →
      c.regions t = some r ∨ Current c.flushed r) : Ready c' wtask := by
  cases wtask with
  | readShmDataAndAttachSamples request n version =>
    obtain ⟨⟨hle, hregion⟩, hv⟩ := h
    refine ⟨⟨by omega, fun r hreg => ?_⟩, fun h1 => by rw [hf]; exact hv h1⟩
    rw [hf]
    exact (hr hle _ r hreg).elim (hregion r) id
  | attachSamples request => exact fun hs => by rw [hf]; exact h hs
  | _ => trivial

/-- A change that the queued tasks do not see. -/
theorem Harmless.mono (h : Harmless c) (hq : ∀ wtask ∈ c'.workerQueue, wtask ∈ c.workerQueue)
    (hf : c'.flushed = c.flushed) (hc : c.clears ≤ c'.clears)
    (hr : c.flushed ≤ c.clears → ∀ t r, c'.regions t = some r →
      c.regions t = some r ∨ Current c.flushed r)
    (hw : c'.waiting = c.waiting) (ho : c'.ops = c.ops)
    (hp : c'.needDataPending = c.needDataPending)
    (ha : c'.audioSourceRemoved = c.audioSourceRemoved) : Harmless c' := by
  intro wtask hmem
  refine (h wtask (hq wtask hmem)).imp (fun hready => hready.mono hf hc hr) fun hcl => ?_
  cases wtask with
  | readShmDataAndAttachSamples request n version =>
    refine ⟨hcl.1, ?_⟩
    have hsame : clearing c' request.type = clearing c request.type := by
      simp [clearing, asks, hw, ho, hp, ha]
    rw [hsame]
    exact hcl.2
  | _ => exact hcl.elim

/-! ## The rest of a task -/

/-- What is left of a task is about the need-data flags and the queue of the main thread. -/
theorem runOps_frame : ∀ (ops : List Op) (c : State), runOps c ops = { c with
    needData := (runOps c ops).needData
    needDataPending := (runOps c ops).needDataPending
    mainQueue := (runOps c ops).mainQueue
    waiting := (runOps c ops).waiting
    ops := (runOps c ops).ops }
  | [], c => rfl
  | .seek :: ops, c => rfl
  | .needData t :: ops, c => by
    have hone : needDataOp c t = { c with
        needData := (needDataOp c t).needData
        mainQueue := (needDataOp c t).mainQueue
        waiting := (needDataOp c t).waiting } := by
      unfold needDataOp
      dsimp only
      split_ifs <;> rfl
    unfold runOps
    dsimp only
    split_ifs
    · rw [hone]
    · rw [runOps_frame ops (needDataOp c t)]
      rw [hone]
  | .notifyNeedMediaData t :: ops, c => by
    have hone : notifyOp c t = { c with
        needDataPending := (notifyOp c t).needDataPending
        mainQueue := (notifyOp c t).mainQueue
        waiting := (notifyOp c t).waiting } := by
      unfold notifyOp
      dsimp only
      split_ifs <;> rfl
    unfold runOps
    dsimp only
    split_ifs
    · rw [hone]
    · rw [runOps_frame ops (notifyOp c t)]
      rw [hone]

theorem needDataOp_marks (c : State) (t : Source) :
    (needDataOp c t).needDataPending = c.needDataPending ∧
      (needDataOp c t).audioSourceRemoved = c.audioSourceRemoved := by
  unfold needDataOp
  dsimp only
  split_ifs <;> exact ⟨rfl, rfl⟩

theorem needDataOp_asks (h : asks c t = true) : (needDataOp c t).waiting = some t := by
  have hcond : (!c.needDataPending t && !(decide (t = .audio) && c.audioSourceRemoved)) = true := h
  unfold needDataOp
  dsimp only
  rw [if_pos hcond]
  rfl

/-- **A seek clears the regions of the sources it asks for.** -/
theorem clearing_runOps : ∀ {ops : List Op} {c : State}, OnlyNeedData ops → c.waiting = none →
    .needData t ∈ ops → asks c t = true → clearing (runOps c ops) t = true
  | [], _, _, _, hmem, _ => by cases hmem
  | op :: ops, c, hops, hw, hmem, hasks => by
    obtain ⟨u, rfl⟩ := hops op (by simp)
    have hops' : OnlyNeedData ops := fun op h => hops op (by simp [h])
    obtain ⟨hp, ha⟩ := needDataOp_marks c u
    have hasks' : asks (needDataOp c u) t = true := by
      unfold asks at hasks ⊢
      rwa [hp, ha]
    unfold runOps
    dsimp only
    by_cases hut : t = u
    · subst hut
      have hwait := needDataOp_asks hasks
      rw [if_pos (by simp [hwait])]
      simp [clearing, hwait]
    · have hmem' : .needData t ∈ ops :=
        (List.mem_cons.mp hmem).resolve_left fun h => hut (Op.needData.inj h)
      split_ifs with hwait
      · have hseek : ops.contains .seek = false := by
          simpa using seek_notMem_of_onlyNeedData hops'
        have hmem'' : ops.contains (.needData t) = true := List.contains_iff_mem.mpr hmem'
        have hsame : asks { needDataOp c u with ops := ops } t = true := hasks'
        unfold clearing
        dsimp only
        rw [hseek, hmem'', hsame]
        simp
      · exact clearing_runOps hops' (by simpa using hwait) hmem' hasks'

/-! ## The worker -/

theorem Flushed.ask (h : Flushed c) (t : Source) : Flushed (ask c t) := by
  refine h.mono rfl rfl rfl rfl rfl ?_ (fun h => h) fun _ _ h => Or.inl h
  simp [Session.ask]

theorem Flushed.needDataOp (h : Flushed c) (t : Source) : Flushed (needDataOp c t) := by
  have hset : Flushed { c with needData := Function.update c.needData t true } :=
    h.mono rfl rfl rfl rfl rfl rfl (fun h => h) fun _ _ h => Or.inl h
  unfold Session.needDataOp
  dsimp only
  split_ifs
  · exact hset.ask t
  · exact hset

theorem Flushed.setOps (h : Flushed c) {ops : List Op} (hops : OnlyNeedData ops) :
    Flushed { c with ops := ops } :=
  h.mono rfl rfl rfl rfl rfl rfl (fun hs => absurd hs (seek_notMem_of_onlyNeedData hops))
    fun _ _ h => Or.inl h

theorem Flushed.runOps (h : Flushed c) (hw : c.waiting = none) {ops : List Op}
    (hops : OnlyNeedData ops) : Flushed (runOps c ops) :=
  runOps_needData (fun _ _ hops hc => hc.setOps hops) (fun _ t _ hc => hc.needDataOp t) hops hw h

theorem Flushed.notify (h : Flushed c) (t : Source) :
    Flushed (Session.runOps c [.notifyNeedMediaData t]) := by
  have hset : Flushed { c with needDataPending := Function.update c.needDataPending t false } :=
    h.mono rfl rfl rfl rfl rfl rfl (fun h => h) fun _ _ h => Or.inl h
  have hnotify : Flushed (notifyOp c t) := by
    unfold notifyOp
    dsimp only
    split_ifs
    · exact hset.ask t
    · exact hset
  rw [runOps_notify_one]
  exact hnotify.setOps fun op hop => by cases hop

/-- Queueing the sample of a current request pushes samples of current requests only. -/
theorem Flushed.attachSample (h : Flushed c) (ho : c.ops = []) (hr : Current c.flushed request)
    (t : Source) : Flushed (attachSample request t c) := by
  have hqueued : ∀ u, ∀ r ∈ Function.update c.buffers t (c.buffers t ++ [request]) u,
      Current c.flushed r := by
    intro u r hmem
    by_cases hut : u = t
    · subst hut
      rw [Function.update_self] at hmem
      rcases List.mem_append.mp hmem with hmem | hmem
      · exact h.buffers u r hmem
      · rw [List.mem_singleton.mp hmem]
        exact hr
    · rw [Function.update_of_ne hut] at hmem
      exact h.buffers u r hmem
  unfold Session.attachSample attachData
  dsimp only
  split_ifs
  · refine ⟨fun p hp => ?_, fun u r hmem => ?_, h.requests, h.numbered, h.flushed, ?_⟩
    · rcases List.mem_append.mp hp with hp | hp
      · exact h.pushed p hp
      · obtain ⟨r, hmem, rfl⟩ := List.mem_map.mp hp
        exact hqueued t r hmem
    · refine hqueued u r ?_
      by_cases hut : u = t
      · subst hut
        simp at hmem
      · simpa [Function.update_of_ne hut] using hmem
    · intro hs
      rw [ho] at hs
      cases hs
  · refine ⟨h.pushed, hqueued, h.requests, h.numbered, h.flushed, ?_⟩
    intro hs
    rw [ho] at hs
    cases hs

theorem Flushed.attachMany (request : Request) (t : Source) :
    ∀ (n : ℕ) {c : State}, Flushed c → c.ops = [] → (n ≠ 0 → Current c.flushed request) →
      Flushed (attachMany request t n c)
  | 0, _, h, _, _ => h
  | n + 1, c, h, ho, hr => by
    have hframe := attachMany_frame request t 1 c
    have hone := h.attachSample ho (hr (by simp)) t
    unfold Session.attachMany at hframe
    unfold Session.attachMany at hframe ⊢
    refine Flushed.attachMany request t n hone ?_ fun _ => ?_
    · rw [hframe]
      exact ho
    · rw [hframe]
      exact hr (by simp)

/-- The task attaches samples when it is executed after the flush of a seek that has the given
operations left: segments, or frames of version 1, or frames of a source whose region the seek does
not clear. -/
def passes (c : State) (ops : List Op) : WorkerTask → Bool
  | .readShmDataAndAttachSamples request _ version =>
    version == .v1 || !(ops.contains (.needData request.type) && asks c request.type)
  | .attachSamples request => request.segments.any Option.isSome
  | _ => false

/-- The frames announced by a `haveData` will not be read: their version is not supported, or it is
version 2 and the region is about to be cleared. -/
def lost (c : State) (env : Env) (t : Source) : Bool :=
  match env.version with
  | none => true
  | some .v1 => false
  | some .v2 => clearing c t

/-- No answer passes a flush: the pipeline is flushed with no task queued that passes it and, if the
requests have been cleared for the seek, with none issued since; and a `haveData` that attaches
samples for an active request is not executed between a flush and the clearing for its seek, unless
the frames are lost. -/
def settled (c : State) : Action → Bool
  | .main env =>
    match c.mainQueue with
    | .haveData status numFrames id :: _ =>
      match c.activeRequests.find? id with
      | none => true
      | some request => (status != .ok && status != .eos) || !env.region || numFrames == 0 ||
          decide (c.flushed ≤ c.clears) || lost c env request.type
    | .haveDataSegments status id :: _ =>
      match c.activeRequests.find? id with
      | none => true
      | some request => (status != .ok && status != .eos) ||
          !request.segments.any Option.isSome || decide (c.flushed ≤ c.clears)
    | _ => true
  | .work env =>
    match c.ops with
    | .seek :: ops => !env.seekAccepted ||
        (c.workerQueue.all (fun wtask => !passes c ops wtask) &&
          (c.clears != c.seeks || c.activeRequests.entries.isEmpty))
    | _ => true
  | _ => true

/-- A seek that has begun. -/
theorem Flushed.startSetPosition (h : Flushed c) : Flushed (startSetPosition c) := by
  refine ⟨h.pushed, fun u r hmem => ?_, h.requests, ?_, h.flushed.trans (Nat.le_succ _),
    fun _ _ => rfl⟩
  · cases hmem
  · have := h.numbered
    simp only [Session.startSetPosition, List.count_append, List.count_singleton_self]
    omega

theorem Flushed.removeAudio (h : Flushed c) : Flushed (removeAudio c) := by
  refine ⟨h.pushed, fun u r hmem => ?_, h.requests, ?_, h.flushed, fun hs u => ?_⟩
  · cases u with
    | audio => simp [Session.removeAudio] at hmem
    | video => exact h.buffers .video r (by simpa [Session.removeAudio] using hmem)
  · have := h.numbered
    simpa [Session.removeAudio] using this
  · simp [Session.removeAudio, Function.update_apply, h.emptied hs]

/-- The frames that a task reads are those of a current request. -/
theorem Ready.found {n : ℕ} {version : MetadataVersion} {found : Request}
    (h : Ready c (.readShmDataAndAttachSamples request n version))
    (hfound : readData c env request version = some found) : Current c.flushed found := by
  obtain ⟨⟨-, hregion⟩, hv⟩ := h
  cases version with
  | v1 =>
    have hown : Current c.flushed request := hv rfl
    unfold readData at hfound
    dsimp only at hfound
    split_ifs at hfound
    · rcases hreg : c.regions request.type with _ | r
      · rw [hreg] at hfound
        cases hfound
        exact hown
      · rw [hreg] at hfound
        cases hfound
        exact hregion _ hreg
    · cases hfound
      exact hown
  | v2 =>
    unfold readData at hfound
    dsimp only at hfound
    split_ifs at hfound
    exact hregion found hfound

theorem count_segments (h : request.segments.count (some t) ≠ 0) :
    request.segments.any Option.isSome = true :=
  List.any_eq_true.mpr ⟨some t, List.count_pos_iff.mp (Nat.pos_of_ne_zero h), rfl⟩

theorem flushed_startTask (hc : Flushed c) (hready : Ready c wtask) (hw : c.waiting = none)
    (ho : c.ops = []) (queue : List WorkerTask) :
    Flushed (startTask { c with workerQueue := queue } env wtask) := by
  have hd : Flushed { c with workerQueue := queue } :=
    hc.mono rfl rfl rfl rfl rfl rfl (fun h => h) fun _ _ h => Or.inl h
  have hkept : ∀ {d : State}, d.pushed = c.pushed → d.buffers = c.buffers →
      d.flushed = c.flushed → d.seeks = c.seeks → d.clears = c.clears →
      d.mainQueue = c.mainQueue → d.ops = c.ops → d.activeRequests = c.activeRequests →
      Flushed d := by
    intro d h1 h2 h3 h4 h5 h6 h7 h8
    exact hc.mono h1 h2 h3 h4 h5 (by rw [h6]) (fun h => by rwa [h7] at h)
      fun _ e he => Or.inl (by rwa [h8] at he)
  cases wtask with
  | needData u =>
    simp only [startTask]
    split_ifs
    · exact hd.runOps hw fun op hop => ⟨u, List.mem_singleton.mp hop⟩
    · exact hd
  | enoughData u =>
    simp only [startTask]
    split_ifs
    · exact hkept rfl rfl rfl rfl rfl rfl rfl rfl
    · exact hd
  | setPosition => exact hd.startSetPosition
  | attachSource u m =>
    simp only [startTask]
    split_ifs
    · exact hkept rfl rfl rfl rfl rfl rfl rfl rfl
    · have hset : Flushed { c with
          workerQueue := queue
          needData := Function.update c.needData .audio true
          audioSourceRemoved := false } := hkept rfl rfl rfl rfl rfl rfl rfl rfl
      exact hset.notify .audio
    · exact hd
  | removeSource u =>
    simp only [startTask]
    split_ifs
    · exact hd.removeAudio
    · exact hd
  | readShmDataAndAttachSamples r n version =>
    have hsame : readData { c with workerQueue := queue } env r version =
        readData c env r version := rfl
    simp only [startTask, hsame]
    rcases hfound : readData c env r version with _ | found
    · exact hd
    · have hmany := hd.attachMany found r.type n ho fun _ => hready.found hfound
      dsimp only
      split_ifs
      · exact hmany.setOps fun op hop => by cases hop
      · exact hmany.notify r.type
  | attachSamples r =>
    have haudio := hd.attachMany r .audio (r.segments.count (some .audio)) ho
      fun hn => hready (count_segments hn)
    have hframe := attachMany_frame r .audio (r.segments.count (some .audio))
      { c with workerQueue := queue }
    have hvideo := haudio.attachMany r .video (r.segments.count (some .video))
      (by rw [hframe]; exact ho) fun hn => by rw [hframe]; exact hready (count_segments hn)
    simp only [startTask]
    rcases notified r.segments with _ | v
    · exact hvideo.setOps fun op hop => by cases hop
    · exact hvideo.notify v
  | eos u => exact hd

/-- What the worker leaves alone. -/
theorem startTask_kept (c : State) (env : Env) (wtask : WorkerTask) :
    (startTask c env wtask).workerQueue = c.workerQueue ∧
      (startTask c env wtask).flushed = c.flushed ∧ (startTask c env wtask).clears = c.clears ∧
      (startTask c env wtask).regions = c.regions := by
  have hrun : ∀ (d : State) (ops : List Op), (runOps d ops).workerQueue = d.workerQueue ∧
      (runOps d ops).flushed = d.flushed ∧ (runOps d ops).clears = d.clears ∧
      (runOps d ops).regions = d.regions := by
    intro d ops
    rw [runOps_frame]
    exact ⟨rfl, rfl, rfl, rfl⟩
  cases wtask with
  | needData u =>
    simp only [startTask]
    split_ifs
    · exact hrun c _
    · exact ⟨rfl, rfl, rfl, rfl⟩
  | enoughData u =>
    simp only [startTask]
    split_ifs <;> exact ⟨rfl, rfl, rfl, rfl⟩
  | setPosition => exact ⟨rfl, rfl, rfl, rfl⟩
  | attachSource u m =>
    simp only [startTask]
    split_ifs
    · exact ⟨rfl, rfl, rfl, rfl⟩
    · exact hrun _ _
    · exact ⟨rfl, rfl, rfl, rfl⟩
  | removeSource u =>
    simp only [startTask]
    split_ifs <;> exact ⟨rfl, rfl, rfl, rfl⟩
  | readShmDataAndAttachSamples r n version =>
    simp only [startTask]
    rcases readData c env r version with _ | found
    · exact ⟨rfl, rfl, rfl, rfl⟩
    · dsimp only
      rw [attachMany_frame]
      exact hrun _ _
  | attachSamples r =>
    simp only [startTask]
    rw [attachMany_frame, attachMany_frame]
    exact hrun _ _
  | eos u => exact ⟨rfl, rfl, rfl, rfl⟩

theorem harmless_startTask (h : Harmless c) (hw : c.waiting = none) (ho : c.ops = [])
    {queue : List WorkerTask} (hq : c.workerQueue = wtask :: queue) :
    Harmless (startTask { c with workerQueue := queue } env wtask) := by
  obtain ⟨hqueue, hf, hcl, hr⟩ := startTask_kept { c with workerQueue := queue } env wtask
  intro wt hmem
  rw [hqueue] at hmem
  have hready := h.ready hw (Or.inl ho) (by rw [hq]; exact List.mem_cons_of_mem _ hmem)
  exact Or.inl (hready.mono hf hcl.ge fun _ t r hreg => Or.inl (by rwa [hr] at hreg))

theorem flushed_seek (hc : Flushed c) (hs : Sound c) {ops : List Op} (hw : c.waiting = none)
    (ho : c.ops = .seek :: ops) (hok : settled c (.work env) = true) :
    Flushed (seek c env ops) := by
  simp only [settled, ho, Bool.or_eq_true, Bool.and_eq_true, Bool.not_eq_true', bne_iff_ne,
    List.isEmpty_iff] at hok
  unfold seek
  split_ifs with haccept
  · obtain ⟨-, hrequests⟩ := hok.resolve_left (by simp [haccept])
    have hflush : Flushed { c with flushed := c.seeks, ops := [] } := by
      refine ⟨hc.pushed, ?_, ?_, hc.numbered, le_rfl, fun h => by cases h⟩
      · intro u r hmem
        have hmem : r ∈ c.buffers u := hmem
        rw [hc.emptied (by rw [ho]; simp) u] at hmem
        cases hmem
      · intro hle e he
        have hnum := hc.numbered
        have hle : c.seeks ≤ c.clears := hle
        have he : e ∈ c.activeRequests.entries := he
        rw [hrequests.resolve_left (by omega)] at he
        cases he
    exact hflush.runOps hw (hs.seek_rest ho)
  · exact hc.setOps fun op hop => by cases hop

/-- The tasks that are queued when the pipeline is flushed attach nothing, or the seek goes on to
clear what they read. -/
theorem harmless_seek (h : Harmless c) (hs : Sound c) {ops : List Op} (hw : c.waiting = none)
    (ho : c.ops = .seek :: ops) (hok : settled c (.work env) = true) :
    Harmless (seek c env ops) := by
  simp only [settled, ho, Bool.or_eq_true, Bool.and_eq_true, Bool.not_eq_true', List.all_eq_true]
    at hok
  unfold seek
  split_ifs with haccept
  · obtain ⟨hpass, -⟩ := hok.resolve_left (by simp [haccept])
    intro wt hmem
    rw [runOps_frame] at hmem
    have hno := hpass wt hmem
    cases wt with
    | readShmDataAndAttachSamples r n version =>
      simp only [passes, Bool.or_eq_false_iff, Bool.not_eq_false', Bool.and_eq_true,
        List.contains_iff_mem, beq_eq_false_iff_ne] at hno
      refine Or.inr ⟨?_, clearing_runOps (hs.seek_rest ho) hw hno.2.1 hno.2.2⟩
      cases version with
      | v1 => exact absurd rfl hno.1
      | v2 => rfl
    | attachSamples r =>
      have hno : r.segments.any Option.isSome = false := hno
      exact Or.inl fun hany => by rw [hno] at hany; cases hany
    | _ => exact Or.inl trivial
  · intro wt hmem
    have hready := h.ready hw (Or.inr (by rw [ho]; simp)) hmem
    exact Or.inl (hready.mono rfl le_rfl fun _ _ _ hreg => Or.inl hreg)

/-! ## The main thread -/

/-- Taking a task from the queue, other than the clearing of the requests. -/
theorem Flushed.pop (h : Flushed c) {queue : List MainTask} (hq : c.mainQueue = task :: queue)
    (hne : task ≠ .clearActiveRequests) : Flushed { c with mainQueue := queue } := by
  refine h.mono rfl rfl rfl rfl rfl ?_ (fun h => h) fun _ _ h => Or.inl h
  rw [hq]
  exact (List.count_cons_of_ne (by simpa using hne)).symm

theorem Harmless.pop (h : Harmless c) (queue : List MainTask) :
    Harmless { c with mainQueue := queue } :=
  h.mono (fun _ h => h) rfl le_rfl (fun _ _ _ h => Or.inl h) rfl rfl rfl rfl

/-- `haveData` only takes a request away from what has been pushed and what waits. -/
theorem Flushed.handled (h : Flushed c) {id : ℕ} (hh : Handled c id c') : Flushed c' := by
  have herase : ∀ e ∈ (c.activeRequests.erase id).entries, e ∈ c.activeRequests.entries :=
    fun e he => (OMap.mem_erase.mp he).1
  cases hh with
  | unknown => exact h
  | rescheduled _ =>
    rw [schedule_frame]
    exact h.mono rfl rfl rfl rfl rfl rfl (fun h => h) fun _ e he => Or.inl (herase e he)
  | failed _ =>
    exact h.mono rfl rfl rfl rfl rfl rfl (fun h => h) fun _ e he => Or.inl (herase e he)
  | attached _ _ _ _ status =>
    unfold attachAndSetEos
    split_ifs
    · exact h.mono rfl rfl rfl rfl rfl rfl (fun h => h) fun _ e he => Or.inl (herase e he)
    · exact h.mono rfl rfl rfl rfl rfl rfl (fun h => h) fun _ e he => Or.inl (herase e he)

/-- The tasks that a `haveData` appends, and the region it may write. -/
theorem Harmless.attach (h : Harmless c) {attach : List WorkerTask} {requests : OMap ℕ Request}
    {regions : Source → Option Request} (status : MediaSourceStatus)
    (hregions : c.flushed ≤ c.clears → ∀ u r, regions u = some r →
      c.regions u = some r ∨ Current c.flushed r)
    (hattach : ∀ wtask ∈ attach, Ready { c with regions := regions } wtask ∨ Cleared c wtask) :
    Harmless (attachAndSetEos { c with activeRequests := requests, regions := regions } t attach
      status) := by
  have hold : Harmless { c with activeRequests := requests, regions := regions } :=
    h.mono (fun _ h => h) rfl le_rfl hregions rfl rfl rfl rfl
  unfold attachAndSetEos
  split_ifs
  · intro wt hmem
    rcases List.mem_append.mp hmem with hmem | hmem
    · exact hold wt hmem
    · rcases List.mem_append.mp hmem with hmem | hmem
      · exact hattach wt hmem
      · rw [List.mem_singleton.mp hmem]
        exact Or.inl trivial
  · intro wt hmem
    rcases List.mem_append.mp hmem with hmem | hmem
    · exact hold wt hmem
    · exact hattach wt hmem

theorem Harmless.schedule (h : Harmless c) (requests : OMap ℕ Request) (t : Source) :
    Harmless (scheduleNotifyNeedMediaData { c with activeRequests := requests } t) := by
  rw [schedule_frame]
  exact h.mono (fun _ h => h) rfl le_rfl (fun _ _ _ h => Or.inl h) rfl rfl rfl rfl

theorem harmless_haveData (hc : Flushed c) (h : Harmless c) {status : MediaSourceStatus} {n id : ℕ}
    (hok : ∀ request, c.activeRequests.find? id = some request →
      (status ≠ .ok ∧ status ≠ .eos) ∨ env.region = false ∨ n = 0 ∨ c.flushed ≤ c.clears ∨
        lost c env request.type = true) : Harmless (haveData c env status n id) := by
  have herase : ∀ requests, Harmless { c with activeRequests := requests } := fun _ =>
    h.mono (fun _ h => h) rfl le_rfl (fun _ _ _ h => Or.inl h) rfl rfl rfl rfl
  unfold haveData
  rcases hf : c.activeRequests.find? id with _ | request
  · exact h
  have hcases := hok request hf
  dsimp only
  split_ifs with hst hregion hn
  · exact h.schedule _ _
  · exact herase _
  · exact h.attach status (fun _ _ _ h => Or.inl h) fun wt hmem => by cases hmem
  · rcases hv : env.version with _ | version
    · exact herase _
    · have hregions : c.flushed ≤ c.clears → ∀ u r,
          Function.update c.regions request.type (some request) u = some r →
          c.regions u = some r ∨ Current c.flushed r := by
        intro hle u r hreg
        by_cases hut : u = request.type
        · subst hut
          rw [Function.update_self] at hreg
          cases hreg
          exact Or.inr (hc.find hle hf)
        · rw [Function.update_of_ne hut] at hreg
          exact Or.inl hreg
      refine h.attach status hregions fun wt hmem => ?_
      rw [List.mem_singleton.mp hmem]
      rcases hcases with hno | hno | hno | hle | hlost
      · exact absurd hno hst
      · exact absurd hno (by simpa using hregion)
      · exact absurd hno hn
      · refine Or.inl ⟨⟨hle, fun r hreg => ?_⟩, fun _ => hc.find hle hf⟩
        dsimp only at hreg
        rw [Function.update_self] at hreg
        cases hreg
        exact hc.find hle hf
      · unfold lost at hlost
        rw [hv] at hlost
        cases version with
        | v1 => cases hlost
        | v2 => exact Or.inr ⟨rfl, hlost⟩

theorem harmless_haveDataSegments (hc : Flushed c) (h : Harmless c) {status : MediaSourceStatus}
    {id : ℕ} (hok : ∀ request, c.activeRequests.find? id = some request →
      (status ≠ .ok ∧ status ≠ .eos) ∨ request.segments.any Option.isSome = false ∨
        c.flushed ≤ c.clears) : Harmless (haveDataSegments c status id) := by
  unfold haveDataSegments
  rcases hf : c.activeRequests.find? id with _ | request
  · exact h
  have hcases := hok request hf
  dsimp only
  split_ifs with hst
  · exact h.schedule _ _
  · refine h.attach status (fun _ _ _ h => Or.inl h) fun wt hmem => ?_
    rw [List.mem_singleton.mp hmem]
    refine Or.inl fun hany => ?_
    rcases hcases with hno | hno | hle
    · exact absurd hno hst
    · rw [hno] at hany
      cases hany
    · exact hc.find hle hf

/-- A request that is issued is current, unless the requests of the flushed seek are still to be
cleared. -/
theorem flushed_notifyInternal (env : Env) (t : Source) (h : Flushed c) :
    Flushed (notifyNeedMediaDataInternal c env t).1 := by
  unfold notifyNeedMediaDataInternal
  dsimp only
  split_ifs
  · exact h.mono rfl rfl rfl rfl rfl rfl (fun h => h) fun _ _ h => Or.inl h
  · refine h.mono rfl rfl rfl rfl rfl rfl (fun h => h) fun hle e he => ?_
    rcases OMap.mem_of_mem_emplace he with rfl | he
    · exact Or.inr ⟨rfl, hle⟩
    · exact Or.inl he

/-- A need-data event leaves in the region of its source what a new request may bring. -/
theorem regions_notifyInternal (c : State) (env : Env) (t : Source) :
    (∀ u ≠ t, (notifyNeedMediaDataInternal c env t).1.regions u = c.regions u) ∧
      ∀ r, (notifyNeedMediaDataInternal c env t).1.regions t = some r →
        r = ⟨t, [], c.flushed, c.clears⟩ := by
  unfold notifyNeedMediaDataInternal
  dsimp only
  split_ifs
  · exact ⟨fun u hu => Function.update_of_ne hu _ _, fun r hr => by simp at hr⟩
  · refine ⟨fun u hu => Function.update_of_ne hu _ _, fun r hr => ?_⟩
    dsimp only at hr
    rw [Function.update_self] at hr
    exact (Option.some.inj hr).symm

theorem regions_kept (env : Env) (t : Source) : c.flushed ≤ c.clears → ∀ u r,
    (notifyNeedMediaDataInternal c env t).1.regions u = some r →
    c.regions u = some r ∨ Current c.flushed r := by
  intro hle u r hreg
  obtain ⟨hother, hnew⟩ := regions_notifyInternal c env t
  by_cases hut : u = t
  · subst hut
    rw [hnew r hreg]
    exact Or.inr ⟨rfl, hle⟩
  · rw [hother u hut] at hreg
    exact Or.inl hreg

theorem harmless_notifyInternal (h : Harmless c) (env : Env) (t : Source) :
    Harmless (notifyNeedMediaDataInternal c env t).1 := by
  have hregions := regions_kept (c := c) env t
  rw [notifyInternal_frame] at hregions ⊢
  exact h.mono (fun _ h => h) rfl le_rfl hregions rfl rfl rfl rfl

theorem flushed_addSegment (h : Flushed c) (id : ℕ) (segment : Option Source) (fits : Bool) :
    Flushed (addSegment c id segment fits) := by
  unfold addSegment
  rcases hf : c.activeRequests.find? id with _ | r
  · exact h
  · dsimp only
    split_ifs
    · refine h.mono rfl rfl rfl rfl rfl rfl (fun h => h) fun hle e he => ?_
      rcases OMap.mem_insert.mp he with rfl | he
      · have hr : Current c.flushed r := h.find hle hf
        exact Or.inr hr
      · exact Or.inl he.1
    · exact h

/-- More tasks for the worker that attach nothing, and other sources attached. -/
theorem Flushed.appendWorker (h : Flushed c) (tasks : List WorkerTask)
    (attachedSources : Source → Bool) : Flushed { c with
      workerQueue := tasks, attachedSources := attachedSources } :=
  h.mono rfl rfl rfl rfl rfl rfl (fun h => h) fun _ _ h => Or.inl h

theorem Harmless.appendWorker (h : Harmless c) (wtask : WorkerTask) (hready : ∀ d, Ready d wtask)
    (attachedSources : Source → Bool) : Harmless { c with
      workerQueue := c.workerQueue ++ [wtask], attachedSources := attachedSources } := by
  intro wt hmem
  rcases List.mem_append.mp hmem with hmem | hmem
  · exact h wt hmem
  · rw [List.mem_singleton.mp hmem]
    exact Or.inl (hready _)

/-- The worker's question is answered: the region that it asked for is clear, and it goes on to ask
for the others. -/
theorem harmless_needMediaData (hc : Flushed c) (h : Harmless c) (hs : Sound c)
    {queue : List MainTask} (hq : c.mainQueue = .needMediaData t :: queue) :
    Harmless (mainTask { c with mainQueue := queue } env (.needMediaData t)) := by
  have hwait := hs.asked t (by rw [hq]; simp)
  have hops := hs.ops_of_waiting hwait
  -- the requests have been cleared for every seek, since that was posted before the question
  have hle : c.flushed ≤ c.clears := by
    have hnone : queue.count .clearActiveRequests = 0 := by
      refine List.count_eq_zero.mpr fun hmem => ?_
      have := hs.behind hq _ hmem
      cases this
    have hnum := hc.numbered
    have hflush := hc.flushed
    rw [hq, List.count_cons_of_ne (by simp), hnone] at hnum
    omega
  have hregions := regions_kept (c := { c with mainQueue := queue }) env t hle
  have hnew := (regions_notifyInternal { c with mainQueue := queue } env t).2
  have hframe := notifyInternal_frame { c with mainQueue := queue } env t
  simp only [mainTask]
  set r := notifyNeedMediaDataInternal { c with mainQueue := queue } env t with hr
  have hr_ops : r.1.ops = c.ops := by rw [hframe]
  have hr_flushed : r.1.flushed = c.flushed := by rw [hframe]
  have hr_clears : r.1.clears = c.clears := by rw [hframe]
  have hr_queue : r.1.workerQueue = c.workerQueue := by rw [hframe]
  have hr_marks : r.1.needDataPending = c.needDataPending ∧
      r.1.audioSourceRemoved = c.audioSourceRemoved := by rw [hframe]; exact ⟨rfl, rfl⟩
  unfold answer
  intro wt hmem
  rw [runOps_frame] at hmem
  rw [hr_queue] at hmem
  have hkept : ∀ {wtask : WorkerTask}, Ready { c with regions := r.1.regions } wtask →
      Ready (runOps { r.1 with
        needDataPending := Function.update r.1.needDataPending t r.2, waiting := none } r.1.ops)
        wtask := by
    intro wtask hd
    rw [runOps_frame]
    exact hd.mono hr_flushed hr_clears.ge fun _ _ _ hreg => Or.inl hreg
  rcases h wt hmem with hready | hcl
  · have hready' : Ready { c with regions := r.1.regions } wt :=
      hready.mono rfl le_rfl fun _ u q hreg => hregions u q hreg
    exact Or.inl (hkept hready')
  · cases wt with
    | readShmDataAndAttachSamples request n version =>
      obtain ⟨rfl, hclear⟩ := hcl
      by_cases htype : request.type = t
      · subst htype
        have hready : Ready { c with regions := r.1.regions }
            (.readShmDataAndAttachSamples request n .v2) := by
          refine ⟨⟨hle, fun q hreg => ?_⟩, fun hv => by cases hv⟩
          rw [hnew q hreg]
          exact ⟨rfl, hle⟩
        exact Or.inl (hkept hready)
      · simp only [clearing, hwait, Bool.or_eq_true, Bool.and_eq_true, beq_iff_eq,
          Option.some.injEq, List.contains_iff_mem] at hclear
        obtain ⟨⟨-, hneed⟩, hasks⟩ := hclear.resolve_left fun h => htype h.symm
        refine Or.inr ⟨rfl, clearing_runOps (by rw [hr_ops]; exact hops) rfl
          (by rw [hr_ops]; exact hneed) ?_⟩
        unfold asks at hasks ⊢
        dsimp only
        rwa [Function.update_of_ne htype, hr_marks.1, hr_marks.2]
    | _ => exact hcl.elim

theorem flushed_mainTask (hc : Flushed c) (hs : Sound c) {queue : List MainTask}
    (hq : c.mainQueue = task :: queue) :
    Flushed (mainTask { c with mainQueue := queue } env task) := by
  have hpop : task ≠ .clearActiveRequests → Flushed { c with mainQueue := queue } := hc.pop hq
  cases task with
  | haveData status n id => exact (hpop (by simp)).handled (Handled.of_haveData _ env status n id)
  | haveDataSegments status id =>
    exact (hpop (by simp)).handled (Handled.of_haveDataSegments _ status id)
  | addSegment id segment fits => exact flushed_addSegment (hpop (by simp)) id segment fits
  | attachSource u m => exact (hpop (by simp)).appendWorker _ _
  | removeSource u =>
    have hd := hpop (by simp)
    simp only [mainTask, removeSource]
    split_ifs
    · exact hd.appendWorker _ _
    · exact hd
  | setPosition => exact (hpop (by simp)).appendWorker _ c.attachedSources
  | needMediaData u =>
    have hd := flushed_notifyInternal env u (hpop (by simp))
    have hops := hs.ops_of_waiting (hs.asked u (by rw [hq]; simp))
    have hframe := notifyInternal_frame { c with mainQueue := queue } env u
    simp only [mainTask]
    set r := notifyNeedMediaDataInternal { c with mainQueue := queue } env u with hr
    have hanswer : Flushed { r.1 with
        needDataPending := Function.update r.1.needDataPending u r.2, waiting := none } :=
      hd.mono rfl rfl rfl rfl rfl rfl (fun h => h) fun _ _ h => Or.inl h
    exact hanswer.runOps rfl (by rw [hframe]; exact hops)
  | clearActiveRequests =>
    refine ⟨hc.pushed, hc.buffers, ?_, ?_, hc.flushed, hc.emptied⟩
    · intro _ e he
      cases he
    · have := hc.numbered
      rw [hq, List.count_cons_self] at this
      simp only [mainTask]
      omega
  | invalidateActiveRequests u =>
    exact (hpop (by simp)).mono rfl rfl rfl rfl rfl rfl (fun h => h)
      fun _ e he => Or.inl (OMap.mem_eraseIf.mp he).1
  | resend u =>
    have hd := flushed_notifyInternal env u (hpop (by simp))
    simp only [mainTask, resendNeedMediaData_eq]
    split_ifs
    · exact hd
    · exact hd.mono rfl rfl rfl rfl rfl rfl (fun h => h) fun _ _ h => Or.inl h

theorem harmless_mainTask (hc : Flushed c) (h : Harmless c) (hs : Sound c) {queue : List MainTask}
    (hq : c.mainQueue = task :: queue) (hok : settled c (.main env) = true) :
    Harmless (mainTask { c with mainQueue := queue } env task) := by
  have hd : Harmless { c with mainQueue := queue } := h.pop queue
  simp only [settled, hq] at hok
  cases task with
  | haveData status n id =>
    refine harmless_haveData (hc.pop hq (by simp)) hd fun request hf => ?_
    have hf : c.activeRequests.find? id = some request := hf
    simp only [hf, Bool.or_eq_true, Bool.and_eq_true, Bool.not_eq_true', bne_iff_ne, beq_iff_eq,
      decide_eq_true_eq, or_assoc] at hok
    exact hok
  | haveDataSegments status id =>
    refine harmless_haveDataSegments (hc.pop hq (by simp)) hd fun request hf => ?_
    have hf : c.activeRequests.find? id = some request := hf
    simp only [hf, Bool.or_eq_true, Bool.and_eq_true, Bool.not_eq_true', bne_iff_ne,
      decide_eq_true_eq, or_assoc] at hok
    exact hok
  | addSegment id segment fits =>
    simp only [mainTask, addSegment]
    split
    · exact hd
    · split_ifs
      · exact hd.mono (fun _ h => h) rfl le_rfl (fun _ _ _ h => Or.inl h) rfl rfl rfl rfl
      · exact hd
  | attachSource u m => exact hd.appendWorker (.attachSource u m) (fun _ => trivial) _
  | removeSource u =>
    simp only [mainTask, removeSource]
    split_ifs
    · exact hd.appendWorker (.removeSource u) (fun _ => trivial) _
    · exact hd
  | setPosition => exact hd.appendWorker .setPosition (fun _ => trivial) c.attachedSources
  | needMediaData u => exact harmless_needMediaData hc h hs hq
  | clearActiveRequests =>
    exact hd.mono (fun _ h => h) rfl (Nat.le_succ _) (fun _ _ _ h => Or.inl h) rfl rfl rfl rfl
  | invalidateActiveRequests u =>
    exact hd.mono (fun _ h => h) rfl le_rfl (fun _ _ _ h => Or.inl h) rfl rfl rfl rfl
  | resend u =>
    have hn := harmless_notifyInternal hd env u
    simp only [mainTask, resendNeedMediaData_eq]
    split_ifs
    · exact hn
    · exact hn.mono (fun _ h => h) rfl le_rfl (fun _ _ _ h => Or.inl h) rfl rfl rfl rfl

/-! ## The session -/

theorem Flushed.post (h : Flushed c) (task : MainTask) (hne : task ≠ .clearActiveRequests) :
    Flushed (post c task) := by
  refine h.mono rfl rfl rfl rfl rfl ?_ (fun h => h) fun _ _ h => Or.inl h
  have hzero : [task].count .clearActiveRequests = 0 :=
    List.count_eq_zero.mpr (by simpa using hne.symm)
  exact List.count_append.trans (by rw [hzero, Nat.add_zero])

/-- **A step in which no answer passes a flush keeps the pushed buffers current.** -/
theorem flushed_step (hc : Flushed c) (h : Harmless c) (hs : Sound c) (hok : settled c a = true)
    (hstep : step c a = some c') : Flushed c' := by
  cases Step.of_step hstep with
  | @call task hcall =>
    refine hc.post _ ?_
    rintro rfl
    cases hcall
  | needDataCallback t => exact hc.appendWorker _ c.attachedSources
  | enoughDataCallback t => exact hc.appendWorker _ c.attachedSources
  | @timerFires t _ =>
    exact (hc.post (.resend t) (by simp)).mono rfl rfl rfl rfl rfl rfl (fun h => h)
      fun _ _ h => Or.inl h
  | timerEnds _ => exact hc.mono rfl rfl rfl rfl rfl rfl (fun h => h) fun _ _ h => Or.inl h
  | main hq env => exact flushed_mainTask hc hs hq
  | seek hw ho env => exact flushed_seek hc hs hw ho hok
  | @work wtask queue hw ho hq env =>
    exact flushed_startTask hc (h.ready hw (Or.inl ho) (by rw [hq]; simp)) hw ho queue

/-- **And it keeps the queued tasks harmless.** -/
theorem harmless_step (hc : Flushed c) (h : Harmless c) (hs : Sound c) (hok : settled c a = true)
    (hstep : step c a = some c') : Harmless c' := by
  have hsame : ∀ {d : State}, d.workerQueue = c.workerQueue → d.flushed = c.flushed →
      d.clears = c.clears → d.regions = c.regions → d.waiting = c.waiting → d.ops = c.ops →
      d.needDataPending = c.needDataPending → d.audioSourceRemoved = c.audioSourceRemoved →
      Harmless d := by
    intro d h1 h2 h3 h4 h5 h6 h7 h8
    exact h.mono (fun _ hm => h1 ▸ hm) h2 h3.ge (fun _ t r hr => Or.inl (h4 ▸ hr)) h5 h6 h7 h8
  cases Step.of_step hstep with
  | call _ => exact hsame rfl rfl rfl rfl rfl rfl rfl rfl
  | needDataCallback t => exact h.appendWorker (.needData t) (fun _ => trivial) c.attachedSources
  | enoughDataCallback t =>
    exact h.appendWorker (.enoughData t) (fun _ => trivial) c.attachedSources
  | timerFires _ => exact hsame rfl rfl rfl rfl rfl rfl rfl rfl
  | timerEnds _ => exact hsame rfl rfl rfl rfl rfl rfl rfl rfl
  | main hq env => exact harmless_mainTask hc h hs hq hok
  | seek hw ho env => exact harmless_seek h hs hw ho hok
  | work hw ho hq env => exact harmless_startTask h hw ho hq

/-- **No stale samples after a seek.** Along every run in which no answer passes a flush, a buffer
is pushed only for a request that was issued after the last flush before the push, and after the
requests had been cleared for that seek. -/
theorem pushed_current (h : Run step (fun c a => settled c a = true) init as c) :
    ∀ p ∈ c.pushed, p.request.flush = p.flush ∧ p.flush ≤ p.request.clears := by
  have hinv : Flushed c ∧ Harmless c ∧ Sound c := by
    refine h.invariant (fun c => Flushed c ∧ Harmless c ∧ Sound c) ?_
      ⟨flushed_init, harmless_init, sound_init⟩
    rintro s a s' ⟨hs, hharm, hsound⟩ hok hstep
    exact ⟨flushed_step hs hharm hsound hok hstep, harmless_step hs hharm hsound hok hstep,
      sound_step hsound hstep⟩
  exact hinv.1.pushed

/-- A seek with the answer to the first request queued behind it, whose frames it clears, and the
samples of the request that it issues. -/
theorem pushed_current_seek : ∃ c, Run step (fun c a => settled c a = true) init
    (firstRequest .video ++ [.call .setPosition, .main .willing, .call (.haveData .ok 1 0),
      .main .willing, .work .willing, .main .willing, .work .willing, .main .willing,
      .work { Env.willing with readable := false }, .call (.haveData .ok 1 1), .main .willing,
      .work .willing]) c ∧
    c.pushed = [⟨⟨.video, [], 1, 1⟩, 1⟩] ∧
      ∀ p ∈ c.pushed, p.request.flush = p.flush ∧ p.flush ≤ p.request.clears := by
  refine Run.exists_of_runsIf State.pushed [⟨⟨.video, [], 1, 1⟩, 1⟩] (by decide +kernel)
    fun c hrun hview => ?_
  exact ⟨hview, pushed_current hrun⟩

/-- The client removes the audio source, seeks and answers the first request, all before the worker
comes to the removal: the seek does not clear the region of a removed source, and the samples are
pushed after its flush. And the samples of a request to which the segments were added directly are
pushed after a flush whatever is cleared. -/
theorem answer_passes_flush :
    (∃ c, Run step (fun _ _ => True) init
      (firstRequest .audio ++ [.call (.removeSource .audio), .main .willing, .call .setPosition,
        .main .willing, .call (.haveData .ok 1 0), .main .willing, .work .willing, .work .willing,
        .work .willing, .work .willing]) c ∧
      ∃ p ∈ c.pushed, p.request.flush < p.flush ∧ p.request.clears < p.flush) ∧
    ∃ c, Run step (fun _ _ => True) init
      (firstRequest .video ++ [.call .setPosition, .main .willing,
        .call (.addSegment 0 (some .video) true), .main .willing, .call (.haveDataSegments .ok 0),
        .main .willing, .work .willing, .main .willing, .work .willing, .main .willing,
        .work .willing]) c ∧
      ∃ p ∈ c.pushed, p.request.flush < p.flush ∧ p.request.clears < p.flush := by
  constructor
  · refine Run.exists_of_runs State.pushed [⟨⟨.audio, [], 0, 0⟩, 1⟩] (by decide +kernel)
      fun c _ hview => ⟨⟨⟨.audio, [], 0, 0⟩, 1⟩, ?_, by decide, by decide⟩
    rw [hview]
    exact List.mem_singleton_self _
  · refine Run.exists_of_runs State.pushed [⟨⟨.video, [some .video], 0, 0⟩, 1⟩] (by decide +kernel)
      fun c _ hview => ⟨⟨⟨.video, [some .video], 0, 0⟩, 1⟩, ?_, by decide, by decide⟩
    rw [hview]
    exact List.mem_singleton_self _

end Rialto.Pipeline.Seek
