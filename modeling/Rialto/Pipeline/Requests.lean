import Rialto.Pipeline.Queues

/-! # What the session does with the requests

* `Keeps`: a step of the worker touches neither the requests nor the sources and only adds to the
  queue of the main thread.
* `Executed`: a task of the main thread ends requests, and adds one only when it sends the event. -/

namespace Rialto.Pipeline.Requests

open Rialto.Lib.OrdMap Rialto.Pipeline.Session Rialto.Pipeline.Queues

/-! ## The worker -/

/-- The requests and the sources stay, and so do the tasks that are queued. -/
structure Keeps (c c' : State) : Prop where
  requests : c'.activeRequests = c.activeRequests
  attached : c'.attachedSources = c.attachedSources
  mainQueue : c.mainQueue ⊆ c'.mainQueue
  workerQueue : c.workerQueue ⊆ c'.workerQueue

theorem Keeps.trans {c d e : State} (h : Keeps c d) (h' : Keeps d e) : Keeps c e :=
  ⟨h'.requests.trans h.requests, h'.attached.trans h.attached,
    fun _ hm => h'.mainQueue (h.mainQueue hm), fun _ hw => h'.workerQueue (h.workerQueue hw)⟩

/-- Nothing of the four changes. -/
theorem Keeps.of_eq {c c' : State} (hr : c'.activeRequests = c.activeRequests)
    (ha : c'.attachedSources = c.attachedSources) (hm : c'.mainQueue = c.mainQueue)
    (hw : c'.workerQueue = c.workerQueue) : Keeps c c' :=
  ⟨hr, ha, by rw [hm]; exact List.Subset.refl _, by rw [hw]; exact List.Subset.refl _⟩

theorem Keeps.refl (c : State) : Keeps c c := .of_eq rfl rfl rfl rfl

theorem keeps_ask (c : State) (t : Source) : Keeps c (ask c t) :=
  ⟨rfl, rfl, List.subset_append_left _ _, List.Subset.refl _⟩

theorem keeps_needDataOp (c : State) (t : Source) : Keeps c (needDataOp c t) := by
  have hset : Keeps c { c with needData := Function.update c.needData t true } :=
    .of_eq rfl rfl rfl rfl
  unfold needDataOp
  dsimp only
  split_ifs
  · exact hset.trans (keeps_ask _ t)
  · exact hset

theorem keeps_notifyOp (c : State) (t : Source) : Keeps c (notifyOp c t) := by
  have hset : Keeps c { c with needDataPending := Function.update c.needDataPending t false } :=
    .of_eq rfl rfl rfl rfl
  unfold notifyOp
  dsimp only
  split_ifs
  · exact hset.trans (keeps_ask _ t)
  · exact hset

theorem keeps_runOps : ∀ (ops : List Op) (c : State), Keeps c (runOps c ops)
  | [], c => .of_eq rfl rfl rfl rfl
  | .seek :: ops, c => .of_eq rfl rfl rfl rfl
  | .needData t :: ops, c => by
    have hone := keeps_needDataOp c t
    unfold runOps
    dsimp only
    split_ifs
    · exact hone.trans (.of_eq rfl rfl rfl rfl)
    · exact hone.trans (keeps_runOps ops _)
  | .notifyNeedMediaData t :: ops, c => by
    have hone := keeps_notifyOp c t
    unfold runOps
    dsimp only
    split_ifs
    · exact hone.trans (.of_eq rfl rfl rfl rfl)
    · exact hone.trans (keeps_runOps ops _)

theorem Keeps.runOps {c d : State} (h : Keeps c d) (ops : List Op) : Keeps c (runOps d ops) :=
  h.trans (keeps_runOps ops d)

theorem keeps_attachMany (request : Request) (t : Source) (n : ℕ) (c : State) :
    Keeps c (attachMany request t n c) := by
  rw [attachMany_frame]
  exact .of_eq rfl rfl rfl rfl

theorem keeps_startTask (c : State) (env : Env) (task : WorkerTask) :
    Keeps c (startTask c env task) := by
  cases task with
  | needData t =>
    unfold startTask
    dsimp only
    split_ifs
    · exact keeps_runOps _ c
    · exact .refl c
  | enoughData t =>
    unfold startTask
    dsimp only
    split_ifs
    · exact .of_eq rfl rfl rfl rfl
    · exact .refl c
  | setPosition => exact ⟨rfl, rfl, List.subset_append_left _ _, List.Subset.refl _⟩
  | attachSource t mimeTypeKnown =>
    unfold startTask
    dsimp only
    split_ifs
    · exact .of_eq rfl rfl rfl rfl
    · refine Keeps.runOps ?_ _
      exact .of_eq rfl rfl rfl rfl
    · exact .refl c
  | removeSource t =>
    unfold startTask
    dsimp only
    split_ifs
    · exact ⟨rfl, rfl, List.subset_append_left _ _, List.Subset.refl _⟩
    · exact .refl c
  | readShmDataAndAttachSamples request numFrames version =>
    unfold startTask
    dsimp only
    rcases readData c env request version with _ | found
    · exact .refl c
    · exact (keeps_attachMany _ _ _ c).runOps _
  | attachSamples request =>
    exact ((keeps_attachMany _ _ _ c).trans (keeps_attachMany _ _ _ _)).runOps _
  | eos t => exact .refl c

theorem keeps_seek (c : State) (env : Env) (ops : List Op) : Keeps c (seek c env ops) := by
  unfold seek
  split_ifs
  · refine Keeps.runOps ?_ _
    exact .of_eq rfl rfl rfl rfl
  · exact .of_eq rfl rfl rfl rfl

theorem keeps_answer (c : State) (t : Source) (result : Bool) : Keeps c (answer c t result) := by
  unfold answer
  refine Keeps.runOps ?_ _
  exact .of_eq rfl rfl rfl rfl

/-! ## The main thread -/

/-- The task ends the request, if there is one. -/
def ends (id : ℕ) (t : Source) : MainTask → Bool
  | .haveData _ _ i => i = id
  | .haveDataSegments _ i => i = id
  | .clearActiveRequests => true
  | .invalidateActiveRequests u => u = t
  | _ => false

/-- The task asks the client for data of a source. -/
def asks : MainTask → Option Source
  | .needMediaData t => some t
  | .resend t => some t
  | _ => none

/-- **What a task of the main thread does**: a request that is there afterwards was there before and
was not ended, or its event was sent. -/
structure Executed (c : State) (env : Env) (task : MainTask) (c' : State) : Prop where
  requests : ∀ id request, c'.activeRequests.find? id = some request →
    (∃ before, c.activeRequests.find? id = some before ∧ before.type = request.type ∧
      ends id request.type task = false) ∨
    ∃ t, asks task = some t ∧ c.attachedSources t = true ∧ env.sends = true ∧ id = c.currentId
  mainQueue : c.mainQueue ⊆ c'.mainQueue
  workerQueue : c.workerQueue ⊆ c'.workerQueue
  attached : (∀ t b, task ≠ .attachSource t b) → (∀ t, task ≠ .removeSource t) →
    c'.attachedSources = c.attachedSources

/-- A task that ends one request, or none. -/
theorem executed_of_sub {c c' : State} {env : Env} {task : MainTask}
    (hr : ∀ i request, c'.activeRequests.find? i = some request →
      c.activeRequests.find? i = some request ∧ ends i request.type task = false)
    (hm : c'.mainQueue = c.mainQueue) (hw : c.workerQueue ⊆ c'.workerQueue)
    (ha : c'.attachedSources = c.attachedSources) : Executed c env task c' := by
  refine ⟨fun i request hi => Or.inl ⟨request, (hr i request hi).1, rfl, (hr i request hi).2⟩, ?_,
    hw, fun _ _ => ha⟩
  rw [hm]
  exact List.Subset.refl _

section Answered

variable {c : State} {env : Env} {task : MainTask} {id : ℕ}
  (hends : ∀ i t, ends i t task = decide (id = i))

include hends

theorem executed_unknown (h : c.activeRequests.find? id = none) : Executed c env task c := by
  refine executed_of_sub (fun i request hi => ⟨hi, ?_⟩) rfl (List.Subset.refl _) rfl
  rw [hends]
  refine decide_eq_false fun heq => ?_
  rw [← heq, h] at hi
  exact nomatch hi

theorem executed_erase {c' : State} (hr : c'.activeRequests = c.activeRequests.erase id)
    (hm : c'.mainQueue = c.mainQueue) (hw : c.workerQueue ⊆ c'.workerQueue)
    (ha : c'.attachedSources = c.attachedSources) : Executed c env task c' := by
  refine executed_of_sub (fun i request hi => ?_) hm hw ha
  rw [hr, OMap.find?_erase] at hi
  split_ifs at hi with heq
  refine ⟨hi, ?_⟩
  rw [hends]
  exact decide_eq_false (Ne.symm heq)

theorem executed_schedule (t : Source) : Executed c env task
    (scheduleNotifyNeedMediaData { c with activeRequests := c.activeRequests.erase id } t) := by
  rw [schedule_frame]
  exact executed_erase hends rfl rfl (List.Subset.refl _) rfl

theorem executed_attach (t : Source) (attach : List WorkerTask) (status : MediaSourceStatus)
    (regions : Source → Option Request) :
    Executed c env task (attachAndSetEos { c with
      activeRequests := c.activeRequests.erase id, regions := regions } t attach status) := by
  unfold attachAndSetEos
  split_ifs
  · exact executed_erase hends rfl rfl (List.subset_append_left _ _) rfl
  · exact executed_erase hends rfl rfl (List.subset_append_left _ _) rfl

end Answered

theorem executed_haveData (c : State) (env : Env) (status : MediaSourceStatus) (n id : ℕ) :
    Executed c env (.haveData status n id) (haveData c env status n id) := by
  have hends : ∀ i t, ends i t (.haveData status n id) = decide (id = i) := fun _ _ => rfl
  unfold haveData
  cases hfind : c.activeRequests.find? id with
  | none => exact executed_unknown hends hfind
  | some request =>
    dsimp only
    split_ifs
    · exact executed_schedule hends request.type
    · exact executed_erase hends rfl rfl (List.Subset.refl _) rfl
    · exact executed_attach hends request.type [] status c.regions
    · rcases env.version with _ | version
      · exact executed_erase hends rfl rfl (List.Subset.refl _) rfl
      · exact executed_attach hends request.type _ status _

theorem executed_haveDataSegments (c : State) (env : Env) (status : MediaSourceStatus) (id : ℕ) :
    Executed c env (.haveDataSegments status id) (haveDataSegments c status id) := by
  have hends : ∀ i t, ends i t (.haveDataSegments status id) = decide (id = i) := fun _ _ => rfl
  unfold haveDataSegments
  cases hfind : c.activeRequests.find? id with
  | none => exact executed_unknown hends hfind
  | some request =>
    dsimp only
    split_ifs
    · exact executed_schedule hends request.type
    · exact executed_attach hends request.type _ status c.regions

theorem executed_addSegment (c : State) (env : Env) (id : ℕ) (segment : Option Source)
    (fits : Bool) :
    Executed c env (.addSegment id segment fits) (addSegment c id segment fits) := by
  unfold addSegment
  cases hfind : c.activeRequests.find? id with
  | none => exact executed_of_sub (fun _ _ hi => ⟨hi, rfl⟩) rfl (List.Subset.refl _) rfl
  | some request =>
    dsimp only
    split_ifs
    · refine ⟨fun i after hi => Or.inl ?_, List.Subset.refl _, List.Subset.refl _, fun _ _ => rfl⟩
      have hi : (c.activeRequests.insert id
        { request with segments := request.segments ++ [segment] }).find? i = some after := hi
      rw [OMap.find?_insert] at hi
      split_ifs at hi with heq
      · cases hi
        exact ⟨request, heq ▸ hfind, rfl, rfl⟩
      · exact ⟨after, hi, rfl, rfl⟩
    · exact executed_of_sub (fun _ _ hi => ⟨hi, rfl⟩) rfl (List.Subset.refl _) rfl

/-- `notifyNeedMediaDataInternal` adds a request only when the event is sent. -/
theorem requests_notify {c : State} {env : Env} {t : Source} {id : ℕ} {request : Request}
    (h : (notifyNeedMediaDataInternal c env t).1.activeRequests.find? id = some request) :
    c.activeRequests.find? id = some request ∨
      c.attachedSources t = true ∧ env.sends = true ∧ id = c.currentId := by
  unfold notifyNeedMediaDataInternal at h
  dsimp only at h
  by_cases hcond : (!c.attachedSources t || !env.sends) = true
  · rw [if_pos hcond] at h
    exact Or.inl h
  · rw [if_neg hcond] at h
    have hsent : c.attachedSources t = true ∧ env.sends = true := by simpa using hcond
    by_cases hid : id = c.currentId
    · exact Or.inr ⟨hsent.1, hsent.2, hid⟩
    · have h : (c.activeRequests.emplace c.currentId ⟨t, [], c.flushed, c.clears⟩).find? id =
        some request := h
      rw [OMap.find?_emplace_of_ne _ hid] at h
      exact Or.inl h

theorem executed_notify {c c' : State} {env : Env} {task : MainTask} {t : Source}
    (hasks : asks task = some t) (hends : ∀ i u, ends i u task = false)
    (h : Keeps (notifyNeedMediaDataInternal c env t).1 c') : Executed c env task c' := by
  have hframe := notifyInternal_frame c env t
  refine ⟨fun i request hi => ?_, ?_, ?_, fun _ _ => ?_⟩
  · rw [h.requests] at hi
    rcases requests_notify hi with hi | ⟨hattached, hsends, hid⟩
    · exact Or.inl ⟨request, hi, rfl, hends i _⟩
    · exact Or.inr ⟨t, hasks, hattached, hsends, hid⟩
  · have := h.mainQueue
    rwa [hframe] at this
  · have := h.workerQueue
    rwa [hframe] at this
  · rw [h.attached, hframe]

theorem executed_mainTask (c : State) (env : Env) (task : MainTask) :
    Executed c env task (mainTask c env task) := by
  cases task with
  | haveData status n id => exact executed_haveData c env status n id
  | haveDataSegments status id => exact executed_haveDataSegments c env status id
  | addSegment id segment fits => exact executed_addSegment c env id segment fits
  | attachSource t mimeTypeKnown =>
    exact ⟨fun _ request hi => Or.inl ⟨request, hi, rfl, rfl⟩, List.Subset.refl _,
      List.subset_append_left _ _, fun h => absurd rfl (h t mimeTypeKnown)⟩
  | removeSource t =>
    show Executed c env _ (Session.removeSource c t)
    unfold Session.removeSource
    split_ifs
    · exact ⟨fun _ request hi => Or.inl ⟨request, hi, rfl, rfl⟩, List.Subset.refl _,
        List.subset_append_left _ _, fun _ h => absurd rfl (h t)⟩
    · exact executed_of_sub (fun _ _ hi => ⟨hi, rfl⟩) rfl (List.Subset.refl _) rfl
  | setPosition =>
    exact executed_of_sub (fun _ _ hi => ⟨hi, rfl⟩) rfl (List.subset_append_left _ _) rfl
  | needMediaData t => exact executed_notify rfl (fun _ _ => rfl) (keeps_answer _ t _)
  | clearActiveRequests =>
    exact executed_of_sub nofun rfl (List.Subset.refl _) rfl
  | invalidateActiveRequests t =>
    refine executed_of_sub (fun i request hi => ?_) rfl (List.Subset.refl _) rfl
    have hi : (i, request) ∈ (c.activeRequests.eraseIf fun e => e.2.type = t).entries :=
      OMap.find?_eq_some.mp hi
    rw [OMap.mem_eraseIf] at hi
    refine ⟨OMap.find?_eq_some.mpr hi.1, decide_eq_false fun heq => ?_⟩
    exact absurd hi.2 (by simp [heq])
  | resend t =>
    refine executed_notify rfl (fun _ _ => rfl) ?_
    show Keeps _ (resendNeedMediaData c env t)
    rw [resendNeedMediaData_eq]
    split_ifs
    · exact .refl _
    · exact .of_eq rfl rfl rfl rfl

end Rialto.Pipeline.Requests
