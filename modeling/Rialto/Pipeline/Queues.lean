import Rialto.Pipeline.Session

/-! # The queues of a session

What holds of the two queues, the timers and the waiting worker in every state of every run. The
worker is the only one that posts `needMediaData`, `clearActiveRequests` and
`invalidateActiveRequests`, and it posts nothing while it waits; so when the main thread comes to a
`needMediaData`, everything that the worker posted has been done.

* `runOps_needData`: induction over what is left of a `SetPosition`;
* `Sound`, `sound_step`: the invariant. -/

namespace Rialto.Pipeline.Queues

open Rialto.Lib.OrdMap Rialto.Lib.Runs Rialto.Lib.Word Rialto.Pipeline.Session

variable {c c' : State} {a : Action} {as : List Action} {env : Env} {t u : Source}
  {task : MainTask}

/-! ## The rest of a task -/

theorem runOps_notify_one (c : State) (t : Source) :
    runOps c [.notifyNeedMediaData t] = { notifyOp c t with ops := [] } := by
  simp [runOps]

/-- Only `NeedData`s are left. -/
def OnlyNeedData (ops : List Op) : Prop := ∀ op ∈ ops, ∃ t, op = .needData t

/-- **What every `NeedData` keeps, the rest of a `SetPosition` keeps.** -/
theorem runOps_needData {P : State → Prop}
    (hset : ∀ c ops, OnlyNeedData ops → P c → P { c with ops := ops })
    (hneed : ∀ c t, c.waiting = none → P c → P (needDataOp c t)) :
    ∀ {ops : List Op} {c : State}, OnlyNeedData ops → c.waiting = none → P c → P (runOps c ops)
  | [], c, hops, _, hc => hset c [] hops hc
  | op :: ops, c, hops, hw, hc => by
    obtain ⟨t, rfl⟩ := hops op (by simp)
    have hops' : OnlyNeedData ops := fun op h => hops op (by simp [h])
    have hc' := hneed c t hw hc
    unfold runOps
    dsimp only
    split_ifs with hwait
    · exact hset _ _ hops' hc'
    · exact runOps_needData hset hneed hops' (by simpa using hwait) hc'

theorem onlyNeedData_needDataOps (c : State) : OnlyNeedData (needDataOps c) := by
  intro op hop
  unfold needDataOps at hop
  rcases List.mem_append.mp hop with hop | hop
  · split_ifs at hop
    · exact ⟨_, List.mem_singleton.mp hop⟩
    · cases hop
  · split_ifs at hop
    · exact ⟨_, List.mem_singleton.mp hop⟩
    · cases hop

/-! ## The invariant -/

/-- The task forgets the requests of the source. -/
def dooms (t : Source) : MainTask → Bool
  | .clearActiveRequests => true
  | .invalidateActiveRequests u => u = t
  | _ => false

theorem fromWorker_of_dooms (h : dooms t task = true) : task.fromWorker = true := by
  cases task <;> first | rfl | cases h

/-- The worker has asked the main thread to forget the requests of the source. -/
def Doomed (c : State) (t : Source) : Prop := ∃ task ∈ c.mainQueue, dooms t task = true

theorem doomed_post (task : MainTask) (h : Doomed (post c task) t) :
    Doomed c t ∨ dooms t task = true := by
  obtain ⟨b, hb, hd⟩ := h
  rcases List.mem_append.mp hb with hb | hb
  · exact Or.inl ⟨b, hb, hd⟩
  · rw [List.mem_singleton.mp hb] at hd
    exact Or.inr hd

theorem doomed_head {queue : List MainTask} (hq : c.mainQueue = task :: queue)
    (hd : dooms t task = true) : Doomed c t :=
  ⟨task, by rw [hq]; exact List.mem_cons_self, hd⟩

theorem doomed_pop {queue : List MainTask} (hq : c.mainQueue = task :: queue)
    (h : Doomed { c with mainQueue := queue } t) : Doomed c t := by
  obtain ⟨b, hb, hd⟩ := h
  exact ⟨b, by rw [hq]; exact List.mem_cons_of_mem _ hb, hd⟩

/-- The worker waits exactly for the `needMediaData` it posted, and posts nothing behind it; a timer
that has fired has its task in the queue; what is left of a task is the seek and the `NeedData`s of
a `SetPosition`; and no source is marked pending that the worker asks for or whose requests are
about to be forgotten. -/
structure Sound (c : State) : Prop where
  asked : ∀ t, .needMediaData t ∈ c.mainQueue → c.waiting = some t
  order : c.mainQueue.Pairwise fun a b => (∃ t, a = .needMediaData t) → b.fromWorker = false
  fired : ∀ t, c.timers t = .fired → .resend t ∈ c.mainQueue
  seek : .seek ∈ c.ops → c.waiting = none
  ops : OnlyNeedData c.ops ∨ ∃ ops, c.ops = .seek :: ops ∧ OnlyNeedData ops
  doomed : ∀ t, Doomed c t → c.needDataPending t = false
  unmarked : ∀ t, c.waiting = some t → c.needDataPending t = false

theorem sound_init : Sound init := by
  constructor
  · intro t h
    cases h
  · exact List.Pairwise.nil
  · intro t h
    cases h
  · intro h
    cases h
  · exact Or.inl fun op h => by cases h
  · exact fun _ _ => rfl
  · exact fun _ _ => rfl

/-- `Sound` depends on five fields. -/
theorem Sound.congr (h : Sound c) (hm : c'.mainQueue = c.mainQueue) (hw : c'.waiting = c.waiting)
    (ht : ∀ t, c'.timers t = .fired → c.timers t = .fired) (ho : c'.ops = c.ops)
    (hp : ∀ t, c.needDataPending t = false → c'.needDataPending t = false) : Sound c' := by
  constructor
  · rw [hm, hw]; exact h.asked
  · rw [hm]; exact h.order
  · rw [hm]; exact fun t hf => h.fired t (ht t hf)
  · rw [ho, hw]; exact h.seek
  · rw [ho]; exact h.ops
  · unfold Doomed; rw [hm]; exact fun t hd => hp t (h.doomed t hd)
  · rw [hw]; exact fun t hd => hp t (h.unmarked t hd)

/-- The special case of `Sound.congr` for the fields that are not part of the queues. -/
theorem Sound.of_eq (h : Sound c) (hm : c'.mainQueue = c.mainQueue) (hw : c'.waiting = c.waiting)
    (ht : c'.timers = c.timers) (ho : c'.ops = c.ops)
    (hp : c'.needDataPending = c.needDataPending) : Sound c' :=
  h.congr hm hw (fun t hf => by rwa [ht] at hf) ho fun t hd => by rw [hp]; exact hd

/-- Posting a task, by the worker only while it does not wait. -/
theorem Sound.post (h : Sound c) (task : MainTask) (hneed : ∀ t, task ≠ .needMediaData t)
    (hw : task.fromWorker = true → c.waiting = none)
    (hd : ∀ t, dooms t task = true → c.needDataPending t = false) : Sound (post c task) := by
  constructor
  · intro t ht
    rcases List.mem_append.mp ht with ht | ht
    · exact h.asked t ht
    · exact absurd (List.mem_singleton.mp ht).symm (hneed t)
  · refine List.pairwise_append.mpr ⟨h.order, List.pairwise_singleton _ _, ?_⟩
    rintro a ha b hb ⟨t, rfl⟩
    obtain rfl := List.mem_singleton.mp hb
    by_contra hf
    have hnone := hw (by simpa using hf)
    rw [h.asked t ha] at hnone
    cases hnone
  · intro t ht
    exact List.mem_append_left _ (h.fired t ht)
  · exact h.seek
  · exact h.ops
  · exact fun t ht => (doomed_post task ht).elim (h.doomed t) (hd t)
  · exact h.unmarked

theorem Sound.ask (h : Sound c) (hw : c.waiting = none) (hs : .seek ∉ c.ops)
    (hp : c.needDataPending t = false) : Sound (ask c t) := by
  have hno : ∀ u, .needMediaData u ∉ c.mainQueue := by
    intro u hu
    have := h.asked u hu
    rw [hw] at this
    cases this
  constructor
  · intro u hu
    rcases List.mem_append.mp hu with hu | hu
    · exact absurd hu (hno u)
    · cases List.mem_singleton.mp hu
      rfl
  · refine List.pairwise_append.mpr ⟨h.order, List.pairwise_singleton _ _, ?_⟩
    rintro a ha b hb ⟨u, rfl⟩
    exact absurd ha (hno u)
  · intro u hu
    exact List.mem_append_left _ (h.fired u hu)
  · exact fun hmem => absurd hmem hs
  · exact h.ops
  · intro u hu
    rcases doomed_post (.needMediaData t) hu with hd | hd
    · exact h.doomed u hd
    · cases hd
  · intro u hu
    cases hu
    exact hp

theorem seek_notMem_of_onlyNeedData {ops : List Op} (h : OnlyNeedData ops) : .seek ∉ ops := by
  intro hmem
  obtain ⟨t, ht⟩ := h _ hmem
  cases ht

/-- Setting what is left of a task. -/
theorem Sound.setOps (h : Sound c) {ops : List Op} (hops : OnlyNeedData ops) :
    Sound { c with ops := ops } :=
  ⟨h.asked, h.order, h.fired, fun hmem => absurd hmem (seek_notMem_of_onlyNeedData hops),
    Or.inl hops, h.doomed, h.unmarked⟩

/-- `Sound` with nothing left of the task but `NeedData`s, which is how tasks are run. -/
def Running (c : State) : Prop := Sound c ∧ .seek ∉ c.ops

theorem Running.needDataOp (h : Running c) (hw : c.waiting = none) (t : Source) :
    Running (needDataOp c t) := by
  have hset : Sound { c with needData := Function.update c.needData t true } :=
    h.1.of_eq rfl rfl rfl rfl rfl
  unfold Session.needDataOp
  dsimp only
  split_ifs with hcond
  · refine ⟨hset.ask hw h.2 ?_, h.2⟩
    simp only [Bool.and_eq_true, Bool.not_eq_true'] at hcond
    exact hcond.1
  · exact ⟨hset, h.2⟩

/-- Taking the mark off a source. -/
theorem Sound.unmark (h : Sound c) (t : Source) :
    Sound { c with needDataPending := Function.update c.needDataPending t false } := by
  refine h.congr rfl rfl (fun _ h => h) rfl fun u hu => ?_
  by_cases hut : u = t
  · subst hut; simp
  · simpa [Function.update_of_ne hut] using hu

theorem Running.notifyOp (h : Running c) (hw : c.waiting = none) (t : Source) :
    Running (notifyOp c t) := by
  have hset := h.1.unmark t
  unfold Session.notifyOp
  dsimp only
  split_ifs
  · exact ⟨hset.ask hw h.2 (by simp), h.2⟩
  · exact ⟨hset, h.2⟩

theorem Running.runOps (h : Running c) (hw : c.waiting = none) {ops : List Op}
    (hops : OnlyNeedData ops) : Running (runOps c ops) :=
  runOps_needData (P := Running)
    (fun _ _ hops hc => ⟨hc.1.setOps hops, seek_notMem_of_onlyNeedData hops⟩)
    (fun _ t hw hc => hc.needDataOp hw t) hops hw h

/-! ## The main thread -/

/-- Behind a `needMediaData` there is nothing from the worker. -/
theorem Sound.behind (h : Sound c) {queue : List MainTask}
    (hq : c.mainQueue = .needMediaData t :: queue) : ∀ b ∈ queue, b.fromWorker = false := by
  have hpw := h.order
  rw [hq] at hpw
  exact fun b hb => (List.pairwise_cons.mp hpw).1 b hb ⟨t, rfl⟩

/-- Taking a task from the queue, with the timer of a resend task erased. -/
theorem Sound.pop (h : Sound c) {queue : List MainTask} (hq : c.mainQueue = task :: queue)
    (timers : Source → ResendTimer)
    (ht : ∀ t, timers t = .fired → c.timers t = .fired ∧ task ≠ .resend t) :
    Sound { c with mainQueue := queue, timers := timers } := by
  constructor
  · exact fun t hmem => h.asked t (by rw [hq]; exact List.mem_cons_of_mem _ hmem)
  · have hpw := h.order
    rw [hq] at hpw
    exact (List.pairwise_cons.mp hpw).2
  · intro t hf
    obtain ⟨hf, hne⟩ := ht t hf
    have hmem := h.fired t hf
    rw [hq] at hmem
    exact (List.mem_cons.mp hmem).resolve_left hne.symm
  · exact h.seek
  · exact h.ops
  · exact fun t hd => h.doomed t (doomed_pop hq hd)
  · exact h.unmarked

theorem fired_of_update {timers : Source → ResendTimer} {r : ResendTimer} (hr : r ≠ .fired)
    (h : Function.update timers t r u = .fired) : u ≠ t ∧ timers u = .fired := by
  by_cases htu : u = t
  · subst htu
    rw [Function.update_self] at h
    exact absurd h hr
  · rw [Function.update_of_ne htu] at h
    exact ⟨htu, h⟩

theorem Sound.notifyInternal (h : Sound c) (env : Env) (t : Source) :
    Sound (notifyNeedMediaDataInternal c env t).1 := by
  have ht : ∀ u, Function.update c.timers t .absent u = .fired → c.timers u = .fired :=
    fun u hu => (fired_of_update (by decide) hu).2
  unfold notifyNeedMediaDataInternal
  dsimp only
  split_ifs
  · exact h.congr rfl rfl ht rfl fun _ h => h
  · exact h.congr rfl rfl ht rfl fun _ h => h

theorem Sound.schedule (h : Sound c) : Sound (scheduleNotifyNeedMediaData c t) := by
  unfold scheduleNotifyNeedMediaData
  split_ifs
  · exact h
  · exact h.congr rfl rfl (fun u hu => (fired_of_update (by decide) hu).2) rfl fun _ h => h

theorem notifyInternal_waiting (c : State) (env : Env) (t : Source) :
    (notifyNeedMediaDataInternal c env t).1.mainQueue = c.mainQueue ∧
      (notifyNeedMediaDataInternal c env t).1.ops = c.ops ∧
      (notifyNeedMediaDataInternal c env t).1.waiting = c.waiting ∧
      (notifyNeedMediaDataInternal c env t).1.workerQueue = c.workerQueue := by
  unfold notifyNeedMediaDataInternal
  dsimp only
  split_ifs <;> exact ⟨rfl, rfl, rfl, rfl⟩

theorem schedule_frame (c : State) (t : Source) : scheduleNotifyNeedMediaData c t =
    { c with timers := (scheduleNotifyNeedMediaData c t).timers } := by
  unfold scheduleNotifyNeedMediaData
  split_ifs <;> rfl

theorem notifyInternal_frame (c : State) (env : Env) (t : Source) :
    (notifyNeedMediaDataInternal c env t).1 = { c with
      timers := Function.update c.timers t .absent
      overwritten := c.overwritten || c.workerQueue.any (WorkerTask.reads t)
      regions := (notifyNeedMediaDataInternal c env t).1.regions
      activeRequests := (notifyNeedMediaDataInternal c env t).1.activeRequests
      currentId := (notifyNeedMediaDataInternal c env t).1.currentId } := by
  unfold notifyNeedMediaDataInternal
  dsimp only
  split_ifs <;> rfl

/-- A resend task sends a need-data event or arms the timer again. -/
theorem resendNeedMediaData_eq (c : State) (env : Env) (t : Source) :
    resendNeedMediaData c env t =
      if (notifyNeedMediaDataInternal c env t).2 = true then (notifyNeedMediaDataInternal c env t).1
      else { (notifyNeedMediaDataInternal c env t).1 with
        timers := Function.update (notifyNeedMediaDataInternal c env t).1.timers t .armed } := by
  have herased : notifyNeedMediaDataInternal
      { c with timers := Function.update c.timers t .absent } env t =
      notifyNeedMediaDataInternal c env t := by
    unfold notifyNeedMediaDataInternal
    simp only [Function.update_idem]
  have htimer : (notifyNeedMediaDataInternal c env t).1.timers t = .absent := by
    rw [notifyInternal_frame]
    exact Function.update_self ..
  unfold resendNeedMediaData
  rw [herased]
  rcases hr : notifyNeedMediaDataInternal c env t with ⟨d, ok⟩
  rw [hr] at htimer
  cases ok with
  | true => rfl
  | false =>
    dsimp only at htimer ⊢
    unfold scheduleNotifyNeedMediaData
    rw [htimer, if_neg (by simp [ResendTimer.isActive]), if_neg (by simp)]

/-- The answer to the waiting worker. -/
theorem Sound.answer (h : Sound c) (hno : ∀ b ∈ c.mainQueue, b.fromWorker = false)
    (hs : .seek ∉ c.ops) (result : Bool) : Sound (answer c t result) := by
  have hops : OnlyNeedData c.ops := by
    rcases h.ops with hops | ⟨ops, hops, -⟩
    · exact hops
    · exact absurd (by rw [hops]; simp) hs
  have hset : Sound { c with
      needDataPending := Function.update c.needDataPending t result, waiting := none } :=
    ⟨fun u hu => (by simpa [MainTask.fromWorker] using hno _ hu), h.order, h.fired, fun _ => rfl,
      h.ops, fun u ⟨b, hb, hd⟩ => absurd (fromWorker_of_dooms hd) (by simp [hno b hb]), nofun⟩
  exact (Running.runOps ⟨hset, hs⟩ rfl hops).1

theorem Sound.handled (h : Sound c) {id : ℕ} (hh : Handled c id c') : Sound c' := by
  have herase : Sound { c with activeRequests := c.activeRequests.erase id } :=
    h.of_eq rfl rfl rfl rfl rfl
  cases hh with
  | unknown => exact h
  | rescheduled _ => exact herase.schedule
  | failed _ => exact herase
  | attached _ _ _ _ status =>
    unfold attachAndSetEos
    split_ifs
    · exact herase.of_eq rfl rfl rfl rfl rfl
    · exact herase.of_eq rfl rfl rfl rfl rfl

theorem sound_mainTask (h : Sound c) {queue : List MainTask} (hq : c.mainQueue = task :: queue) :
    Sound (mainTask { c with mainQueue := queue } env task) := by
  have hpop : (∀ t, task ≠ .resend t) → Sound { c with mainQueue := queue } :=
    fun hne => h.pop hq c.timers fun t hf => ⟨hf, hne t⟩
  cases task with
  | haveData status numFrames id =>
    exact (hpop fun t => by simp).handled (Handled.of_haveData _ env status numFrames id)
  | haveDataSegments status id =>
    exact (hpop fun t => by simp).handled (Handled.of_haveDataSegments _ status id)
  | addSegment id segment fits =>
    have hd := hpop fun t => by simp
    simp only [mainTask, addSegment]
    split
    · exact hd
    · split_ifs
      · exact hd.of_eq rfl rfl rfl rfl rfl
      · exact hd
  | attachSource t m => exact (hpop fun t => by simp).of_eq rfl rfl rfl rfl rfl
  | removeSource t =>
    have hd := hpop fun t => by simp
    simp only [mainTask, removeSource]
    split_ifs
    · exact hd.of_eq rfl rfl rfl rfl rfl
    · exact hd
  | setPosition => exact (hpop fun t => by simp).of_eq rfl rfl rfl rfl rfl
  | needMediaData t =>
    have hd := (hpop fun t => by simp).notifyInternal env t
    obtain ⟨hmain, hops, -, -⟩ := notifyInternal_waiting { c with mainQueue := queue } env t
    have hbehind := h.behind hq
    have hasked := h.asked t (by rw [hq]; simp)
    refine hd.answer ?_ ?_ _
    · rw [hmain]
      exact hbehind
    · rw [hops]
      intro hs
      rw [h.seek hs] at hasked
      cases hasked
  | clearActiveRequests => exact (hpop fun t => by simp).of_eq rfl rfl rfl rfl rfl
  | invalidateActiveRequests t => exact (hpop fun t => by simp).of_eq rfl rfl rfl rfl rfl
  | resend t =>
    have hd : Sound { c with
        mainQueue := queue, timers := Function.update c.timers t .absent } := by
      refine h.pop hq _ fun u hu => ?_
      obtain ⟨hne, hf⟩ := fired_of_update (by decide) hu
      exact ⟨hf, fun he => hne (by cases he; rfl)⟩
    have hd' := hd.notifyInternal env t
    simp only [mainTask, resendNeedMediaData]
    rcases hr : notifyNeedMediaDataInternal
      { c with mainQueue := queue, timers := Function.update c.timers t .absent } env t with ⟨d, ok⟩
    rw [hr] at hd'
    cases ok with
    | true => exact hd'
    | false => exact hd'.schedule

/-! ## The worker -/

/-- The buffers and what was pushed are not part of the queues. -/
theorem attachMany_frame (request : Request) (t : Source) : ∀ (n : ℕ) (c : State),
    attachMany request t n c = { c with
      buffers := (attachMany request t n c).buffers
      pushed := (attachMany request t n c).pushed }
  | 0, c => rfl
  | n + 1, c => by
    have hone : attachSample request t c = { c with
        buffers := (attachSample request t c).buffers
        pushed := (attachSample request t c).pushed } := by
      unfold attachSample attachData
      split_ifs <;> rfl
    unfold attachMany
    rw [attachMany_frame request t n (attachSample request t c)]
    rw [hone]

theorem sound_startTask (h : Running c) (hw : c.waiting = none) (wtask : WorkerTask) :
    Sound (startTask c env wtask) := by
  have hnotify : ∀ {d : State} (u : Source), Running d → d.waiting = none →
      Sound (runOps d [.notifyNeedMediaData u]) := by
    intro d u hd hwd
    rw [runOps_notify_one]
    exact (hd.notifyOp hwd u).1.setOps fun op hop => by cases hop
  have hmany : ∀ {d : State} (r : Request) (u : Source) (n : ℕ), Running d →
      Running (attachMany r u n d) ∧ (attachMany r u n d).waiting = d.waiting := by
    intro d r u n hd
    rw [attachMany_frame]
    exact ⟨⟨hd.1.of_eq rfl rfl rfl rfl rfl, hd.2⟩, rfl⟩
  cases wtask with
  | needData u =>
    simp only [startTask]
    split_ifs
    · exact (h.runOps hw fun op hop => ⟨u, List.mem_singleton.mp hop⟩).1
    · exact h.1
  | enoughData u =>
    simp only [startTask]
    split_ifs
    · exact h.1.of_eq rfl rfl rfl rfl rfl
    · exact h.1
  | setPosition =>
    have hclear : Sound { c with needDataPending := fun _ => false } :=
      h.1.congr rfl rfl (fun _ h => h) rfl fun _ _ => rfl
    have hpost := hclear.post .clearActiveRequests (by simp) (fun _ => hw) fun _ _ => rfl
    exact ⟨hpost.asked, hpost.order, hpost.fired, fun _ => hw,
      Or.inr ⟨_, rfl, onlyNeedData_needDataOps c⟩, hpost.doomed, hpost.unmarked⟩
  | attachSource u m =>
    simp only [startTask]
    split_ifs
    · exact h.1.of_eq rfl rfl rfl rfl rfl
    · exact hnotify .audio ⟨h.1.of_eq rfl rfl rfl rfl rfl, h.2⟩ hw
    · exact h.1
  | removeSource u =>
    simp only [startTask]
    split_ifs
    · have hpost := (h.1.unmark .audio).post (.invalidateActiveRequests .audio) (by simp)
        (fun _ => hw) fun v hv => by simp [← of_decide_eq_true hv]
      exact hpost.of_eq rfl rfl rfl rfl rfl
    · exact h.1
  | readShmDataAndAttachSamples r n version =>
    simp only [startTask]
    rcases readData c env r version with _ | found
    · exact h.1
    · obtain ⟨hrun, hwait⟩ := hmany found r.type n h
      dsimp only
      split_ifs
      · exact hrun.1.setOps fun op hop => by cases hop
      · exact hnotify _ hrun (hwait.trans hw)
  | attachSamples r =>
    obtain ⟨hrun, hwait⟩ := hmany r .audio (r.segments.count (some .audio)) h
    obtain ⟨hrun', hwait'⟩ := hmany r .video (r.segments.count (some .video)) hrun
    simp only [startTask]
    rcases notified r.segments with _ | u
    · exact hrun'.1.setOps fun op hop => by cases hop
    · exact hnotify u hrun' (hwait'.trans (hwait.trans hw))
  | eos u => exact h.1

/-- Behind a seek there are only `NeedData`s. -/
theorem Sound.seek_rest (h : Sound c) {ops : List Op} (ho : c.ops = .seek :: ops) :
    OnlyNeedData ops := by
  rcases h.ops with hall | ⟨ops', heq, hall⟩
  · exact absurd (by rw [ho]; simp) (seek_notMem_of_onlyNeedData hall)
  · rw [ho] at heq
    cases heq
    exact hall

/-- A worker that waits has only `NeedData`s left. -/
theorem Sound.ops_of_waiting (h : Sound c) (hw : c.waiting = some t) : OnlyNeedData c.ops := by
  rcases h.ops with hops | ⟨ops, hops, -⟩
  · exact hops
  · have := h.seek (by rw [hops]; simp)
    rw [hw] at this
    cases this

theorem sound_seek (h : Sound c) {ops : List Op} (hw : c.waiting = none)
    (ho : c.ops = .seek :: ops) : Sound (seek c env ops) := by
  have hops := h.seek_rest ho
  have hempty : Sound { c with ops := [] } := h.setOps fun op hop => by cases hop
  unfold seek
  split_ifs
  · have hflush : Running { c with flushed := c.seeks, ops := [] } :=
      ⟨hempty.of_eq rfl rfl rfl rfl rfl, by simp⟩
    exact (hflush.runOps hw hops).1
  · exact hempty

/-- **One step keeps the queues sound.** -/
theorem sound_step (hc : Sound c) (h : step c a = some c') : Sound c' := by
  cases Step.of_step h with
  | @call task hcall =>
    have hcalls : task.fromWorker = false := by
      cases task <;> first | rfl | cases hcall
    refine hc.post _ ?_ (fun hf => ?_) fun t hd => ?_
    · rintro t rfl
      cases hcall
    · rw [hcalls] at hf
      cases hf
    · rw [fromWorker_of_dooms hd] at hcalls
      cases hcalls
  | needDataCallback t => exact hc.of_eq rfl rfl rfl rfl rfl
  | enoughDataCallback t => exact hc.of_eq rfl rfl rfl rfl rfl
  | @timerFires t ht =>
    have hpost := hc.post (.resend t) (by simp) (by simp [MainTask.fromWorker])
      (by simp [dooms])
    refine ⟨hpost.asked, hpost.order, ?_, hpost.seek, hpost.ops, hpost.doomed, hpost.unmarked⟩
    intro u hu
    by_cases hut : u = t
    · subst hut
      simp [fireTimer]
    · refine hpost.fired u ?_
      simp only [fireTimer, Function.update_of_ne hut] at hu
      exact hu
  | timerEnds ht =>
    exact hc.congr rfl rfl (fun u hu => (fired_of_update (by decide) hu).2) rfl fun _ h => h
  | main hq env => exact sound_mainTask hc hq
  | seek hw ho env => exact sound_seek hc hw ho
  | @work wtask queue hw ho hq env =>
    have hrun : Running { c with workerQueue := queue } :=
      ⟨hc.of_eq rfl rfl rfl rfl rfl, by rw [ho]; simp⟩
    exact sound_startTask hrun hw wtask

end Rialto.Pipeline.Queues
