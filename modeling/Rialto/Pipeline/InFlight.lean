import Rialto.Pipeline.Queues

/-! # Requests in flight

A request is issued by the worker, when the source is not marked pending, or by a resend timer. The
mark stands for the request and for what follows it until the next one may be issued; a seek and a
removal take it off at once, and forget the requests, but not what is in flight.

* `requests`, `inFlight`, `Held`, `Exclusive`: a marked source has one of these, and an unmarked one
  has none unless its requests are about to be forgotten;
* `orderly`: a seek or a removal meets nothing in flight;
* `exclusive_startTask`, `exclusive_seek`: what the worker does. -/

namespace Rialto.Pipeline.InFlight

open Rialto.Lib.OrdMap Rialto.Lib.Runs Rialto.Lib.Word
open Rialto.Pipeline.Session Rialto.Pipeline.Queues

variable {c c' : State} {a : Action} {env : Env} {t u : Source} {task : MainTask}
  {wtask : WorkerTask}

/-! ## Requests and what follows them -/

/-- The active requests of the source. -/
def requests (c : State) (t : Source) : ℕ := c.activeRequests.entries.countP fun e => e.2.type = t

/-- The attach task reads the region of the source, or ends in `notifyNeedMediaData` for it. -/
def answers (t : Source) : WorkerTask → Bool
  | .readShmDataAndAttachSamples request _ _ => request.type = t
  | .attachSamples request => notified request.segments = some t
  | _ => false

/-- The count of an armed timer. -/
def armed : ResendTimer → ℕ
  | .armed => 1
  | _ => 0

theorem armed_le (timer : ResendTimer) : armed timer ≤ 1 := by
  cases timer <;> simp [armed]

/-- What will issue a request for the source, now or after an attach task: the armed resend timer,
its queued tasks and the queued attach tasks. -/
def inFlight (c : State) (t : Source) : ℕ :=
  armed (c.timers t) + c.mainQueue.count (.resend t) + c.workerQueue.countP (answers t)

theorem reads_le_answers (c : State) (t : Source)
    (h : c.workerQueue.countP (answers t) = 0) :
    c.workerQueue.any (WorkerTask.reads t) = false := by
  refine List.any_eq_false.mpr fun wtask hmem hr => ?_
  refine List.countP_eq_zero.mp h wtask hmem ?_
  cases wtask <;> first | exact hr | cases hr

/-! ## The invariant -/

/-- There is at most one request, or one thing in flight; nothing is in flight when the requests are
about to be forgotten; and otherwise there is nothing while the source is not marked pending. -/
structure Held (c : State) (t : Source) : Prop where
  one : requests c t + inFlight c t ≤ 1
  doomed : Doomed c t → inFlight c t = 0
  unmarked : ¬Doomed c t → c.needDataPending t = false → requests c t + inFlight c t = 0

/-- Every source is held; a removed source is neither marked nor asked for; and no region was
cleared too early. -/
structure Exclusive (c : State) : Prop where
  held : ∀ t, Held c t
  removed : c.audioSourceRemoved = true →
    c.needDataPending .audio = false ∧ c.waiting ≠ some .audio
  intact : c.overwritten = false

theorem exclusive_init : Exclusive init := by
  refine ⟨fun t => ⟨Nat.zero_le _, fun _ => rfl, fun _ _ => rfl⟩, ?_, rfl⟩
  intro h
  cases h

/-- Fewer requests or less in flight. -/
theorem Held.of_le (h : Held c t) (hr : requests c' t ≤ requests c t)
    (hf : inFlight c' t ≤ inFlight c t) (hd : Doomed c' t ↔ Doomed c t)
    (hp : c'.needDataPending t = c.needDataPending t) : Held c' t := by
  have hone := h.one
  constructor
  · omega
  · intro hd'
    have := h.doomed (hd.mp hd')
    omega
  · intro hd' hp'
    rw [hp] at hp'
    have := h.unmarked (fun hdc => hd' (hd.mpr hdc)) hp'
    omega

/-- `Exclusive` does not look at the other fields. -/
theorem Exclusive.of_eq (h : Exclusive c) (hr : c'.activeRequests = c.activeRequests)
    (ht : c'.timers = c.timers) (hm : c'.mainQueue = c.mainQueue)
    (hq : c'.workerQueue = c.workerQueue) (hp : c'.needDataPending = c.needDataPending)
    (hw : c'.waiting = c.waiting) (hrem : c'.audioSourceRemoved = c.audioSourceRemoved)
    (ho : c'.overwritten = c.overwritten) : Exclusive c' := by
  refine ⟨fun t => (h.held t).of_le ?_ ?_ ?_ (by rw [hp]), ?_, ho.trans h.intact⟩
  · unfold requests; rw [hr]
  · unfold inFlight; rw [ht, hm, hq]
  · unfold Doomed; rw [hm]
  · rw [hrem, hp, hw]; exact h.removed

/-- A request is answered: there may be one more thing in flight, unless the requests are about to
be forgotten. -/
theorem Held.handOver (h : Held c t) (hr : requests c' t + 1 = requests c t)
    (hf : inFlight c' t ≤ inFlight c t + 1) (hd : Doomed c' t ↔ Doomed c t)
    (hdoom : Doomed c t → inFlight c' t ≤ inFlight c t)
    (hp : c'.needDataPending t = c.needDataPending t) : Held c' t := by
  have hone := h.one
  constructor
  · omega
  · intro hd'
    have := h.doomed (hd.mp hd')
    have := hdoom (hd.mp hd')
    omega
  · intro hd' hp'
    rw [hp] at hp'
    have := h.unmarked (fun hdc => hd' (hd.mpr hdc)) hp'
    omega

/-- Something in flight shows that the source is marked and keeps its requests. -/
theorem Held.of_inFlight (h : Held c t) (hf : 1 ≤ inFlight c t) :
    ¬Doomed c t ∧ c.needDataPending t = true ∧ requests c t = 0 ∧ inFlight c t = 1 := by
  have hone := h.one
  have hd : ¬Doomed c t := by
    intro hd
    have := h.doomed hd
    omega
  refine ⟨hd, ?_, by omega, by omega⟩
  cases hp : c.needDataPending t with
  | true => rfl
  | false =>
    have := h.unmarked hd hp
    omega

/-! ## The worker -/

theorem inFlight_congr (ht : c'.timers t = c.timers t)
    (hm : c'.mainQueue.count (.resend t) = c.mainQueue.count (.resend t))
    (hw : c'.workerQueue.countP (answers t) = c.workerQueue.countP (answers t)) :
    inFlight c' t = inFlight c t := by
  unfold inFlight
  rw [ht, hm, hw]

/-- What is in flight does not change when another task is posted. -/
theorem inFlight_post (task : MainTask) (hne : task ≠ .resend t) :
    inFlight (post c task) t = inFlight c t := by
  refine inFlight_congr rfl ?_ rfl
  have hzero : [task].count (.resend t) = 0 := List.count_eq_zero.mpr (by simpa using hne.symm)
  exact List.count_append.trans (by rw [hzero, Nat.add_zero])

theorem doomed_post_iff (task : MainTask) (h : dooms t task = false) :
    Doomed (post c task) t ↔ Doomed c t := by
  refine ⟨fun hd => (doomed_post task hd).resolve_right (by simp [h]), ?_⟩
  rintro ⟨b, hb, hd⟩
  exact ⟨b, List.mem_append_left _ hb, hd⟩

theorem Exclusive.ask (h : Exclusive c) (hr : c.audioSourceRemoved = true → t ≠ .audio) :
    Exclusive (ask c t) := by
  refine ⟨fun u => ?_, fun hrem => ⟨(h.removed hrem).1, ?_⟩, h.intact⟩
  · exact (h.held u).of_le le_rfl (inFlight_post (.needMediaData t) (by simp)).le
      (doomed_post_iff (.needMediaData t) rfl) rfl
  · intro hw
    exact hr hrem (Option.some.inj hw)

theorem Exclusive.needDataOp (h : Exclusive c) (t : Source) : Exclusive (needDataOp c t) := by
  have hset : Exclusive { c with needData := Function.update c.needData t true } :=
    h.of_eq rfl rfl rfl rfl rfl rfl rfl rfl
  unfold Session.needDataOp
  dsimp only
  split_ifs with hcond
  · refine hset.ask fun hrem htype => ?_
    simp only [Bool.and_eq_true, Bool.not_eq_true'] at hcond
    have hrem : c.audioSourceRemoved = true := hrem
    simp [htype, hrem] at hcond
  · exact hset

theorem Exclusive.runOps (h : Exclusive c) (hw : c.waiting = none) {ops : List Op}
    (hops : OnlyNeedData ops) : Exclusive (runOps c ops) :=
  runOps_needData
    (fun _ _ _ hc => hc.of_eq rfl rfl rfl rfl rfl rfl rfl rfl)
    (fun _ t _ hc => hc.needDataOp t) hops hw h

/-- `notifyNeedMediaData` for a source for which there is nothing but requests about to be
forgotten. -/
theorem Exclusive.notify (h : Exclusive c)
    (h0 : ¬Doomed c t → requests c t + inFlight c t = 0)
    (hr : c.audioSourceRemoved = true → t ≠ .audio) :
    Exclusive (Session.runOps c [.notifyNeedMediaData t]) := by
  have hunmark : Exclusive { c with
      needDataPending := Function.update c.needDataPending t false } := by
    refine ⟨fun u => ?_, fun hrem => ?_, h.intact⟩
    · by_cases hut : u = t
      · subst hut
        exact ⟨(h.held u).one, (h.held u).doomed, fun hd _ => h0 hd⟩
      · exact (h.held u).of_le le_rfl le_rfl Iff.rfl (by simp [Function.update_of_ne hut])
    · obtain ⟨hp, hw⟩ := h.removed hrem
      exact ⟨(Function.update_of_ne (hr hrem).symm _ _).trans hp, hw⟩
  have hnotify : Exclusive (notifyOp c t) := by
    unfold notifyOp
    dsimp only
    split_ifs
    · exact hunmark.ask hr
    · exact hunmark
  rw [runOps_notify_one]
  exact hnotify.of_eq rfl rfl rfl rfl rfl rfl rfl rfl

/-- Taking a task from the worker's queue. -/
theorem inFlight_popWorker {queue : List WorkerTask} (hq : c.workerQueue = wtask :: queue)
    (t : Source) : inFlight { c with workerQueue := queue } t + (if answers t wtask then 1 else 0) =
      inFlight c t := by
  unfold inFlight
  rw [hq, List.countP_cons]
  dsimp only
  omega

theorem Exclusive.popWorker (h : Exclusive c) {queue : List WorkerTask}
    (hq : c.workerQueue = wtask :: queue) : Exclusive { c with workerQueue := queue } := by
  refine ⟨fun u => (h.held u).of_le le_rfl ?_ Iff.rfl rfl, h.removed, h.intact⟩
  have := inFlight_popWorker hq u
  omega

/-- An attach task leaves nothing for its source, which is not removed. -/
theorem Exclusive.last (h : Exclusive c) {queue : List WorkerTask}
    (hq : c.workerQueue = wtask :: queue) (ha : answers t wtask = true) :
    requests c t + inFlight { c with workerQueue := queue } t = 0 ∧
      (c.audioSourceRemoved = true → t ≠ .audio) := by
  have hpop := inFlight_popWorker hq t
  rw [if_pos ha] at hpop
  obtain ⟨-, hmark, hreq, hone⟩ := (h.held t).of_inFlight (by omega)
  refine ⟨by omega, ?_⟩
  rintro hrem rfl
  rw [(h.removed hrem).1] at hmark
  cases hmark

instance (c : State) (t : Source) : Decidable (Doomed c t) :=
  inferInstanceAs (Decidable (∃ task ∈ c.mainQueue, dooms t task = true))

/-- No seek or removal meets what is in flight: a `SetPosition` and a `RemoveSource` are executed
with nothing in flight for the sources they reset, and a `haveData` for one of the requests that are
about to be forgotten has nothing to attach. The segments of a request are of its own source. -/
def orderly (c : State) : Action → Bool
  | .main _ =>
    match c.mainQueue with
    | .haveData status numFrames id :: _ =>
      match c.activeRequests.find? id with
      | none => true
      | some request =>
        !decide (Doomed c request.type) || ((status == .ok || status == .eos) && numFrames == 0)
    | .haveDataSegments status id :: _ =>
      match c.activeRequests.find? id with
      | none => true
      | some request => ((status == .ok || status == .eos) && notified request.segments == none) ||
          (!decide (Doomed c request.type) && ((status != .ok && status != .eos) ||
            notified request.segments == some request.type))
    | _ => true
  | .work _ =>
    match c.ops, c.workerQueue with
    | [], .setPosition :: _ => inFlight c .audio == 0 && inFlight c .video == 0
    | [], .removeSource .audio :: _ => inFlight c .audio == 0
    | _, _ => true
  | _ => true

/-- A seek that meets nothing in flight. -/
theorem Exclusive.startSetPosition (h : Exclusive c) (hw : c.waiting = none)
    (hzero : ∀ t, inFlight c t = 0) : Exclusive (startSetPosition c) := by
  refine ⟨fun u => ?_, fun _ => ⟨rfl, by simp [Session.startSetPosition, hw]⟩, h.intact⟩
  have hflight : inFlight (Session.startSetPosition c) u = 0 := by
    have hpost : inFlight (post c .clearActiveRequests) u = inFlight c u :=
      inFlight_post _ (by simp)
    exact hpost.trans (hzero u)
  refine ⟨?_, fun _ => hflight, fun hdoom => absurd ⟨.clearActiveRequests, ?_, rfl⟩ hdoom⟩
  · rw [hflight]
    exact (Nat.le_add_right _ _).trans (h.held u).one
  · simp [Session.startSetPosition]

/-- A removal that meets nothing of the source in flight. -/
theorem Exclusive.removeAudio (h : Exclusive c) (hw : c.waiting = none)
    (hzero : inFlight c .audio = 0) : Exclusive (removeAudio c) := by
  refine ⟨fun u => ?_, fun _ => ⟨by simp [Session.removeAudio], by
    simp [Session.removeAudio, hw]⟩, h.intact⟩
  have hflight : inFlight (Session.removeAudio c) u = inFlight c u :=
    inFlight_post (.invalidateActiveRequests .audio) (by simp)
  cases u with
  | audio =>
    refine ⟨?_, fun _ => hflight.trans hzero,
      fun hdoom => absurd ⟨.invalidateActiveRequests .audio, ?_, rfl⟩ hdoom⟩
    · rw [hflight]
      exact (h.held .audio).one
    · simp [Session.removeAudio]
  | video =>
    refine (h.held .video).of_le le_rfl hflight.le ?_ (by simp [Session.removeAudio])
    exact doomed_post_iff (.invalidateActiveRequests .audio) rfl

theorem exclusive_startTask (hc : Exclusive c) (hw : c.waiting = none) (ho : c.ops = [])
    {queue : List WorkerTask} (hq : c.workerQueue = wtask :: queue)
    (hok : orderly c (.work env) = true) :
    Exclusive (startTask { c with workerQueue := queue } env wtask) := by
  have hd := hc.popWorker hq
  unfold orderly at hok
  rw [ho, hq] at hok
  cases wtask with
  | needData u =>
    simp only [startTask]
    split_ifs
    · exact hd.runOps hw fun op hop => ⟨u, List.mem_singleton.mp hop⟩
    · exact hd
  | enoughData u =>
    simp only [startTask]
    split_ifs
    · exact hd.of_eq rfl rfl rfl rfl rfl rfl rfl rfl
    · exact hd
  | setPosition =>
    simp only [Bool.and_eq_true, beq_iff_eq] at hok
    refine hd.startSetPosition hw fun u => ?_
    have hpop := inFlight_popWorker hq u
    cases u with
    | audio => omega
    | video => omega
  | attachSource u m =>
    simp only [startTask]
    split_ifs with hs hre
    · exact hd.of_eq rfl rfl rfl rfl rfl rfl rfl rfl
    · simp only [Bool.and_eq_true] at hre
      refine Exclusive.notify ⟨fun v => (hd.held v).of_le le_rfl le_rfl Iff.rfl rfl, ?_, hd.intact⟩
        (fun hdoom => ?_) ?_
      · intro h
        cases h
      · exact (hd.held .audio).unmarked hdoom (hd.removed hre.1.2).1
      · intro h
        cases h
    · exact hd
  | removeSource u =>
    cases u with
    | video => exact hd
    | audio =>
      have hzero : inFlight c .audio = 0 := by simpa using hok
      have hpop := inFlight_popWorker hq .audio
      exact hd.removeAudio hw (by omega)
  | readShmDataAndAttachSamples r n version =>
    obtain ⟨h0, hr⟩ := hc.last (t := r.type) hq (by simp [answers])
    simp only [startTask]
    rcases readData _ env r version with _ | found
    · exact hd
    · dsimp only
      rw [attachMany_frame]
      split_ifs
      · exact hd.of_eq rfl rfl rfl rfl rfl rfl rfl rfl
      · exact Exclusive.notify (hd.of_eq rfl rfl rfl rfl rfl rfl rfl rfl) (fun _ => h0) hr
  | attachSamples r =>
    simp only [startTask]
    rw [attachMany_frame, attachMany_frame]
    rcases hnt : notified r.segments with _ | v
    · exact hd.of_eq rfl rfl rfl rfl rfl rfl rfl rfl
    · obtain ⟨h0, hr⟩ := hc.last (t := v) hq (by simp [answers, hnt])
      exact Exclusive.notify (hd.of_eq rfl rfl rfl rfl rfl rfl rfl rfl) (fun _ => h0) hr
  | eos u => exact hd

theorem exclusive_seek (hc : Exclusive c) (hs : Sound c) {ops : List Op} (hw : c.waiting = none)
    (ho : c.ops = .seek :: ops) : Exclusive (seek c env ops) := by
  unfold seek
  split_ifs
  · have hflush : Exclusive { c with flushed := c.seeks, ops := [] } :=
      hc.of_eq rfl rfl rfl rfl rfl rfl rfl rfl
    exact hflush.runOps hw (hs.seek_rest ho)
  · exact hc.of_eq rfl rfl rfl rfl rfl rfl rfl rfl

end Rialto.Pipeline.InFlight
