import Rialto.Pipeline.Queues

/-! # The obligation of a pending source

A source that is marked pending waits for data, and nothing asks for data again until the mark is
taken off. So there has to be something that will take it off: an active request, a resend timer or
its task, or an attach task for the source.

* `Token`, `Obliged`: the obligation, and the invariant that carries it;
* `hands`: a step hands the obligation on. The steps that do not are `haveData` with no usable
  frames, and the read of a region that yields no segment;
* `obliged_startTask`, `obliged_seek`: what the worker does. -/

namespace Rialto.Pipeline.Obligation

open Rialto.Lib.OrdMap Rialto.Lib.Runs Rialto.Lib.Word
open Rialto.Pipeline.Session Rialto.Pipeline.Queues

variable {c c' : State} {a : Action} {env : Env} {t u : Source}

/-! ## The obligation -/

/-- The attach task ends in `notifyNeedMediaData` for the source. -/
def Notifies (t : Source) : WorkerTask → Prop
  | .readShmDataAndAttachSamples request numFrames _ => request.type = t ∧ numFrames ≠ 0
  | .attachSamples request => notified request.segments = some t
  | _ => False

/-- Something will take the mark off the source: an active request, an armed resend timer or its
queued task, or a queued attach task. -/
def Token (c : State) (t : Source) : Prop :=
  (∃ e ∈ c.activeRequests.entries, e.2.type = t) ∨ c.timers t = .armed ∨
    .resend t ∈ c.mainQueue ∨ ∃ task ∈ c.workerQueue, Notifies t task

/-- The source is marked pending and its end of stream has not been signalled. -/
def waits (c : State) (t : Source) : Bool := c.needDataPending t && !c.eosSignalled t

theorem waits_eq_true (hp : c.needDataPending t = true) (he : c.eosSignalled t = false) :
    waits c t = true := by
  simp [waits, hp, he]

/-- Every source that waits has its token. -/
def Obliged (c : State) : Prop :=
  ∀ t, c.needDataPending t = true → c.eosSignalled t = false → Token c t

theorem obliged_init : Obliged init := by
  intro t h
  cases h

theorem Token.mono (h : Token c t)
    (hr : ∀ e ∈ c.activeRequests.entries, e.2.type = t →
      ∃ e ∈ c'.activeRequests.entries, e.2.type = t)
    (ht : c.timers t = .armed → c'.timers t = .armed)
    (hm : .resend t ∈ c.mainQueue → .resend t ∈ c'.mainQueue)
    (hw : ∀ task ∈ c.workerQueue, task ∈ c'.workerQueue) : Token c' t := by
  rcases h with ⟨e, he, het⟩ | h | h | ⟨task, htask, hn⟩
  · exact Or.inl (hr e he het)
  · exact Or.inr (Or.inl (ht h))
  · exact Or.inr (Or.inr (Or.inl (hm h)))
  · exact Or.inr (Or.inr (Or.inr ⟨task, hw task htask, hn⟩))

theorem Token.of_queues (h : Token c t) (hr : c'.activeRequests = c.activeRequests)
    (ht : c'.timers = c.timers) (hm : ∀ task ∈ c.mainQueue, task ∈ c'.mainQueue)
    (hw : ∀ task ∈ c.workerQueue, task ∈ c'.workerQueue) : Token c' t :=
  h.mono (fun e he het => ⟨e, by rwa [hr], het⟩) (fun h => by rwa [ht]) (fun h => hm _ h) hw

/-! ## The worker -/

theorem Obliged.ask (h : Obliged c) (t : Source) : Obliged (ask c t) := by
  intro u hp he
  exact (h u hp he).of_queues rfl rfl (fun _ h => List.mem_append_left _ h) fun _ h => h

theorem Obliged.needDataOp (h : Obliged c) (t : Source) : Obliged (needDataOp c t) := by
  have hset : Obliged { c with needData := Function.update c.needData t true } := h
  unfold Session.needDataOp
  dsimp only
  split_ifs
  · exact hset.ask t
  · exact hset

theorem marked_of_update {pending : Source → Bool}
    (h : Function.update pending t false u = true) : u ≠ t ∧ pending u = true := by
  by_cases hut : u = t
  · subst hut; simp at h
  · rw [Function.update_of_ne hut] at h
    exact ⟨hut, h⟩

/-- Taking the mark off a source. -/
theorem Obliged.unmark (h : Obliged c) (t : Source) :
    Obliged { c with needDataPending := Function.update c.needDataPending t false } :=
  fun u hp he => h u (marked_of_update hp).2 he

theorem Obliged.runOps (h : Obliged c) (hw : c.waiting = none) {ops : List Op}
    (hops : OnlyNeedData ops) : Obliged (runOps c ops) :=
  runOps_needData (fun _ _ _ hc => hc) (fun _ t _ hc => hc.needDataOp t) hops hw h

/-- Taking a task from the worker's queue that notifies no source that waits. -/
theorem Obliged.popWorker (h : Obliged c) {wtask : WorkerTask} {queue : List WorkerTask}
    (hq : c.workerQueue = wtask :: queue) (hn : ∀ u, Notifies u wtask → waits c u = false) :
    Obliged { c with workerQueue := queue } := by
  intro u hu he
  rcases h u hu he with htok | htok | htok | ⟨task, htask, hnt⟩
  · exact Or.inl htok
  · exact Or.inr (Or.inl htok)
  · exact Or.inr (Or.inr (Or.inl htok))
  · rw [hq] at htask
    rcases List.mem_cons.mp htask with rfl | htask
    · have hne := hn u hnt
      rw [waits_eq_true (c := c) hu he] at hne
      cases hne
    · exact Or.inr (Or.inr (Or.inr ⟨task, htask, hnt⟩))

/-- Taking an attach task from the queue and taking the mark off its source. -/
theorem Obliged.consume (h : Obliged c) {wtask : WorkerTask} {queue : List WorkerTask}
    (hq : c.workerQueue = wtask :: queue) (hn : ∀ u, Notifies u wtask → u = t) :
    Obliged { c with
      workerQueue := queue
      needDataPending := Function.update c.needDataPending t false } := by
  intro u hu he
  obtain ⟨hut, hu⟩ := marked_of_update hu
  rcases h u hu he with htok | htok | htok | ⟨task, htask, hnt⟩
  · exact Or.inl htok
  · exact Or.inr (Or.inl htok)
  · exact Or.inr (Or.inr (Or.inl htok))
  · rw [hq] at htask
    rcases List.mem_cons.mp htask with rfl | htask
    · exact absurd (hn u hnt) hut
    · exact Or.inr (Or.inr (Or.inr ⟨task, htask, hnt⟩))

/-- `notifyNeedMediaData` after the attach task was taken from the queue. -/
theorem Obliged.notify_of_unmarked
    (h : Obliged { c with needDataPending := Function.update c.needDataPending t false }) :
    Obliged (Session.runOps c [.notifyNeedMediaData t]) := by
  rw [runOps_notify_one]
  have hnotify : Obliged (notifyOp c t) := by
    unfold notifyOp
    dsimp only
    split_ifs
    · exact h.ask t
    · exact h
  exact hnotify

/-- The step hands the obligation on. When the source of the request waits, a `haveData` with status
OK or EOS finds the region and, for its frames, a supported version, and with status OK it has
frames, or segments by which its own source is notified; the region that is read for it yields
segments; and a new request gets an id that is not in use. -/
def hands (c : State) : Action → Bool
  | .main env =>
    match c.mainQueue with
    | .haveData status numFrames id :: _ =>
      match c.activeRequests.find? id with
      | none => true
      | some request => !waits c request.type || (status != .ok && status != .eos) ||
          (env.region && (numFrames == 0 || env.version.isSome) &&
            (status == .eos || numFrames != 0))
    | .haveDataSegments status id :: _ =>
      match c.activeRequests.find? id with
      | none => true
      | some request =>
        !waits c request.type || status != .ok || notified request.segments == some request.type
    | .needMediaData t :: _ | .resend t :: _ =>
      !(c.attachedSources t && env.sends) || (c.activeRequests.find? c.currentId).isNone
    | _ => true
  | .work env =>
    match c.ops, c.workerQueue with
    | [], .readShmDataAndAttachSamples request _ version :: _ =>
      !waits c request.type || (readData c env request version).isSome
    | _, _ => true
  | _ => true

theorem attachMany_pending (request : Request) (n : ℕ)
    (h : Obliged { c with needDataPending := Function.update c.needDataPending t false }) :
    Obliged { attachMany request u n c with
      needDataPending := Function.update (attachMany request u n c).needDataPending t false } := by
  rw [attachMany_frame]
  exact h

theorem obliged_startTask (hc : Obliged c) (hw : c.waiting = none) (ho : c.ops = [])
    {wtask : WorkerTask} {queue : List WorkerTask} (hq : c.workerQueue = wtask :: queue)
    (hok : hands c (.work env) = true) :
    Obliged (startTask { c with workerQueue := queue } env wtask) := by
  have hpop : (∀ u, Notifies u wtask → waits c u = false) →
      Obliged { c with workerQueue := queue } :=
    hc.popWorker hq
  cases wtask with
  | needData u =>
    have hd := hpop fun v h => h.elim
    simp only [startTask]
    split_ifs
    · exact hd.runOps hw fun op hop => ⟨u, List.mem_singleton.mp hop⟩
    · exact hd
  | enoughData u =>
    have hd := hpop fun v h => h.elim
    simp only [startTask]
    split_ifs
    · exact hd
    · exact hd
  | setPosition =>
    intro u hu
    cases hu
  | attachSource u m =>
    have hd := hpop fun v h => h.elim
    simp only [startTask]
    split_ifs
    · exact hd
    · exact Obliged.notify_of_unmarked (hd.unmark .audio)
    · exact hd
  | removeSource u =>
    have hd := hpop fun v h => h.elim
    simp only [startTask]
    split_ifs
    · intro v hv he
      cases v with
      | audio => simp [removeAudio] at hv
      | video =>
        have htok := hd .video (by simpa [removeAudio] using hv) (by simpa [removeAudio] using he)
        exact htok.of_queues rfl rfl (fun _ h => List.mem_append_left _ h) fun _ h => h
    · exact hd
  | readShmDataAndAttachSamples r n version =>
    have hread : waits c r.type = false ∨ (readData c env r version).isSome = true := by
      unfold hands at hok
      rw [ho, hq] at hok
      simpa using hok
    have hsame : readData { c with workerQueue := queue } env r version =
        readData c env r version := rfl
    simp only [startTask, hsame]
    rcases hfound : readData c env r version with _ | found
    · exact hpop fun v h => by rw [← h.1]; exact hread.resolve_right (by simp [hfound])
    · dsimp only
      split_ifs with hn
      · have hd := hpop fun v h => absurd hn h.2
        show Obliged (attachMany _ _ _ _)
        rw [attachMany_frame]
        exact hd
      · have hd := hc.consume (t := r.type) hq fun v h => h.1.symm
        exact Obliged.notify_of_unmarked (attachMany_pending found n hd)
  | attachSamples r =>
    simp only [startTask]
    rcases hnt : notified r.segments with _ | v
    · have hd := hpop fun v h => by
        have h : notified r.segments = some v := h
        rw [hnt] at h
        cases h
      show Obliged (attachMany _ _ _ _)
      rw [attachMany_frame, attachMany_frame]
      exact hd
    · have hd := hc.consume (t := v) hq fun w h => by
        have h : notified r.segments = some w := h
        rw [hnt] at h
        cases h
        rfl
      exact Obliged.notify_of_unmarked (attachMany_pending r _ (attachMany_pending r _ hd))
  | eos u => exact hpop fun v h => h.elim

theorem obliged_seek (hc : Obliged c) (hs : Sound c) {ops : List Op} (hw : c.waiting = none)
    (ho : c.ops = .seek :: ops) : Obliged (seek c env ops) := by
  unfold seek
  split_ifs
  · have hd : Obliged { c with flushed := c.seeks, ops := [] } := hc
    exact hd.runOps hw (hs.seek_rest ho)
  · exact hc

end Rialto.Pipeline.Obligation
