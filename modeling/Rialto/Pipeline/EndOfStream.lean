import Rialto.Pipeline.Queues

/-! # The end of the stream and the buffers that wait

The `Eos` task ends the stream of a source whatever its buffers are. Buffers are left waiting by a
data task that finds the need-data flag down or no stream: an `EnoughData` task can clear the flag
between the request of the client's data and the data, and the task of the end of the stream comes
right behind that data.

The session is watched: `parked` says of a source whether the last data task with samples of it,
since the last seek or removal, had to leave them waiting, and `ended` records what was waiting when
the stream of a source was ended.

* `Parked.step`: where no samples are parked, no buffers wait.
* `ended_last`: where the stream of a source is ended only with no samples parked, none wait then.
* `ended_before_samples`: the client's last sample waits when the stream is ended. -/

namespace Rialto.Pipeline.EndOfStream

open Rialto.Lib.Runs Rialto.Pipeline.Session Rialto.Pipeline.Queues

/-! ## Watching a session -/

structure Watched where
  session : State
  parked : Source → Bool
  ended : List (Source × List Request)

def init : Watched := ⟨Session.init, fun _ => false, []⟩

/-- The task that the worker starts in a step. -/
def started (c : State) : Action → Option WorkerTask
  | .work _ => if c.waiting.isSome || !c.ops.isEmpty then none else c.workerQueue.head?
  | _ => none

/-- A source cannot take the samples of a data task. -/
def refuses (c : State) (t : Source) : Bool := !(c.needData t && c.streamInfo t)

/-- The samples of a source that a task attaches. -/
def WorkerTask.samples (c : State) (env : Env) (t : Source) : WorkerTask → ℕ
  | .readShmDataAndAttachSamples request numFrames version =>
    if (readData c env request version).isSome && request.type = t then numFrames else 0
  | .attachSamples request => request.segments.count (some t)
  | _ => 0

/-- What is known of the samples of a source when a task has run. -/
def parkedBy (w : Watched) (env : Env) (task : WorkerTask) (t : Source) : Bool :=
  match task with
  | .setPosition => false
  | .removeSource u => if u = .audio ∧ t = .audio then false else w.parked t
  | task =>
    if WorkerTask.samples w.session env t task = 0 then w.parked t else refuses w.session t

/-- `Eos::execute`: the stream is ended if there is one. -/
def endedBy (c : State) : WorkerTask → List (Source × List Request)
  | .eos t => if c.streamInfo t then [(t, c.buffers t)] else []
  | _ => []

def envOf : Action → Env
  | .main env | .work env => env
  | _ => .willing

def step (w : Watched) (a : Action) : Option Watched :=
  (Session.step w.session a).map fun c =>
    match started w.session a with
    | some task =>
      ⟨c, parkedBy w (envOf a) task, w.ended ++ endedBy w.session task⟩
    | none => { w with session := c }

/-- **The condition on a step**: the stream of a source is ended only if the last data task of the
source found the need-data flag set and the stream there. -/
def Meets (w : Watched) (a : Action) : Prop :=
  ∀ t, started w.session a = some (.eos t) → w.session.streamInfo t = true → w.parked t = false

/-! ## What a task does to the buffers -/

theorem needDataOp_buffers (c : State) (t : Source) : (needDataOp c t).buffers = c.buffers := by
  unfold needDataOp
  dsimp only
  split_ifs <;> rfl

theorem notifyOp_buffers (c : State) (t : Source) : (notifyOp c t).buffers = c.buffers := by
  unfold notifyOp
  dsimp only
  split_ifs <;> rfl

theorem runOps_buffers : ∀ (ops : List Op) (c : State), (runOps c ops).buffers = c.buffers
  | [], _ => rfl
  | .seek :: _, _ => rfl
  | .needData t :: ops, c => by
    unfold runOps
    dsimp only
    split_ifs
    · exact needDataOp_buffers c t
    · exact (runOps_buffers ops _).trans (needDataOp_buffers c t)
  | .notifyNeedMediaData t :: ops, c => by
    unfold runOps
    dsimp only
    split_ifs
    · exact notifyOp_buffers c t
    · exact (runOps_buffers ops _).trans (notifyOp_buffers c t)

theorem mainTask_buffers (c : State) (env : Env) (task : MainTask) :
    (mainTask c env task).buffers = c.buffers := by
  have hnotify : ∀ (d : State) (t : Source),
      (notifyNeedMediaDataInternal d env t).1.buffers = d.buffers := by
    intro d t
    unfold notifyNeedMediaDataInternal
    dsimp only
    split_ifs <;> rfl
  have hschedule : ∀ (d : State) (t : Source),
      (scheduleNotifyNeedMediaData d t).buffers = d.buffers := by
    intro d t
    unfold scheduleNotifyNeedMediaData
    split_ifs <;> rfl
  have hattach : ∀ (d : State) (t : Source) (tasks : List WorkerTask) (status : MediaSourceStatus),
      (attachAndSetEos d t tasks status).buffers = d.buffers := by
    intro d t tasks status
    unfold attachAndSetEos
    split_ifs <;> rfl
  have hhandled : ∀ {id : ℕ} {d : State}, Handled c id d → d.buffers = c.buffers := by
    intro id d hd
    cases hd with
    | unknown => rfl
    | rescheduled h => exact hschedule _ _
    | failed h => rfl
    | attached h ha hl hr status => exact hattach _ _ _ _
  cases task with
  | haveData status numFrames id => exact hhandled (Handled.of_haveData c env status numFrames id)
  | haveDataSegments status id => exact hhandled (Handled.of_haveDataSegments c status id)
  | addSegment id segment fits =>
    simp only [mainTask, addSegment]
    split
    next => rfl
    next => split_ifs <;> rfl
  | attachSource t mimeTypeKnown => rfl
  | removeSource t =>
    simp only [mainTask, removeSource]
    split_ifs <;> rfl
  | setPosition => rfl
  | needMediaData t => exact (runOps_buffers _ _).trans (hnotify c t)
  | clearActiveRequests => rfl
  | invalidateActiveRequests t => rfl
  | resend t =>
    have hinternal := hnotify { c with timers := Function.update c.timers t .absent } t
    simp only [mainTask, resendNeedMediaData]
    split
    next c' heq =>
      rw [heq] at hinternal
      exact hinternal
    next c' heq =>
      rw [heq] at hinternal
      exact (hschedule c' t).trans hinternal

theorem attachMany_other (request : Request) {t u : Source} (hne : u ≠ t) : ∀ (n : ℕ) (c : State),
    (attachMany request t n c).buffers u = c.buffers u
  | 0, _ => rfl
  | n + 1, c => by
    unfold attachMany
    rw [attachMany_other request hne n]
    unfold attachSample attachData
    split_ifs <;> simp [Function.update_of_ne hne]

/-- A source that takes samples has none waiting after a data task. -/
theorem attachMany_own (request : Request) (t : Source) : ∀ (n : ℕ) (c : State),
    refuses c t = false → n ≠ 0 → (attachMany request t n c).buffers t = []
  | 0, _, _, hn => absurd rfl hn
  | n + 1, c, hok, _ => by
    have htaken : attachSample request t c = { c with
        pushed := c.pushed ++ (c.buffers t ++ [request]).map fun r => ⟨r, c.flushed⟩
        buffers :=
          Function.update (Function.update c.buffers t (c.buffers t ++ [request])) t [] } := by
      have hneed : (c.needData t && c.streamInfo t) = true := by
        simpa [refuses] using hok
      unfold attachSample attachData
      dsimp only
      rw [if_pos hneed, Function.update_self]
    unfold attachMany
    by_cases hn : n = 0
    · subst hn
      rw [attachMany, htaken]
      exact Function.update_self _ _ _
    · refine attachMany_own request t n _ ?_ hn
      rw [htaken]
      exact hok

theorem refuses_attachMany (request : Request) (t u : Source) (n : ℕ) (c : State) :
    refuses (attachMany request t n c) u = refuses c u := by
  rw [attachMany_frame]
  rfl

/-- No samples of a source wait after `n` samples were attached, if it takes them, or if none waited
and the samples were none of its own. -/
theorem attachMany_nil {c : State} {request : Request} {t u : Source} {n : ℕ}
    (htaken : u = t → n ≠ 0 → refuses c u = false)
    (hnone : u ≠ t ∨ n = 0 → c.buffers u = []) : (attachMany request t n c).buffers u = [] := by
  by_cases heq : u = t
  · subst heq
    by_cases hn : n = 0
    · subst hn
      exact hnone (Or.inr rfl)
    · exact attachMany_own request u n c (htaken rfl hn) hn
  · rw [attachMany_other request heq]
    exact hnone (Or.inl heq)

/-! ## The invariant -/

/-- Where no samples are parked, no buffers wait. -/
def Parked (w : Watched) : Prop := ∀ t, w.parked t = false → w.session.buffers t = []

/-- What is known when a data task has left nothing parked. -/
theorem of_parkedBy {parked refused : Bool} {n : ℕ}
    (h : (if n = 0 then parked else refused) = false) :
    (n = 0 → parked = false) ∧ (n ≠ 0 → refused = false) := by
  split_ifs at h with hn
  · exact ⟨fun _ => h, fun hne => absurd hn hne⟩
  · exact ⟨fun hz => absurd hz hn, fun _ => h⟩

theorem parked_startTask {w : Watched} (h : Parked w) (queue : List WorkerTask) (env : Env)
    (task : WorkerTask) (t : Source) (ht : parkedBy w env task t = false) :
    (startTask { w.session with workerQueue := queue } env task).buffers t = [] := by
  cases task with
  | needData u =>
    simp only [startTask]
    split_ifs
    · rw [runOps_buffers]
      exact h t ht
    · exact h t ht
  | enoughData u =>
    simp only [startTask]
    split_ifs <;> exact h t ht
  | setPosition => rfl
  | attachSource u mimeTypeKnown =>
    simp only [startTask]
    split_ifs
    · exact h t ht
    · rw [runOps_buffers]
      exact h t ht
    · exact h t ht
  | removeSource u =>
    simp only [startTask]
    split_ifs with hu
    · cases t with
      | audio =>
        show Function.update w.session.buffers .audio [] .audio = []
        rw [Function.update_self]
      | video =>
        have hparked : w.parked .video = false := by simpa [parkedBy] using ht
        show Function.update w.session.buffers .audio [] .video = []
        rw [Function.update_of_ne (by decide)]
        exact h .video hparked
    · have hparked : w.parked t = false := by simpa [parkedBy, hu] using ht
      exact h t hparked
  | readShmDataAndAttachSamples request numFrames version =>
    obtain ⟨hnone, htaken⟩ := of_parkedBy ht
    have hsame : readData { w.session with workerQueue := queue } env request version =
        readData w.session env request version := rfl
    simp only [startTask, hsame]
    rcases hread : readData w.session env request version with _ | found
    · exact h t (hnone (by simp [WorkerTask.samples, hread]))
    · dsimp only
      rw [runOps_buffers]
      refine attachMany_nil (fun heq hn => htaken ?_) fun hno => h t (hnone ?_)
      · simpa [WorkerTask.samples, hread, heq] using hn
      · simp only [WorkerTask.samples, hread, Option.isSome_some, Bool.true_and,
          decide_eq_true_eq]
        split_ifs with heq
        · exact hno.resolve_left fun hne => hne heq.symm
        · rfl
  | attachSamples request =>
    obtain ⟨hnone, htaken⟩ := of_parkedBy ht
    simp only [startTask]
    rw [runOps_buffers]
    cases t with
    | audio =>
      rw [attachMany_other request (show Source.audio ≠ .video by decide)]
      refine attachMany_nil (fun _ hn => htaken hn) fun hno => h .audio (hnone ?_)
      exact hno.resolve_left fun hne => hne rfl
    | video =>
      refine attachMany_nil (fun _ hn => ?_) fun hno => ?_
      · rw [refuses_attachMany]
        exact htaken hn
      · rw [attachMany_other request (show Source.video ≠ .audio by decide)]
        exact h .video (hnone (hno.resolve_left fun hne => hne rfl))
  | eos u => exact h t ht

theorem started_work {c : State} {env : Env} {task : WorkerTask} {queue : List WorkerTask}
    (hw : c.waiting = none) (ho : c.ops = []) (hq : c.workerQueue = task :: queue) :
    started c (.work env) = some task := by
  simp [started, hw, ho, hq]

theorem Parked.step {w w' : Watched} {a : Action} (h : Parked w) (hstep : step w a = some w') :
    Parked w' := by
  obtain ⟨c, hc, rfl⟩ := Option.map_eq_some_iff.mp hstep
  have hkept : started w.session a = none → c.buffers = w.session.buffers →
      Parked (match started w.session a with
        | some task => ⟨c, parkedBy w (envOf a) task, w.ended ++ endedBy w.session task⟩
        | none => { w with session := c }) := by
    intro hnone hb t ht
    rw [hnone] at ht ⊢
    exact (congrFun hb t).trans (h t ht)
  cases Step.of_step hc with
  | call _ => exact hkept rfl rfl
  | needDataCallback t => exact hkept rfl rfl
  | enoughDataCallback t => exact hkept rfl rfl
  | timerFires _ => exact hkept rfl rfl
  | timerEnds _ => exact hkept rfl rfl
  | main hq env => exact hkept rfl (mainTask_buffers _ env _)
  | seek hw ho env =>
    refine hkept (by simp [started, ho]) ?_
    unfold seek
    split_ifs
    · exact runOps_buffers _ _
    · rfl
  | work hw ho hq env =>
    rw [started_work hw ho hq]
    exact parked_startTask h _ env _

/-- **In every run in which the stream of a source is ended only if the last data task of the source
found the need-data flag set and the stream there, no buffer of a source waits when its stream is
ended.** -/
theorem ended_last {as : List Action} {w : Watched} (h : Run step Meets init as w) :
    ∀ t waiting, (t, waiting) ∈ w.ended → waiting = [] := by
  refine (h.invariant (fun w => Parked w ∧ ∀ t waiting, (t, waiting) ∈ w.ended → waiting = [])
    ?_ ⟨fun _ _ => rfl, nofun⟩).2
  intro w a w' hw hok hstep
  refine ⟨hw.1.step hstep, fun t waiting hmem => ?_⟩
  obtain ⟨c, hc, rfl⟩ := Option.map_eq_some_iff.mp hstep
  cases hstarted : started w.session a with
  | none =>
    rw [hstarted] at hmem
    exact hw.2 t waiting hmem
  | some task =>
    rw [hstarted] at hmem
    rcases List.mem_append.mp hmem with hmem | hmem
    · exact hw.2 t waiting hmem
    · cases task with
      | eos u =>
        simp only [endedBy] at hmem
        split_ifs at hmem with hstream
        · cases List.mem_singleton.mp hmem
          exact hw.1 t (hok t hstarted hstream)
        · cases hmem
      | _ => cases hmem

/-! ## Runs on fixed inputs -/

/-- The source is attached, and the client answers the first request with one sample, which is
pushed; the next request is sent. -/
def firstSample : List Action :=
  firstRequest .audio ++ ([.call (.haveData .ok 1 0), .main .willing, .work .willing,
    .main .willing] : List Action)

/-- The client's last sample comes with the end of the stream, while data is needed. -/
def ending : List Action :=
  firstSample ++ ([.call (.haveData .eos 1 1), .main .willing, .work .willing, .main .willing,
    .work .willing] : List Action)

/-- GStreamer has enough data when the last sample comes. -/
def endingFull : List Action :=
  firstSample ++ ([.enoughDataCallback .audio, .work .willing, .call (.haveData .eos 1 1),
    .main .willing, .work .willing, .work .willing] : List Action)

/-- The condition, as it is checked along a run. -/
def checked (w : Watched) (a : Action) : Bool :=
  match started w.session a with
  | some (.eos t) => !w.session.streamInfo t || !w.parked t
  | _ => true

theorem meets_of_checked {w : Watched} {a : Action} (h : checked w a = true) : Meets w a := by
  intro t hstarted hstream
  simpa [checked, hstarted, hstream] using h

theorem ended_last_ending :
    ∃ w, Run step Meets init ending w ∧ w.ended.map Prod.fst = [.audio] ∧
      ∀ t waiting, (t, waiting) ∈ w.ended → waiting = [] := by
  have hview : (runsIf step (fun w a => checked w a = true) init ending).map
      (fun w => w.ended.map Prod.fst) = some [.audio] := by
    decide +kernel
  obtain ⟨w, hw, hview⟩ := Option.map_eq_some_iff.mp hview
  have hrun := (Run.of_runsIf hw).mono fun _ _ => meets_of_checked
  exact ⟨w, hrun, hview, ended_last hrun⟩

/-- The last sample waits when the stream is ended. -/
theorem ended_before_samples :
    ∃ as w, Run step (fun _ _ => True) init as w ∧
      w.ended.map (fun e => (e.1, e.2.length)) = [(.audio, 1)] := by
  have hview : (runs step init endingFull).map
      (fun w => w.ended.map fun e => (e.1, e.2.length)) = some [(.audio, 1)] := by
    decide +kernel
  obtain ⟨w, hw, hview⟩ := Option.map_eq_some_iff.mp hview
  exact ⟨endingFull, w, Run.of_runs hw, hview⟩

end Rialto.Pipeline.EndOfStream
