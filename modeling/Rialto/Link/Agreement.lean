import Rialto.Lib.Runs
import Rialto.Link.ClientSteps
import Rialto.Media.FramesV2
import Rialto.Pipeline.Requests

/-! # Client and server agree on the outstanding requests

* `inv_receive`, `inv_main`, `inv_other`: the steps of the server keep the invariant.
* `requests_agree`: in a run whose steps meet the condition, the client holds all requests that the
  server waits for whenever nothing is on the way and the client takes data.
* `reattached_request_ignored`: an event is handled before the reply to `attachSource` that precedes
  it. -/

namespace Rialto.Link.Agreement

open Rialto.Lib.OrdMap Rialto.Lib.Runs Rialto.Media.Frames
open Rialto.Media.FramesV2 (twoMessages)
open Rialto.Pipeline.Session (Source MainTask WorkerTask mainTask)
open Rialto.Pipeline.Requests Rialto.Link.Connection Rialto.Link.Tracking Rialto.Link.ClientSteps

section Server

variable {s s' : State}

/-! ## The server -/

theorem sourceOf_of_removes {t : Source} {sourceId : ℕ} (h : removes s t sourceId = true) :
    t = .audio ∧ s.server.attachedSources .audio = true ∧ sourceOf s sourceId = some .audio := by
  simp only [removes, Bool.and_eq_true, decide_eq_true_eq] at h
  exact ⟨h.1.1, h.1.2, if_pos ⟨h.1.2, h.2⟩⟩

theorem inv_receive (h : Accounted s) (hstep : receive s = some s') : Accounted s' := by
  unfold receive at hstep
  split_ifs at hstep
  cases hq : s.toServer with
  | nil =>
    rw [hq] at hstep
    cases hstep
  | cons m rest =>
    have htaken := take_message h hq
    rw [hq] at hstep
    dsimp only at hstep
    cases htask : task s m with
    | some posted =>
      rw [htask] at hstep
      cases hstep
      refine htaken.grows ⟨List.Subset.refl _, List.Subset.refl _, List.Subset.refl _,
        List.Subset.refl _, fun _ h => h, List.subset_append_left _ _, List.Subset.refl _,
        fun h => ⟨h, rfl⟩⟩ (fun _ h => h)
        (fun _ request hfind => Or.inl ⟨request, hfind, rfl⟩) ?_ ?_
        fun _ _ _ _ hidle => Or.inr hidle
      · rintro id request - ⟨status, n, rfl⟩
        cases htask
        exact Or.inl (.posted (List.mem_append_right _ (List.mem_singleton.mpr rfl)))
      · intro id request _ _ hw
        refine Or.inl (.task (List.mem_append_right _ (List.mem_singleton.mpr rfl)) ?_)
        cases m with
        | setPosition =>
          cases htask
          rfl
        | removeSource sourceId =>
          obtain ⟨ht, hattached, hsource⟩ := sourceOf_of_removes hw
          rw [task, hsource] at htask
          cases htask
          simp only [taskWithdraws, ht, decide_true, Bool.true_and]
          exact hattached
        | attachSource t b => cases hw
        | haveData status n id => cases hw
    | none =>
      rw [htask] at hstep
      cases hstep
      refine htaken.grows ⟨List.Subset.refl _, List.Subset.refl _, List.Subset.refl _,
        List.Subset.refl _, fun _ h => h, List.Subset.refl _, List.Subset.refl _,
        fun h => ⟨h, rfl⟩⟩ (fun _ h => h)
        (fun _ request hfind => Or.inl ⟨request, hfind, rfl⟩) ?_ ?_
        fun _ _ _ _ hidle => Or.inr hidle
      · rintro id request - ⟨status, n, rfl⟩
        cases htask
      · intro id request _ _ hw
        cases m with
        | removeSource sourceId =>
          obtain ⟨-, -, hsource⟩ := sourceOf_of_removes hw
          rw [task, hsource] at htask
          cases htask
        | setPosition => cases htask
        | attachSource t b => cases hw
        | haveData status n id => cases hw

/-! ### The main thread -/

/-- The event of a new request is sent to the client. -/
theorem tracked_report {env : Pipeline.Session.Env} {region : Region} {task : MainTask} {t : Source}
    {server : Pipeline.Session.State} (hasks : asks task = some t)
    (hattached : s.server.attachedSources t = true) (hsends : env.sends = true) :
    Tracked { report s env region task with server := server } s.server.currentId := by
  have hcond : (s.server.attachedSources t && env.sends) = true := by
    rw [hattached, hsends]
    rfl
  have hreport : report s env region task = { s with toClient := s.toClient ++
      [.event (.needMediaData (s.sourceIds t) s.server.currentId region)] } := by
    cases task with
    | needMediaData u =>
      cases hasks
      exact if_pos hcond
    | resend u =>
      cases hasks
      exact if_pos hcond
    | _ => exact nomatch hasks
  rw [hreport]
  exact .sent (List.mem_append_right _ (List.mem_singleton.mpr rfl))

/-- What a task reports changes nothing but the messages to the client and the ids of sources. -/
theorem report_frame (s : State) (env : Pipeline.Session.Env) (region : Region) (task : MainTask) :
    (report s env region task).client = s.client ∧
      (report s env region task).toServer = s.toServer ∧
      (report s env region task).events = s.events ∧
      (report s env region task).failed = s.failed ∧
      s.toClient ⊆ (report s env region task).toClient := by
  have hadd : ∀ d : List Delivery, s.toClient ⊆ s.toClient ++ d := List.subset_append_left _
  cases task with
  | attachSource t b =>
    unfold report
    dsimp only
    split_ifs
    · exact ⟨rfl, rfl, rfl, rfl, hadd _⟩
    · exact ⟨rfl, rfl, rfl, rfl, hadd _⟩
  | needMediaData t =>
    unfold report
    dsimp only
    split_ifs
    · exact ⟨rfl, rfl, rfl, rfl, hadd _⟩
    · exact ⟨rfl, rfl, rfl, rfl, List.Subset.refl _⟩
  | resend t =>
    unfold report
    dsimp only
    split_ifs
    · exact ⟨rfl, rfl, rfl, rfl, hadd _⟩
    · exact ⟨rfl, rfl, rfl, rfl, List.Subset.refl _⟩
  | _ => exact ⟨rfl, rfl, rfl, rfl, List.Subset.refl _⟩

/-- A task that is not the removal of the audio source leaves that source attached, under its id. -/
theorem audio_stays {env : Pipeline.Session.Env} {region : Region} {task : MainTask}
    {queue : List MainTask} (hnot : task ≠ .removeSource .audio)
    (h : s.server.attachedSources .audio = true) :
    (mainTask { s.server with mainQueue := queue } env task).attachedSources .audio = true ∧
      (report s env region task).sourceIds .audio = s.sourceIds .audio := by
  have hexec := executed_mainTask { s.server with mainQueue := queue } env task
  cases task with
  | attachSource t b =>
    refine ⟨?_, ?_⟩
    · show Function.update s.server.attachedSources t true .audio = true
      by_cases ht : Source.audio = t
      · rw [← ht, Function.update_self]
      · rw [Function.update_of_ne ht, h]
    · unfold report
      dsimp only
      split_ifs with hattached
      · rfl
      · have ht : Source.audio ≠ t := fun ht => hattached (ht ▸ h)
        exact Function.update_of_ne ht _ _
  | removeSource t =>
    have ht : Source.audio ≠ t := fun ht => hnot (by rw [ht])
    refine ⟨?_, rfl⟩
    show (Pipeline.Session.removeSource _ t).attachedSources .audio = true
    unfold Pipeline.Session.removeSource
    split_ifs
    · exact (Function.update_of_ne ht _ _).trans h
    · exact h
  | needMediaData t =>
    refine ⟨(congrFun (hexec.attached nofun nofun) _).trans h, ?_⟩
    unfold report
    dsimp only
    split_ifs <;> rfl
  | resend t =>
    refine ⟨(congrFun (hexec.attached nofun nofun) _).trans h, ?_⟩
    unfold report
    dsimp only
    split_ifs <;> rfl
  | _ => exact ⟨(congrFun (hexec.attached nofun nofun) _).trans h, rfl⟩

/-- The removal of the audio source is handed to the worker, and stands for every withdrawal that
rested on the source. -/
theorem withdrawing_removed {t : Source} {queue : List MainTask}
    (h : Withdrawing { s with server := { s.server with mainQueue := queue } } t)
    {server : Pipeline.Session.State} (hmain : queue ⊆ server.mainQueue)
    (hworker : s.server.workerQueue ⊆ server.workerQueue)
    (hremove : .removeSource .audio ∈ server.workerQueue) :
    Withdrawing { s with server := server } t := by
  have hremoves : ∀ {sourceId}, removes { s with server := { s.server with mainQueue := queue } } t
      sourceId = true → Withdrawing { s with server := server } t := fun hr =>
    .work hremove (by simp [workWithdraws, (sourceOf_of_removes hr).1])
  cases h with
  | @call call h hw =>
    cases call with
    | clearing => exact .call h rfl
    | positioning => exact .call h rfl
    | removing sourceId => exact hremoves hw
    | _ => cases hw
  | @message m h hw =>
    cases m with
    | setPosition => exact .message h rfl
    | removeSource sourceId => exact hremoves hw
    | _ => cases hw
  | @task task h hw =>
    cases task with
    | setPosition => exact .task (hmain h) rfl
    | clearActiveRequests => exact .task (hmain h) rfl
    | invalidateActiveRequests u => exact .task (hmain h) hw
    | removeSource u =>
      simp only [taskWithdraws, Bool.and_eq_true, decide_eq_true_eq] at hw
      exact .work hremove (by simp [workWithdraws, hw.1.2])
    | _ => cases hw
  | work h hw => exact .work (hworker h) hw

/-- What the task has withdrawn is gone or handed to the worker. -/
theorem withdrawn_main {env : Pipeline.Session.Env} {region : Region} {task : MainTask}
    {queue : List MainTask} {id : ℕ} {request : Pipeline.Session.Request}
    (hfind : (mainTask { s.server with mainQueue := queue } env task).activeRequests.find? id =
      some request)
    (hw : taskWithdraws s request.type task = true) :
    Withdrawing { report s env region task with
      server := mainTask { s.server with mainQueue := queue } env task } request.type := by
  have hexec := executed_mainTask { s.server with mainQueue := queue } env task
  have hended : ends id request.type task = true → asks task = none → False := by
    intro hends hasks
    rcases hexec.requests id request hfind with ⟨_, _, _, hnot⟩ | ⟨t, ht, _⟩
    · rw [hends] at hnot
      cases hnot
    · rw [hasks] at ht
      cases ht
  cases task with
  | setPosition =>
    exact .work (List.mem_append_right _ (List.mem_singleton.mpr rfl)) rfl
  | clearActiveRequests => exact (hended rfl rfl).elim
  | invalidateActiveRequests u => exact (hended hw rfl).elim
  | removeSource u =>
    simp only [taskWithdraws, Bool.and_eq_true, decide_eq_true_eq] at hw
    obtain ⟨⟨hu, ht⟩, hattached⟩ := hw
    have hworker : .removeSource .audio ∈
        (Pipeline.Session.removeSource { s.server with mainQueue := queue } u).workerQueue := by
      unfold Pipeline.Session.removeSource
      rw [hu, if_pos hattached]
      exact List.mem_append_right _ (List.mem_singleton.mpr rfl)
    exact .work hworker (by simp [workWithdraws, ht])
  | _ => cases hw

theorem inv_main {env : Pipeline.Session.Env} {region : Region} (h : Accounted s)
    (hstep : main s env region = some s') : Accounted s' := by
  unfold main at hstep
  cases hq : s.server.mainQueue with
  | nil =>
    rw [hq] at hstep
    exact nomatch hstep
  | cons task queue =>
    rw [hq] at hstep
    cases hstep
    have htaken := take_task h hq
    have hexec := executed_mainTask { s.server with mainQueue := queue } env task
    obtain ⟨hclient, hserver, hevents, hfailed, htoClient⟩ := report_frame s env region task
    have hdata : takesData { report s env region task with
        server := mainTask { s.server with mainQueue := queue } env task } = takesData s := by
      unfold takesData
      rw [hclient]
    refine htaken.step (fun id htracked => ?_) (fun t hwith => ?_) (fun id hgone => ?_)
      (fun id request hfind => ?_) (fun id request hfind hT => ?_)
      (fun id request hfind _ hw => Or.inl (withdrawn_main hfind hw))
      fun _ _ _ _ hidle => Or.inr (hdata.trans hidle)
    · cases htracked with
      | sent h => exact .sent (htoClient h)
      | queued h => exact .queued (by rw [hevents]; exact h)
      | carried h hid => exact .carried (by rw [hclient]; exact h) hid
      | held h => exact .held (by rw [hclient]; exact h)
      | answered h => exact .answered (by rw [hserver]; exact h)
      | posted h => exact .posted (hexec.mainQueue h)
    · by_cases hremove : task = .removeSource .audio
      · subst hremove
        by_cases hattached : s.server.attachedSources .audio = true
        · refine withdrawing_removed hwith hexec.mainQueue hexec.workerQueue ?_
          show _ ∈ (Pipeline.Session.removeSource _ _).workerQueue
          unfold Pipeline.Session.removeSource
          rw [if_pos hattached]
          exact List.mem_append_right _ (List.mem_singleton.mpr rfl)
        · exact hwith.mono (List.Subset.refl _) (List.Subset.refl _) hexec.mainQueue
            hexec.workerQueue fun h => absurd h hattached
      · refine hwith.mono ?_ ?_ hexec.mainQueue hexec.workerQueue fun h => ?_
        · rw [hclient]
          exact List.Subset.refl _
        · rw [hserver]
          exact List.Subset.refl _
        · exact @audio_stays s env region task queue hremove h
    · unfold Lost
      rw [hclient, hfailed]
      exact hgone
    · rcases hexec.requests id request hfind with ⟨before, hbefore, htype, -⟩ |
        ⟨t, hasks, hattached, hsends, hid⟩
      · exact Or.inl ⟨before, hbefore, htype⟩
      · subst hid
        exact Or.inr (tracked_report hasks hattached hsends)
    · obtain ⟨status, n, rfl⟩ := hT
      rcases hexec.requests id request hfind with ⟨_, _, _, hnot⟩ | ⟨t, ht, _⟩
      · simp [ends] at hnot
      · exact nomatch ht

/-! ### The worker and the surroundings -/

theorem grows_server {server : Pipeline.Session.State} (h : Keeps s.server server) :
    Grows s { s with server := server } :=
  ⟨List.Subset.refl _, List.Subset.refl _, List.Subset.refl _, List.Subset.refl _, fun _ h => h,
    h.mainQueue, h.workerQueue, fun ha => ⟨(congrFun h.attached _).trans ha, rfl⟩⟩

theorem inv_keeps {server : Pipeline.Session.State} (h : Accounted s)
    (hk : Keeps s.server server) : Accounted { s with server := server } :=
  inv_grows h (grows_server hk) hk.requests (fun _ h => h) fun h => h

/-- The worker hands the withdrawal to the main thread. -/
theorem withdrawn_work {env : Pipeline.Session.Env} {task : WorkerTask}
    {c : Pipeline.Session.State} {t : Source} (hw : workWithdraws t task = true) :
    Withdrawing { s with server := Pipeline.Session.startTask c env task } t := by
  cases task with
  | setPosition => exact .task (List.mem_append_right _ (List.mem_singleton.mpr rfl)) rfl
  | removeSource u =>
    simp only [workWithdraws, Bool.and_eq_true, decide_eq_true_eq] at hw
    obtain ⟨rfl, rfl⟩ := hw
    exact .task (List.mem_append_right _ (List.mem_singleton.mpr rfl)) rfl
  | _ => exact nomatch hw

theorem inv_other {a : Pipeline.Session.Action} {server : Pipeline.Session.State}
    (h : Accounted s) (ha : isOther a = true)
    (hstep : Pipeline.Session.step s.server a = some server) :
    Accounted { s with server := server } := by
  cases Pipeline.Session.Step.of_step hstep with
  | call _ => exact nomatch ha
  | main _ _ => exact nomatch ha
  | needDataCallback t =>
    exact inv_keeps h ⟨rfl, rfl, List.Subset.refl _, List.subset_append_left _ _⟩
  | enoughDataCallback t =>
    exact inv_keeps h ⟨rfl, rfl, List.Subset.refl _, List.subset_append_left _ _⟩
  | timerFires _ =>
    exact inv_keeps h ⟨rfl, rfl, List.subset_append_left _ _, List.Subset.refl _⟩
  | timerEnds _ => exact inv_keeps h (.of_eq rfl rfl rfl rfl)
  | seek _ _ env => exact inv_keeps h (keeps_seek _ env _)
  | @work task queue _ _ hq env =>
    have hkeeps := keeps_startTask { s.server with workerQueue := queue } env task
    refine (take_work h hq).grows (grows_server hkeeps) (fun _ h => h) (fun id request hfind => ?_)
      (fun _ _ _ hT => hT.elim) (fun _ _ _ _ hw => Or.inl (withdrawn_work hw))
      fun _ _ _ _ hidle => Or.inr hidle
    have hfind : (Pipeline.Session.startTask { s.server with workerQueue := queue } env
      task).activeRequests.find? id = some request := hfind
    rw [hkeeps.requests] at hfind
    exact Or.inl ⟨request, hfind, rfl⟩

end Server

/-! ## Agreement -/

theorem step_accounted {env : Client.MediaPipeline.Env} {s s' : State} {a : Act}
    (h : Accounted s) (hmeets : Meets s a) (hstep : step env s a = some s') : Accounted s' := by
  have hreply : ∀ {t : List Message} {d : List Delivery} {n : ℕ}, s.toServer ⊆ t →
      s.toClient ⊆ d →
      Accounted { s with toServer := t, toClient := d, nextSourceId := n } := fun ht hd =>
    inv_grows h ⟨ht, hd, List.Subset.refl _, List.Subset.refl _, fun _ h => h, List.Subset.refl _,
      List.Subset.refl _, fun h => ⟨h, rfl⟩⟩ rfl (fun _ h => h) fun h => h
  cases a with
  | attachSource t b =>
    cases hstep
    exact hreply (List.subset_append_left _ _) (List.Subset.refl _)
  | call a =>
    simp only [step] at hstep
    split_ifs at hstep with ha
    obtain ⟨client, hclient, rfl⟩ := Option.map_eq_some_iff.mp hstep
    exact inv_call h ha hclient
  | proceed i succeeds => exact inv_proceed h hmeets hstep
  | take awaited => exact inv_take h hstep
  | handle => exact inv_handle h hmeets hstep
  | receive => exact inv_receive h hstep
  | main env region => exact inv_main h hstep
  | other a =>
    simp only [step] at hstep
    split_ifs at hstep with ha
    obtain ⟨server, hserver, rfl⟩ := Option.map_eq_some_iff.mp hstep
    exact inv_other h ha hserver
  | sendState e =>
    simp only [step] at hstep
    split_ifs at hstep
    cases hstep
    exact hreply (List.Subset.refl _) (List.subset_append_left _ _)
  | generateSourceId =>
    cases hstep
    exact hreply (List.Subset.refl _) (List.Subset.refl _)

theorem not_withdrawing {s : State} {t : Source} (hq : Quiet s) : ¬ Withdrawing s t := by
  intro h
  cases h with
  | call h _ =>
    rw [hq.calls] at h
    exact nomatch h
  | message h _ =>
    rw [hq.toServer] at h
    exact nomatch h
  | task h _ =>
    rw [hq.mainQueue] at h
    exact nomatch h
  | work h _ =>
    rw [hq.workerQueue] at h
    exact nomatch h

theorem held_of_tracked {s : State} {id : ℕ} (hq : Quiet s) (h : Tracked s id) :
    (s.client.needDataRequestMap.find? id).isSome := by
  cases h with
  | held h => exact h
  | sent h =>
    rw [hq.toClient] at h
    exact nomatch h
  | queued h =>
    rw [hq.events] at h
    exact nomatch h
  | carried h _ =>
    rw [hq.calls] at h
    exact nomatch h
  | answered h =>
    rw [hq.toServer] at h
    exact nomatch h
  | posted h =>
    rw [hq.mainQueue] at h
    exact nomatch h

/-- **In every run whose steps meet the condition, in every state in which nothing is on the way and
the client is in BUFFERING or PLAYING, the client holds the requests that the server waits for.** -/
theorem requests_agree {env : Client.MediaPipeline.Env} {shm : Rialto.Lib.Memory.Mem UInt8}
    {as : List Act} {s : State} (h : Run (step env) Meets (init shm) as s) (hquiet : Quiet s)
    (hdata : s.client.currentState.takesData = true) : Agrees s := by
  have haccounted := h.invariant Accounted
    (fun _ _ _ hs hmeets hstep => step_accounted hs hmeets hstep) (accounted_init shm)
  intro id request hfind
  rcases haccounted id request hfind with (htracked | hfalse) | ⟨-, (hwith | hfalse) | hidle⟩
  · exact held_of_tracked hquiet htracked
  · exact hfalse.elim
  · exact absurd hwith (not_withdrawing hquiet)
  · exact hfalse.elim
  · have hidle : s.client.currentState.takesData = false := hidle
    rw [hdata] at hidle
    exact nomatch hidle

/-! ## Two runs -/

/-- What is on the way, the state of the client, and the requests of both sides. -/
def view (s : State) : List ℕ × Client.MediaPipeline.PipelineState × List ℕ × List ℕ :=
  ([s.toServer.length, s.toClient.length, s.events.length, s.client.calls.length,
      s.server.mainQueue.length, s.server.workerQueue.length, s.server.ops.length],
    s.client.currentState, s.server.activeRequests.keys, s.client.needDataRequestMap.keys)

theorem quiet_of_view {s : State} {p : Client.MediaPipeline.PipelineState} {ids held : List ℕ}
    (h : view s = ([0, 0, 0, 0, 0, 0, 0], p, ids, held)) : Quiet s := by
  simp only [view, Prod.mk.injEq, List.cons.injEq, List.length_eq_zero_iff] at h
  obtain ⟨⟨h1, h2, h3, h4, h5, h6, h7, -⟩, -⟩ := h
  exact ⟨h1, h2, h3, h4, h5, h6, h7⟩

theorem state_of_view {s : State} {onWay : List ℕ} {p : Client.MediaPipeline.PipelineState}
    {ids held : List ℕ} (h : view s = (onWay, p, ids, held)) : s.client.currentState = p := by
  simp only [view, Prod.mk.injEq] at h
  exact h.2.1

/-- No request is lost in the step, and none was when a state is entered. -/
def plain (s : State) : Act → Bool
  | .proceed i succeeds =>
    match s.client.calls[i]? with
    | some (.discarding _) => false
    | _ => succeeds
  | .handle =>
    match s.events with
    | .needMediaData sourceId _ _ :: _ =>
      decide (Client.MediaPipeline.getSource s.client sourceId ≠ .unknown)
    | _ => s.client.log.isEmpty && s.failed.isEmpty
  | _ => true

theorem meets_of_plain {s : State} {a : Act} (h : plain s a = true) : Meets s a := by
  cases a with
  | proceed i succeeds =>
    intro call hcall
    unfold plain at h
    simp only [hcall] at h
    cases call with
    | discarding id => exact nomatch h
    | sending status n id => exact fun hfails => nomatch h.symm.trans hfails
    | positioning => exact fun hfails => nomatch h.symm.trans hfails
    | removing sourceId => exact fun hfails => nomatch h.symm.trans hfails
    | _ => trivial
  | handle =>
    intro e rest hq
    unfold plain at h
    simp only [hq] at h
    have hnone : (s.client.log.isEmpty && s.failed.isEmpty) = true → ∀ id, ¬ Lost s id := by
      intro hempty id hlost
      simp only [Bool.and_eq_true, List.isEmpty_iff] at hempty
      unfold Lost at hlost
      rw [hempty.1, hempty.2] at hlost
      simp at hlost
    cases e with
    | needMediaData sourceId id region =>
      exact fun hunknown => absurd hunknown (of_decide_eq_true h)
    | playbackState state => exact fun _ _ id hlost => absurd hlost (hnone h id)
    | networkState state => exact fun _ _ id hlost => absurd hlost (hnone h id)
  | _ => trivial

theorem metadata_lt_region : getMaxMetadataBytes < 2570 := by decide

theorem region_lt_w32 : 0 + 2570 < Lib.Word.w32 := by decide

/-- The region that the events describe. -/
def region : Region := ⟨0, 2570, metadata_lt_region, region_lt_w32⟩

/-- The client enters BUFFERING, and the audio source is attached. -/
def attaching : List Act :=
  [.sendState (.networkState .buffering), .take true, .handle, .attachSource .audio true, .receive,
    .main .willing region, .take true, .proceed 0 true, .other (.work .willing)]

/-- A request is delivered and dropped by a `setPosition`, after which another one is delivered. -/
def repositioning : List Act :=
  attaching ++ ([.other (.needDataCallback .audio), .other (.work .willing), .main .willing region,
    .take true, .handle, .proceed 0 true, .proceed 0 true, .proceed 0 true, .call .setPosition,
    .proceed 0 true, .proceed 0 true, .receive, .main .willing region, .other (.work .willing),
    .main .willing region, .other (.work .willing), .main .willing region, .take true, .handle,
    .proceed 0 true, .proceed 0 true, .proceed 0 true] : List Act)

/-- The audio source is removed and attached again. The worker asks for its data at once, and the
event is handled before the caller of `attachSource` has entered the source. -/
def reattaching : List Act :=
  attaching ++ ([.call (.removeSource 1), .proceed 0 true, .receive, .main .willing region,
    .other (.work .willing), .main .willing region, .attachSource .audio true, .receive,
    .main .willing region, .other (.work .willing), .main .willing region, .take true, .take true,
    .handle, .proceed 0 true] : List Act)

theorem requests_agree_repositioned :
    ∃ s, Run (step ⟨twoMessages, 2⟩) Meets (init fun _ => 0) repositioning s ∧
      s.server.activeRequests.keys = [1] ∧ Agrees s := by
  have hview : (runsIf (step ⟨twoMessages, 2⟩) (fun s a => plain s a = true) (init fun _ => 0)
      repositioning).map view = some ([0, 0, 0, 0, 0, 0, 0], .buffering, [1], [1]) := by
    decide +kernel
  obtain ⟨s, hs, hview⟩ := Option.map_eq_some_iff.mp hview
  have hrun : Run (step ⟨twoMessages, 2⟩) Meets (init fun _ => 0) repositioning s :=
    (Run.of_runsIf hs).mono fun _ _ => meets_of_plain
  have hkeys : s.server.activeRequests.keys = [1] := congrArg (fun v => v.2.2.1) hview
  refine ⟨s, hrun, hkeys, requests_agree hrun (quiet_of_view hview) ?_⟩
  rw [state_of_view hview]
  rfl

theorem reattached_request_ignored :
    ∃ as s, Run (step ⟨twoMessages, 2⟩) (fun _ _ => True) (init fun _ => 0) as s ∧ Quiet s ∧
      s.client.currentState = .buffering ∧ ¬ Agrees s := by
  have hview : (runs (step ⟨twoMessages, 2⟩) (init fun _ => 0) reattaching).map view =
      some ([0, 0, 0, 0, 0, 0, 0], .buffering, [0], []) := by
    decide +kernel
  obtain ⟨s, hs, hview⟩ := Option.map_eq_some_iff.mp hview
  refine ⟨reattaching, s, Run.of_runs hs, quiet_of_view hview, state_of_view hview, fun h => ?_⟩
  have hkeys : s.server.activeRequests.keys = [0] := congrArg (fun v => v.2.2.1) hview
  have hheld : s.client.needDataRequestMap.keys = [] := congrArg (fun v => v.2.2.2) hview
  obtain ⟨request, hmem⟩ := OMap.mem_keys.mp (hkeys ▸ List.mem_singleton.mpr rfl)
  have hsome := h 0 request (OMap.find?_eq_some.mpr hmem)
  rw [OMap.find?_eq_none.mpr (by rw [hheld]; exact List.not_mem_nil)] at hsome
  exact nomatch hsome

end Rialto.Link.Agreement
