import Rialto.Pipeline.Obligation

/-! # No need-data is lost

* `obliged_mainTask`: what the main thread does to the obligation of a pending source;
* `obliged_step`, `pending_has_token`: along every run whose steps hand the obligation on, a source
  that is marked pending is served. `empty_haveData_stalls`: one that does not. -/

namespace Rialto.Pipeline.Pending

open Rialto.Lib.OrdMap Rialto.Lib.Runs Rialto.Lib.Word
open Rialto.Pipeline.Session Rialto.Pipeline.Queues Rialto.Pipeline.Obligation

variable {c c' : State} {a : Action} {as : List Action} {env : Env} {t u : Source}
  {task : MainTask}

/-! ## The main thread -/

theorem token_pop {queue : List MainTask} (hq : c.mainQueue = task :: queue)
    (hne : task ≠ .resend t) (h : Token c t) : Token { c with mainQueue := queue } t := by
  refine h.mono (fun e he het => ⟨e, he, het⟩) (fun h => h) (fun hm => ?_) fun _ h => h
  rw [hq] at hm
  exact (List.mem_cons.mp hm).resolve_left hne.symm

theorem obliged_pop (h : Obliged c) {queue : List MainTask} (hq : c.mainQueue = task :: queue)
    (hne : ∀ t, task ≠ .resend t) : Obliged { c with mainQueue := queue } :=
  fun t hp he => token_pop hq (hne t) (h t hp he)

/-- Erasing a request takes a token from its own source only. -/
theorem token_erase {id : ℕ} {request : Request} (hf : c.activeRequests.find? id = some request)
    (hu : u ≠ request.type) (h : Token c u) :
    Token { c with activeRequests := c.activeRequests.erase id } u := by
  refine h.mono (fun e he het => ⟨e, OMap.mem_erase.mpr ⟨he, ?_⟩, het⟩) (fun h => h) (fun h => h)
    fun _ h => h
  rintro rfl
  cases OMap.eq_of_mem he (OMap.find?_eq_some.mp hf)
  exact hu het.symm

/-- The request is erased, and its source gets another token or its end of stream. -/
theorem obliged_handOver (h : Obliged c) {id : ℕ} {request : Request}
    (hf : c.activeRequests.find? id = some request)
    (hp : c'.needDataPending = c.needDataPending) (hm : c'.mainQueue = c.mainQueue)
    (hr : c'.activeRequests = c.activeRequests.erase id)
    (ht : ∀ u, c.timers u = .armed → c'.timers u = .armed)
    (hq : ∀ task ∈ c.workerQueue, task ∈ c'.workerQueue)
    (he : ∀ u, c'.eosSignalled u = false → c.eosSignalled u = false)
    (htok : waits c request.type = true → c'.eosSignalled request.type = false →
      Token c' request.type) : Obliged c' := by
  intro u hpu heu
  rw [hp] at hpu
  by_cases hut : u = request.type
  · subst hut
    exact htok (waits_eq_true hpu (he _ heu)) heu
  · refine (token_erase hf hut (h u hpu (he u heu))).mono
      (fun e he het => ⟨e, by rw [hr]; exact he, het⟩) (ht u) (fun h => by rw [hm]; exact h) hq

/-- A resend is scheduled: the timer is armed, or its task is in the queue already. -/
theorem token_schedule (hs : Sound c) (t : Source) : Token (scheduleNotifyNeedMediaData c t) t := by
  unfold scheduleNotifyNeedMediaData
  split_ifs with ha
  · rcases htm : c.timers t with _ | _ | _ | _
    · simp [htm, ResendTimer.isActive] at ha
    · exact Or.inr (Or.inl htm)
    · exact Or.inr (Or.inr (Or.inl (hs.fired t htm)))
    · simp [htm, ResendTimer.isActive] at ha
  · exact Or.inr (Or.inl (by simp))

theorem schedule_timers (h : c.timers u = .armed) :
    (scheduleNotifyNeedMediaData c t).timers u = .armed := by
  unfold scheduleNotifyNeedMediaData
  split_ifs
  · exact h
  · by_cases hut : u = t
    · subst hut; simp
    · simpa [Function.update_of_ne hut] using h

theorem eosSignalled_of_update (h : Function.update c.eosSignalled t true u = false) :
    u ≠ t ∧ c.eosSignalled u = false := by
  by_cases hut : u = t
  · subst hut; simp at h
  · rw [Function.update_of_ne hut] at h
    exact ⟨hut, h⟩

/-- `haveData` keeps the obligation when the source of its request, if it waits, has a token after
it. -/
theorem obliged_handled (h : Obliged c) {id : ℕ} (hh : Handled c id c')
    (htok : ∀ request, c.activeRequests.find? id = some request → waits c request.type = true →
      c'.eosSignalled request.type = false → Token c' request.type) : Obliged c' := by
  cases hh with
  | unknown => exact h
  | @rescheduled request hf =>
    have hfr := schedule_frame { c with activeRequests := c.activeRequests.erase id } request.type
    have htm : ∀ u, c.timers u = .armed → (scheduleNotifyNeedMediaData
        { c with activeRequests := c.activeRequests.erase id } request.type).timers u = .armed :=
      fun u hu => schedule_timers hu
    have htok' := htok request hf
    rw [hfr] at htm htok' ⊢
    exact obliged_handOver h hf rfl rfl rfl htm (fun _ h => h) (fun _ h => h) htok'
  | @failed request hf =>
    exact obliged_handOver h hf rfl rfl rfl (fun _ h => h) (fun _ h => h) (fun _ h => h)
      (htok request hf)
  | @attached request hf attach _ _ _ _ status =>
    have htok' := htok request hf
    unfold attachAndSetEos at htok' ⊢
    split_ifs at htok' ⊢ with hst
    · exact obliged_handOver h hf rfl rfl rfl (fun _ h => h) (fun _ h => List.mem_append_left _ h)
        (fun u hu => (eosSignalled_of_update hu).2) htok'
    · exact obliged_handOver h hf rfl rfl rfl (fun _ h => h) (fun _ h => List.mem_append_left _ h)
        (fun _ h => h) htok'

/-- Samples are attached for the source, or its end of stream is signalled. -/
theorem token_attach {attach : List WorkerTask} {status : MediaSourceStatus}
    (ha : status = .eos ∨ ∃ task ∈ attach, Notifies t task)
    (he : (attachAndSetEos c t attach status).eosSignalled t = false) :
    Token (attachAndSetEos c t attach status) t := by
  unfold attachAndSetEos at he ⊢
  split_ifs at he ⊢ with hst
  · exact absurd rfl (eosSignalled_of_update he).1
  · obtain ⟨task, htask, hn⟩ := ha.resolve_left hst
    exact Or.inr (Or.inr (Or.inr ⟨task, List.mem_append_right _ htask, hn⟩))

theorem obliged_haveData (h : Obliged c) (hs : Sound c) {status : MediaSourceStatus} {n id : ℕ}
    (hok : ∀ request, c.activeRequests.find? id = some request → waits c request.type = true →
      (status ≠ .ok ∧ status ≠ .eos) ∨ (env.region = true ∧
        (n = 0 ∨ env.version.isSome = true) ∧ (status = .eos ∨ n ≠ 0))) :
    Obliged (haveData c env status n id) := by
  refine obliged_handled h (Handled.of_haveData c env status n id) fun request hf hwaits he => ?_
  have hs' : Sound { c with activeRequests := c.activeRequests.erase id } :=
    hs.of_eq rfl rfl rfl rfl rfl
  have hcases := hok request hf hwaits
  unfold haveData at he ⊢
  rw [hf] at he ⊢
  dsimp only at he ⊢
  by_cases hst : status ≠ .ok ∧ status ≠ .eos
  · rw [if_pos hst]
    exact token_schedule hs' request.type
  · obtain ⟨hregion, hversion, hframes⟩ := hcases.resolve_left hst
    rw [if_neg hst, if_neg (by simp [hregion])] at he ⊢
    by_cases hn : n = 0
    · rw [if_pos hn] at he ⊢
      exact token_attach (Or.inl (hframes.resolve_right (by simp [hn]))) he
    · obtain ⟨version, hversion⟩ := Option.isSome_iff_exists.mp (hversion.resolve_left hn)
      rw [if_neg hn, hversion] at he ⊢
      exact token_attach (Or.inr ⟨_, List.mem_singleton_self _, rfl, hn⟩) he

theorem obliged_haveDataSegments (h : Obliged c) (hs : Sound c) {status : MediaSourceStatus}
    {id : ℕ} (hok : ∀ request, c.activeRequests.find? id = some request →
      waits c request.type = true → status ≠ .ok ∨ notified request.segments = some request.type) :
    Obliged (haveDataSegments c status id) := by
  refine obliged_handled h (Handled.of_haveDataSegments c status id) fun request hf hwaits he => ?_
  have hs' : Sound { c with activeRequests := c.activeRequests.erase id } :=
    hs.of_eq rfl rfl rfl rfl rfl
  have hcases := hok request hf hwaits
  unfold haveDataSegments at he ⊢
  rw [hf] at he ⊢
  dsimp only at he ⊢
  by_cases hst : status ≠ .ok ∧ status ≠ .eos
  · rw [if_pos hst]
    exact token_schedule hs' request.type
  · rw [if_neg hst] at he ⊢
    refine token_attach ?_ he
    rcases hcases with hne | hn
    · exact Or.inl (by by_contra he; exact hst ⟨hne, he⟩)
    · exact Or.inr ⟨_, List.mem_singleton_self _, hn⟩

/-- A need-data event for a source takes no token from the other one. -/
theorem token_notifyInternal (hu : u ≠ t) (h : Token c u) :
    Token (notifyNeedMediaDataInternal c env t).1 u := by
  have htm : ∀ r, c.timers u = .armed → Function.update c.timers t r u = .armed := by
    intro r hr
    rwa [Function.update_of_ne hu]
  unfold notifyNeedMediaDataInternal
  dsimp only
  split_ifs
  · exact h.mono (fun e he het => ⟨e, he, het⟩) (htm _) (fun h => h) fun _ h => h
  · exact h.mono (fun e he het => ⟨e, OMap.subset_emplace he, het⟩) (htm _) (fun h => h)
      fun _ h => h

/-- A need-data event that was sent leaves an active request, unless its id was in use. -/
theorem token_of_sent (c : State) (env : Env) (t : Source)
    (hid : c.attachedSources t = true → env.sends = true → c.currentId ∉ c.activeRequests.keys)
    (h : (notifyNeedMediaDataInternal c env t).2 = true) :
    Token (notifyNeedMediaDataInternal c env t).1 t := by
  unfold notifyNeedMediaDataInternal at h ⊢
  dsimp only at h ⊢
  split_ifs at h ⊢ with hcond
  simp only [Bool.or_eq_true, Bool.not_eq_true', not_or, Bool.not_eq_false] at hcond
  exact Or.inl ⟨_, (OMap.mem_emplace (hid hcond.1 hcond.2)).mpr (Or.inl rfl), rfl⟩

theorem obliged_needMediaData (hc : Obliged c) (hs : Sound c) {queue : List MainTask}
    (hq : c.mainQueue = .needMediaData t :: queue)
    (hid : c.attachedSources t = true → env.sends = true → c.currentId ∉ c.activeRequests.keys) :
    Obliged (mainTask { c with mainQueue := queue } env (.needMediaData t)) := by
  have hwait := hs.asked t (by rw [hq]; simp)
  have hops := hs.ops_of_waiting hwait
  have hd : Obliged { c with mainQueue := queue } := obliged_pop hc hq (by simp)
  have hframe := notifyInternal_frame { c with mainQueue := queue } env t
  have hsent := token_of_sent { c with mainQueue := queue } env t hid
  have hother : ∀ u, u ≠ t → Token { c with mainQueue := queue } u →
      Token (notifyNeedMediaDataInternal { c with mainQueue := queue } env t).1 u :=
    fun u hu h => token_notifyInternal hu h
  simp only [mainTask]
  set r := notifyNeedMediaDataInternal { c with mainQueue := queue } env t with hr
  have hops' : r.1.ops = c.ops := by rw [hframe]
  unfold answer
  rw [hops']
  refine Obliged.runOps ?_ rfl hops
  intro u hu he
  by_cases hut : u = t
  · subst hut
    exact hsent (by simpa using hu)
  · refine hother u hut (hd u ?_ ?_)
    · simp only [Function.update_of_ne hut] at hu
      rw [hframe] at hu
      exact hu
    · have he : r.1.eosSignalled u = false := he
      rw [hframe] at he
      exact he

theorem obliged_resend (hc : Obliged c) {queue : List MainTask}
    (hq : c.mainQueue = .resend t :: queue)
    (hid : c.attachedSources t = true → env.sends = true → c.currentId ∉ c.activeRequests.keys) :
    Obliged (mainTask { c with mainQueue := queue } env (.resend t)) := by
  have hframe := notifyInternal_frame { c with mainQueue := queue } env t
  have hsent := token_of_sent { c with mainQueue := queue } env t hid
  have hother : ∀ u, u ≠ t → Token c u →
      Token (notifyNeedMediaDataInternal { c with mainQueue := queue } env t).1 u :=
    fun u hu htok => token_notifyInternal hu (token_pop hq (fun he => hu (by cases he; rfl)) htok)
  simp only [mainTask]
  rw [resendNeedMediaData_eq]
  set r := notifyNeedMediaDataInternal { c with mainQueue := queue } env t with hr
  have hpending : r.1.needDataPending = c.needDataPending := by rw [hframe]
  have heos : r.1.eosSignalled = c.eosSignalled := by rw [hframe]
  split_ifs with hok
  · intro u hu heu
    by_cases hut : u = t
    · subst hut
      exact hsent hok
    · exact hother u hut (hc u (hpending ▸ hu) (heos ▸ heu))
  · intro u hu heu
    by_cases hut : u = t
    · subst hut
      exact Or.inr (Or.inl (Function.update_self ..))
    · refine (hother u hut (hc u (hpending ▸ hu) (heos ▸ heu))).mono
        (fun e he het => ⟨e, he, het⟩) (fun h => ?_) (fun h => h) fun _ h => h
      simpa [Function.update_of_ne hut] using h

/-- Adding a segment to a request does not change its type. -/
theorem obliged_addSegment (h : Obliged c) (id : ℕ) (segment : Option Source) (fits : Bool) :
    Obliged (addSegment c id segment fits) := by
  unfold addSegment
  rcases hf : c.activeRequests.find? id with _ | request
  · exact h
  · dsimp only
    split_ifs
    · intro u hu heu
      refine (h u hu heu).mono (fun e he het => ?_) (fun h => h) (fun h => h) fun _ h => h
      obtain ⟨k, r⟩ := e
      by_cases hk : k = id
      · subst hk
        cases OMap.eq_of_mem he (OMap.find?_eq_some.mp hf)
        exact ⟨_, OMap.mem_insert.mpr (Or.inl rfl), het⟩
      · exact ⟨_, OMap.mem_insert.mpr (Or.inr ⟨he, hk⟩), het⟩
    · exact h

/-- More tasks for the worker, and other sources attached. -/
theorem obliged_appendWorker (h : Obliged c) (tasks : List WorkerTask)
    (attachedSources : Source → Bool) : Obliged { c with
      workerQueue := c.workerQueue ++ tasks, attachedSources := attachedSources } := by
  intro u hu heu
  exact (h u hu heu).of_queues rfl rfl (fun _ h => h) fun _ h => List.mem_append_left _ h

/-- Requests are taken away only from sources whose mark is off. -/
theorem obliged_dropRequests (h : Obliged c) {requests : OMap ℕ Request}
    (hr : ∀ e ∈ c.activeRequests.entries, c.needDataPending e.2.type = true → e ∈ requests.entries)
    (clears : ℕ) : Obliged { c with activeRequests := requests, clears := clears } := by
  intro u hu heu
  exact (h u hu heu).mono (fun e he het => ⟨e, hr e he (by rw [het]; exact hu), het⟩) (fun h => h)
    (fun h => h) fun _ h => h

theorem obliged_mainTask (hc : Obliged c) (hs : Sound c) {queue : List MainTask}
    (hq : c.mainQueue = task :: queue) (hok : hands c (.main env) = true) :
    Obliged (mainTask { c with mainQueue := queue } env task) := by
  have hpop : (∀ t, task ≠ .resend t) → Obliged { c with mainQueue := queue } := obliged_pop hc hq
  have hsound : (∀ t, task ≠ .resend t) → Sound { c with mainQueue := queue } :=
    fun hne => hs.pop hq c.timers fun t hf => ⟨hf, hne t⟩
  simp only [hands, hq] at hok
  have hfresh : ∀ u, (!(c.attachedSources u && env.sends) ||
      (c.activeRequests.find? c.currentId).isNone) = true → c.attachedSources u = true →
      env.sends = true → c.currentId ∉ c.activeRequests.keys := by
    intro u h ha hsend
    rw [ha, hsend] at h
    exact OMap.find?_eq_none.mp (by simpa using h)
  cases task with
  | haveData status n id =>
    refine obliged_haveData (hpop (by simp)) (hsound (by simp)) fun request hf hw => ?_
    have hf : c.activeRequests.find? id = some request := hf
    have hw : waits c request.type = true := hw
    simp only [hf, hw, Bool.not_true, Bool.false_or, Bool.or_eq_true, Bool.and_eq_true,
      bne_iff_ne, beq_iff_eq] at hok
    exact hok.imp_right fun h => ⟨h.1.1, h.1.2, h.2⟩
  | haveDataSegments status id =>
    refine obliged_haveDataSegments (hpop (by simp)) (hsound (by simp)) fun request hf hw => ?_
    have hf : c.activeRequests.find? id = some request := hf
    have hw : waits c request.type = true := hw
    simpa [hf, hw] using hok
  | addSegment id segment fits => exact obliged_addSegment (hpop (by simp)) id segment fits
  | attachSource u m => exact obliged_appendWorker (hpop (by simp)) _ _
  | removeSource u =>
    have hd := hpop (by simp)
    simp only [mainTask, removeSource]
    split_ifs
    · exact obliged_appendWorker hd _ _
    · exact hd
  | setPosition => exact obliged_appendWorker (hpop (by simp)) [.setPosition] c.attachedSources
  | needMediaData u => exact obliged_needMediaData hc hs hq (hfresh u hok)
  | clearActiveRequests =>
    refine obliged_dropRequests (hpop (by simp)) (fun e _ hp => ?_) (c.clears + 1)
    have hfalse := hs.doomed e.2.type (doomed_head hq rfl)
    exact absurd (hp.symm.trans hfalse) (by simp)
  | invalidateActiveRequests u =>
    refine obliged_dropRequests (hpop (by simp))
      (fun e he hp => OMap.mem_eraseIf.mpr ⟨he, ?_⟩) c.clears
    have hfalse := hs.doomed u (doomed_head hq (by simp [dooms]))
    refine decide_eq_false ?_
    rintro rfl
    exact absurd (hp.symm.trans hfalse) (by simp)
  | resend u => exact obliged_resend hc hq (hfresh u hok)

/-! ## The session -/

theorem obliged_post (h : Obliged c) (task : MainTask) : Obliged (post c task) := by
  intro u hu heu
  exact (h u hu heu).of_queues rfl rfl (fun _ h => List.mem_append_left _ h) fun _ h => h

/-- An armed timer that fires leaves its task in the queue. -/
theorem obliged_fireTimer (h : Obliged c) : Obliged (fireTimer c t) := by
  intro u hu heu
  by_cases hut : u = t
  · subst hut
    exact Or.inr (Or.inr (Or.inl (by simp [fireTimer])))
  · refine (obliged_post h (.resend t) u hu heu).mono (fun e he het => ⟨e, he, het⟩)
      (fun harmed => ?_) (fun h => h) fun _ h => h
    have harmed : c.timers u = .armed := harmed
    simpa [fireTimer, Function.update_of_ne hut] using harmed

/-- **A step that hands the obligation on keeps it.** -/
theorem obliged_step (hc : Obliged c) (hs : Sound c) (hok : hands c a = true)
    (h : step c a = some c') : Obliged c' := by
  cases Step.of_step h with
  | @call task _ => exact obliged_post hc task
  | needDataCallback t => exact obliged_appendWorker hc [.needData t] c.attachedSources
  | enoughDataCallback t => exact obliged_appendWorker hc [.enoughData t] c.attachedSources
  | timerFires _ => exact obliged_fireTimer hc
  | @timerEnds t ht =>
    intro u hu heu
    refine (hc u hu heu).mono (fun e he het => ⟨e, he, het⟩) (fun harmed => ?_) (fun h => h)
      fun _ h => h
    have hut : u ≠ t := by
      rintro rfl
      rw [ht] at harmed
      cases harmed
    simpa [Function.update_of_ne hut] using harmed
  | main hq env => exact obliged_mainTask hc hs hq hok
  | seek hw ho env => exact obliged_seek hc hs hw ho
  | work hw ho hq env => exact obliged_startTask hc hw ho hq hok

/-- **No need-data is lost.** Along every run whose steps hand the obligation on, a source that is
marked pending before the end of its stream has an active request, an armed resend timer or its
queued task, or a queued attach task that ends in `notifyNeedMediaData` for it. -/
theorem pending_has_token (h : Run step (fun c a => hands c a = true) init as c) {t : Source}
    (hp : c.needDataPending t = true) (he : c.eosSignalled t = false) : Token c t := by
  have hinv : Obliged c ∧ Sound c := by
    refine h.invariant (fun c => Obliged c ∧ Sound c) ?_ ⟨obliged_init, sound_init⟩
    rintro s a s' ⟨hs, hsound⟩ hok hstep
    exact ⟨obliged_step hs hsound hok hstep, sound_step hsound hstep⟩
  exact hinv.1 t hp he

/-- The client answers the first request for video with two frames; the task that attaches them is
in the worker's queue. -/
theorem pending_has_token_attaching : ∃ c, Run step (fun c a => hands c a = true) init
    (firstRequest .video ++ [.call (.haveData .ok 2 0), .main .willing]) c ∧
    c.needDataPending .video = true ∧ Token c .video := by
  refine Run.exists_of_runsIf (fun c => (c.needDataPending .video, c.eosSignalled .video))
    (true, false) (by decide +kernel) fun c hrun hview => ?_
  obtain ⟨hp, he⟩ := Prod.mk.inj hview
  exact ⟨hp, pending_has_token hrun hp he⟩

/-- The client answers the first request for video with status OK and no frames: the source stays
marked pending, and nothing will ask for its data again. -/
theorem empty_haveData_stalls : ∃ c, Run step (fun _ _ => True) init
    (firstRequest .video ++ [.call (.haveData .ok 0 0), .main .willing]) c ∧
    c.attachedSources .video = true ∧ c.needDataPending .video = true ∧
    c.eosSignalled .video = false ∧ ¬Token c .video := by
  refine Run.exists_of_runs
    (fun c => ((c.attachedSources .video, c.needDataPending .video, c.eosSignalled .video),
      (c.activeRequests.entries, c.timers .video, c.mainQueue, c.workerQueue)))
    ((true, true, false), ([], .absent, [], [])) rfl fun c _ hview => ?_
  simp only [Prod.mk.injEq] at hview
  obtain ⟨⟨h1, h2, h3⟩, h4, h5, h6, h7⟩ := hview
  refine ⟨h1, h2, h3, ?_⟩
  simp [Token, h4, h5, h6, h7]

end Rialto.Pipeline.Pending
