import Rialto.Pipeline.InFlight

/-! # Exclusive use of a region

A source has one region in the shared memory, so it must have one request at a time, and the region
must not be cleared for a new request while the answer to the last one is unread.

* `exclusive_mainTask`: what the main thread does;
* `exclusive_step`, `one_request_and_intact`: along every run in which a seek or a removal meets
  nothing in flight. `seek_overtakes_answer`: one in which it does. -/

namespace Rialto.Pipeline.Region

open Rialto.Lib.OrdMap Rialto.Lib.Runs Rialto.Lib.Word
open Rialto.Pipeline.Session Rialto.Pipeline.Queues Rialto.Pipeline.InFlight

variable {c c' : State} {a : Action} {as : List Action} {env : Env} {t u : Source}
  {task : MainTask} {wtask : WorkerTask}

/-! ## The main thread -/

/-- Taking a task from the queue of the main thread. -/
theorem inFlight_pop {queue : List MainTask} (hq : c.mainQueue = task :: queue) (t : Source) :
    inFlight { c with mainQueue := queue } t + (if task = .resend t then 1 else 0) =
      inFlight c t := by
  unfold inFlight
  rw [hq, List.count_cons]
  simp only [beq_iff_eq]
  omega

theorem doomed_pop_iff {queue : List MainTask} (hq : c.mainQueue = task :: queue)
    (h : dooms t task = false) : Doomed { c with mainQueue := queue } t ↔ Doomed c t := by
  refine ⟨doomed_pop hq, ?_⟩
  rintro ⟨b, hb, hd⟩
  rw [hq] at hb
  rcases List.mem_cons.mp hb with rfl | hb
  · rw [h] at hd
    cases hd
  · exact ⟨b, hb, hd⟩

/-- Taking a task that forgets no requests. -/
theorem exclusive_pop (h : Exclusive c) {queue : List MainTask} (hq : c.mainQueue = task :: queue)
    (hd : ∀ t, dooms t task = false) : Exclusive { c with mainQueue := queue } := by
  refine ⟨fun u => (h.held u).of_le le_rfl ?_ (doomed_pop_iff hq (hd u)) rfl, h.removed, h.intact⟩
  have := inFlight_pop hq u
  omega

theorem requests_erase {id : ℕ} {request : Request}
    (hf : c.activeRequests.find? id = some request) (t : Source) :
    requests { c with activeRequests := c.activeRequests.erase id } t +
      (if request.type = t then 1 else 0) = requests c t := by
  have h := OMap.countP_erase (OMap.find?_eq_some.mp hf) fun e => e.2.type = t
  simpa [requests] using h

/-- `haveData` for a request that is not about to be forgotten, or that leaves nothing in flight.
The samples attached are of the source of the request. -/
theorem exclusive_handled (h : Exclusive c) {id : ℕ} (hh : Handled c id c')
    (hown : ∀ request, c.activeRequests.find? id = some request → ∀ u ≠ request.type,
      inFlight c' u ≤ inFlight c u)
    (hflight : ∀ request, c.activeRequests.find? id = some request →
      inFlight c' request.type ≤ inFlight c request.type + 1 ∧
        (Doomed c request.type → inFlight c' request.type ≤ inFlight c request.type)) :
    Exclusive c' := by
  have herased : ∀ {request} (hf : c.activeRequests.find? id = some request),
      c'.activeRequests = c.activeRequests.erase id → c'.mainQueue = c.mainQueue →
      c'.needDataPending = c.needDataPending → ∀ t, Held c' t := by
    intro request hf hr hm hp t
    have hreq : requests c' t + (if request.type = t then 1 else 0) = requests c t := by
      rw [← requests_erase hf t]
      unfold requests
      rw [hr]
    have hd : Doomed c' t ↔ Doomed c t := by
      unfold Doomed
      rw [hm]
    by_cases htype : request.type = t
    · subst htype
      rw [if_pos rfl] at hreq
      exact (h.held _).handOver hreq (hflight request hf).1 hd (hflight request hf).2 (by rw [hp])
    · rw [if_neg htype] at hreq
      exact (h.held t).of_le (by omega) (hown request hf t (Ne.symm htype)) hd (by rw [hp])
  cases hh with
  | unknown => exact h
  | @rescheduled request hf =>
    have hheld := herased hf
    rw [schedule_frame] at hheld ⊢
    exact ⟨hheld rfl rfl rfl, h.removed, h.intact⟩
  | @failed request hf => exact ⟨herased hf rfl rfl rfl, h.removed, h.intact⟩
  | @attached request hf attach _ _ _ _ status =>
    have hheld := herased hf
    unfold attachAndSetEos at hheld ⊢
    split_ifs at hheld ⊢
    · exact ⟨hheld rfl rfl rfl, h.removed, h.intact⟩
    · exact ⟨hheld rfl rfl rfl, h.removed, h.intact⟩

/-- Arming a timer. -/
theorem inFlight_arm (c : State) (t u : Source) :
    inFlight { c with timers := Function.update c.timers t .armed } u ≤
      inFlight c u + if u = t then 1 else 0 := by
  unfold inFlight
  dsimp only
  split_ifs with hut
  · subst hut
    have := armed_le .armed
    rw [Function.update_self]
    omega
  · rw [Function.update_of_ne hut]
    exact le_rfl

theorem inFlight_schedule (c : State) (t u : Source) :
    inFlight (scheduleNotifyNeedMediaData c t) u ≤ inFlight c u + if u = t then 1 else 0 := by
  unfold scheduleNotifyNeedMediaData
  by_cases ha : (c.timers t).isActive = true
  · rw [if_pos ha]
    exact Nat.le_add_right _ _
  · rw [if_neg ha]
    exact inFlight_arm c t u

theorem inFlight_attachAndSetEos (c : State) (t u : Source) (attach : List WorkerTask)
    (status : MediaSourceStatus) :
    inFlight (attachAndSetEos c t attach status) u = inFlight c u + attach.countP (answers u) := by
  unfold attachAndSetEos
  split_ifs
  · unfold inFlight
    dsimp only
    rw [List.countP_append, List.countP_append]
    simp only [List.countP_cons, List.countP_nil, answers]
    simp only [Bool.false_eq_true, if_false]
    omega
  · unfold inFlight
    dsimp only
    rw [List.countP_append]
    omega

/-- A `haveData` puts at most one thing in flight, for the source of its request. -/
theorem inFlight_haveData {status : MediaSourceStatus} {n id : ℕ} {request : Request}
    (hf : c.activeRequests.find? id = some request) (u : Source) :
    inFlight (haveData c env status n id) u ≤ inFlight c u +
      if u = request.type ∧ ¬((status = .ok ∨ status = .eos) ∧ n = 0) then 1 else 0 := by
  unfold haveData
  rw [hf]
  dsimp only
  by_cases hst : status ≠ .ok ∧ status ≠ .eos
  · rw [if_pos hst]
    refine (inFlight_schedule _ _ u).trans ?_
    have hne : ¬((status = .ok ∨ status = .eos) ∧ n = 0) :=
      fun h => h.1.elim hst.1 hst.2
    simp only [hne, not_false_eq_true, and_true]
    exact le_rfl
  · rw [if_neg hst]
    by_cases hregion : (!env.region) = true
    · rw [if_pos hregion]
      exact Nat.le_add_right _ _
    · rw [if_neg hregion]
      by_cases hn : n = 0
      · rw [if_pos hn, inFlight_attachAndSetEos]
        exact Nat.le_add_right _ _
      · rw [if_neg hn]
        rcases env.version with _ | version
        · exact Nat.le_add_right _ _
        · dsimp only
          rw [inFlight_attachAndSetEos]
          refine Nat.add_le_add_left ?_ _
          simp [answers, hn, eq_comm]

/-- A `haveData` with segments puts at most one thing in flight, for the source that they notify. -/
theorem inFlight_haveDataSegments {status : MediaSourceStatus} {id : ℕ} {request : Request}
    (hf : c.activeRequests.find? id = some request) (u : Source) :
    inFlight (haveDataSegments c status id) u ≤ inFlight c u +
      if (if status ≠ .ok ∧ status ≠ .eos then some request.type else notified request.segments) =
        some u then 1 else 0 := by
  unfold haveDataSegments
  rw [hf]
  dsimp only
  by_cases hst : status ≠ .ok ∧ status ≠ .eos
  · rw [if_pos hst, if_pos hst]
    refine (inFlight_schedule _ _ u).trans (Nat.add_le_add_left ?_ _)
    simp [eq_comm]
  · rw [if_neg hst, if_neg hst, inFlight_attachAndSetEos]
    refine Nat.add_le_add_left ?_ _
    simp [answers]

/-- A need-data event adds at most one request, for its source, and only when it is sent. -/
theorem requests_notifyInternal (c : State) (env : Env) (t u : Source) :
    requests (notifyNeedMediaDataInternal c env t).1 u ≤ requests c u +
      if u = t ∧ (notifyNeedMediaDataInternal c env t).2 = true then 1 else 0 := by
  unfold notifyNeedMediaDataInternal
  dsimp only
  by_cases hcond : (!c.attachedSources t || !env.sends) = true
  · rw [if_pos hcond]
    exact Nat.le_add_right _ _
  · rw [if_neg hcond]
    have h := OMap.countP_emplace_le c.activeRequests c.currentId
      (⟨t, [], c.flushed, c.clears⟩ : Request) fun e => e.2.type = u
    simpa [requests, eq_comm] using h

/-- A need-data event erases the timer of its source. -/
theorem inFlight_notifyInternal (c : State) (env : Env) (t u : Source) :
    inFlight (notifyNeedMediaDataInternal c env t).1 u ≤ inFlight c u := by
  rw [notifyInternal_frame]
  unfold inFlight
  dsimp only
  by_cases hut : u = t
  · subst hut
    have habsent : armed .absent = 0 := rfl
    rw [Function.update_self, habsent]
    omega
  · rw [Function.update_of_ne hut]

/-- A need-data event clears a region that no task has to read. -/
theorem intact_notifyInternal (env : Env) (h : c.overwritten = false)
    (hq : c.workerQueue.countP (answers t) = 0) :
    (notifyNeedMediaDataInternal c env t).1.overwritten = false := by
  rw [notifyInternal_frame]
  dsimp only
  rw [h, reads_le_answers c t hq, Bool.or_false]

theorem exclusive_needMediaData (hc : Exclusive c) (hs : Sound c) {queue : List MainTask}
    (hq : c.mainQueue = .needMediaData t :: queue) :
    Exclusive (mainTask { c with mainQueue := queue } env (.needMediaData t)) := by
  have hwait := hs.asked t (by rw [hq]; simp)
  have hdoom : ∀ u, ¬Doomed { c with mainQueue := queue } u := by
    rintro u ⟨b, hb, hd⟩
    have := fromWorker_of_dooms hd
    rw [hs.behind hq b hb] at this
    cases this
  have hd : Exclusive { c with mainQueue := queue } := exclusive_pop hc hq fun _ => rfl
  have hzero := (hd.held t).unmarked (hdoom t) (hs.unmarked t hwait)
  have hreq := requests_notifyInternal { c with mainQueue := queue } env t
  have hfl := inFlight_notifyInternal { c with mainQueue := queue } env t
  have hint := intact_notifyInternal (c := { c with mainQueue := queue }) (t := t) env
    hd.intact (by unfold inFlight at hzero; omega)
  have hfr := notifyInternal_frame { c with mainQueue := queue } env t
  simp only [mainTask]
  set r := notifyNeedMediaDataInternal { c with mainQueue := queue } env t with hr
  have hdoom' : ∀ u, ¬Doomed r.1 u := by
    intro u hu
    rw [hfr] at hu
    exact hdoom u hu
  have hrem : r.1.audioSourceRemoved = c.audioSourceRemoved := by rw [hfr]
  have hops : r.1.ops = c.ops := by rw [hfr]
  have hpend : r.1.needDataPending = c.needDataPending := by rw [hfr]
  suffices hans : Exclusive { r.1 with
      needDataPending := Function.update r.1.needDataPending t r.2, waiting := none } by
    exact hans.runOps rfl (by rw [hops]; exact hs.ops_of_waiting hwait)
  refine ⟨fun u => ?_, fun h => ?_, hint⟩
  · have hru := hreq u
    have hfu := hfl u
    by_cases hut : u = t
    · subst hut
      refine ⟨?_, fun hdu => absurd hdu (hdoom' u), fun _ hp => ?_⟩
      · have hone : requests r.1 u + inFlight r.1 u ≤ 1 := by
          split_ifs at hru <;> omega
        exact hone
      · have hp : r.2 = false := by simpa using hp
        rw [if_neg (by simp [hp])] at hru
        have hzero' : requests r.1 u + inFlight r.1 u = 0 := by omega
        exact hzero'
    · rw [if_neg (by simp [hut])] at hru
      refine (hd.held u).of_le hru hfu ?_ ?_
      · exact ⟨fun h => absurd h (hdoom' u), fun h => absurd h (hdoom u)⟩
      · simp only [Function.update_of_ne hut, hpend]
  · rw [hrem] at h
    obtain ⟨hp, hw⟩ := hc.removed h
    refine ⟨?_, by simp⟩
    have hta : Source.audio ≠ t := by
      rintro rfl
      exact hw hwait
    simp only [Function.update_of_ne hta, hpend]
    exact hp

theorem exclusive_resend (hc : Exclusive c) {queue : List MainTask}
    (hq : c.mainQueue = .resend t :: queue) :
    Exclusive (mainTask { c with mainQueue := queue } env (.resend t)) := by
  have hpop := inFlight_pop hq t
  rw [if_pos rfl] at hpop
  obtain ⟨hdoom, hmark, hnone, hone⟩ := (hc.held t).of_inFlight (by omega)
  have hd : Exclusive { c with mainQueue := queue } := exclusive_pop hc hq fun _ => rfl
  have hdoom' : ¬Doomed { c with mainQueue := queue } t := fun h => hdoom (doomed_pop hq h)
  have hnone' : requests { c with mainQueue := queue } t = 0 := hnone
  have hreq := requests_notifyInternal { c with mainQueue := queue } env t
  have hfl := inFlight_notifyInternal { c with mainQueue := queue } env t
  have hint := intact_notifyInternal (c := { c with mainQueue := queue }) (t := t) env
    hd.intact (by unfold inFlight at hpop hone; omega)
  have hfr := notifyInternal_frame { c with mainQueue := queue } env t
  simp only [mainTask, resendNeedMediaData_eq]
  set r := notifyNeedMediaDataInternal { c with mainQueue := queue } env t with hr
  have hrem : r.1.audioSourceRemoved = true →
      r.1.needDataPending .audio = false ∧ r.1.waiting ≠ some .audio := by
    rw [hfr]
    exact hc.removed
  have hdu : ∀ u, Doomed r.1 u ↔ Doomed { c with mainQueue := queue } u := by
    intro u
    rw [hfr]
    exact Iff.rfl
  have hpu : r.1.needDataPending = c.needDataPending := by rw [hfr]
  -- What the source had in flight is the task itself; a request or an armed timer takes its place.
  have hheld : ∀ d : State, d.mainQueue = r.1.mainQueue → d.needDataPending = r.1.needDataPending →
      requests d t + inFlight d t ≤ 1 → (∀ u ≠ t, requests d u = requests r.1 u ∧
        inFlight d u ≤ inFlight r.1 u) → ∀ u, Held d u := by
    intro d hm hp hle hother u
    have hdr : Doomed d u ↔ Doomed r.1 u := by
      unfold Doomed
      rw [hm]
    by_cases hut : u = t
    · subst hut
      refine ⟨hle, fun h => absurd ((hdu u).mp (hdr.mp h)) hdoom', fun _ h => ?_⟩
      rw [hp, hpu, hmark] at h
      cases h
    · obtain ⟨h1, h2⟩ := hother u hut
      have h3 := hreq u
      rw [if_neg (by simp [hut]), ← h1] at h3
      exact (hd.held u).of_le h3 (h2.trans (hfl u)) (hdr.trans (hdu u)) (by rw [hp, hpu])
  have hrt := hreq t
  have hft := hfl t
  split_ifs with hsent
  · refine ⟨hheld r.1 rfl rfl ?_ fun _ _ => ⟨rfl, le_rfl⟩, hrem, hint⟩
    rw [if_pos ⟨rfl, hsent⟩] at hrt
    omega
  · refine ⟨hheld _ rfl rfl ?_ fun u hut => ⟨rfl, ?_⟩, hrem, hint⟩
    · have harm := inFlight_arm r.1 t t
      rw [if_pos rfl] at harm
      rw [if_neg (by simp [hsent])] at hrt
      have hle : ∀ k, k ≤ inFlight r.1 t + 1 → requests r.1 t + k ≤ 1 := fun k hk => by omega
      exact hle _ harm
    · have harm := inFlight_arm r.1 t u
      rwa [if_neg hut] at harm

theorem exclusive_addSegment (h : Exclusive c) (id : ℕ) (segment : Option Source) (fits : Bool) :
    Exclusive (addSegment c id segment fits) := by
  unfold addSegment
  rcases hf : c.activeRequests.find? id with _ | request
  · exact h
  · dsimp only
    split_ifs
    · refine ⟨fun u => (h.held u).of_le ?_ le_rfl Iff.rfl rfl, h.removed, h.intact⟩
      have hcount := OMap.countP_replace (OMap.find?_eq_some.mp hf)
        { request with segments := request.segments ++ [segment] }
        (p := fun e => e.2.type = u) rfl
      exact hcount.le
    · exact h

/-- More tasks for the worker that attach nothing, and other sources attached. -/
theorem exclusive_appendWorker (h : Exclusive c) (ha : ∀ t, answers t wtask = false)
    (attachedSources : Source → Bool) : Exclusive { c with
      workerQueue := c.workerQueue ++ [wtask], attachedSources := attachedSources } := by
  refine ⟨fun u => (h.held u).of_le le_rfl ?_ Iff.rfl rfl, h.removed, h.intact⟩
  have hcount : (c.workerQueue ++ [wtask]).countP (answers u) =
      c.workerQueue.countP (answers u) := by
    simp [ha u]
  unfold inFlight
  dsimp only
  omega

/-- Forgetting the requests of the sources that the task dooms. -/
theorem exclusive_forget (hc : Exclusive c) {queue : List MainTask}
    (hq : c.mainQueue = task :: queue) (hres : ∀ t, task ≠ .resend t) {remaining : OMap ℕ Request}
    {clears : ℕ}
    (hgone : ∀ t, dooms t task = true → remaining.entries.countP (fun e => e.2.type = t) = 0)
    (hkept : ∀ t, remaining.entries.countP (fun e => e.2.type = t) ≤ requests c t) :
    Exclusive { c with mainQueue := queue, activeRequests := remaining, clears := clears } := by
  refine ⟨fun u => ?_, hc.removed, hc.intact⟩
  have hpop := inFlight_pop hq u
  rw [if_neg (hres u)] at hpop
  have hfl : inFlight { c with
      mainQueue := queue, activeRequests := remaining, clears := clears } u = inFlight c u := hpop
  by_cases hd : dooms u task = true
  · have hzero := (hc.held u).doomed (doomed_head hq hd)
    have hnone : requests { c with
      mainQueue := queue, activeRequests := remaining, clears := clears } u = 0 := hgone u hd
    exact ⟨by omega, fun _ => by omega, fun _ _ => by omega⟩
  · exact (hc.held u).of_le (hkept u) hfl.le (doomed_pop_iff hq (by simpa using hd)) rfl

theorem exclusive_mainTask (hc : Exclusive c) (hs : Sound c) {queue : List MainTask}
    (hq : c.mainQueue = task :: queue) (hok : orderly c (.main env) = true) :
    Exclusive (mainTask { c with mainQueue := queue } env task) := by
  have hpop : (∀ t, dooms t task = false) → Exclusive { c with mainQueue := queue } :=
    exclusive_pop hc hq
  simp only [orderly, hq] at hok
  cases task with
  | haveData status n id =>
    refine exclusive_handled (hpop fun _ => rfl) (Handled.of_haveData _ env status n id)
      (fun request hf u hu => ?_) fun request hf => ⟨?_, fun hd => ?_⟩
    · refine (inFlight_haveData hf u).trans ?_
      rw [if_neg (by simp [hu])]
      exact le_rfl
    · refine (inFlight_haveData hf request.type).trans ?_
      split_ifs <;> omega
    · have hf' : c.activeRequests.find? id = some request := hf
      have hdoom := (doomed_pop_iff hq rfl).mp hd
      simp only [hf', hdoom, decide_true, Bool.not_true, Bool.false_or, Bool.and_eq_true,
        Bool.or_eq_true, beq_iff_eq] at hok
      refine (inFlight_haveData hf request.type).trans ?_
      rw [if_neg fun h => h.2 hok]
      exact le_rfl
  | haveDataSegments status id =>
    refine exclusive_handled (hpop fun _ => rfl) (Handled.of_haveDataSegments _ status id)
      (fun request hf u hu => ?_) fun request hf => ⟨?_, fun hd => ?_⟩
    · have hf' : c.activeRequests.find? id = some request := hf
      refine (inFlight_haveDataSegments hf u).trans ?_
      rw [if_neg]
      · exact le_rfl
      · intro h
        simp only [hf', Bool.or_eq_true, Bool.and_eq_true, beq_iff_eq, bne_iff_ne] at hok
        split_ifs at h with hst
        · exact hu (Option.some.inj h).symm
        · rcases hok with ⟨-, hn⟩ | ⟨-, hn⟩
          · rw [hn] at h
            cases h
          · rcases hn with hn | hn
            · exact hst hn
            · rw [hn] at h
              exact hu (Option.some.inj h).symm
    · refine (inFlight_haveDataSegments hf request.type).trans ?_
      exact Nat.add_le_add_left (by split_ifs <;> omega) _
    · have hf' : c.activeRequests.find? id = some request := hf
      have hdoom := (doomed_pop_iff hq rfl).mp hd
      simp only [hf', hdoom, decide_true, Bool.not_true, Bool.false_and, Bool.or_false,
        Bool.and_eq_true, Bool.or_eq_true, beq_iff_eq] at hok
      refine (inFlight_haveDataSegments hf request.type).trans ?_
      have hst : ¬(status ≠ .ok ∧ status ≠ .eos) := fun hst => hok.1.elim hst.1 hst.2
      rw [if_neg hst, hok.2, if_neg (by simp)]
      exact le_rfl
  | addSegment id segment fits => exact exclusive_addSegment (hpop fun _ => rfl) id segment fits
  | attachSource u m => exact exclusive_appendWorker (hpop fun _ => rfl) (fun _ => rfl) _
  | removeSource u =>
    have hd := hpop fun _ => rfl
    simp only [mainTask, removeSource]
    split_ifs
    · exact exclusive_appendWorker hd (fun _ => rfl) _
    · exact hd
  | setPosition => exact exclusive_appendWorker (hpop fun _ => rfl) (fun _ => rfl) c.attachedSources
  | needMediaData u => exact exclusive_needMediaData hc hs hq
  | clearActiveRequests => exact exclusive_forget hc hq (by simp) (by simp) (by simp)
  | invalidateActiveRequests u =>
    refine exclusive_forget hc hq (by simp) (fun v hv => ?_) fun v => ?_
    · have huv : u = v := by simpa [dooms] using hv
      refine List.countP_eq_zero.mpr fun e he hev => ?_
      have := (OMap.mem_eraseIf.mp he).2
      simp [huv] at this hev
      exact this hev
    · exact List.Sublist.countP_le List.filter_sublist
  | resend u => exact exclusive_resend hc hq

/-! ## The session -/

theorem exclusive_fireTimer (h : Exclusive c) (ht : c.timers t = .armed) :
    Exclusive (fireTimer c t) := by
  refine ⟨fun u => (h.held u).of_le le_rfl ?_ (doomed_post_iff (.resend t) rfl) rfl,
    h.removed, h.intact⟩
  unfold inFlight fireTimer
  dsimp only
  rw [List.count_append]
  by_cases hut : u = t
  · subst hut
    have hfired : armed .fired = 0 := rfl
    have harmed : armed .armed = 1 := rfl
    rw [Function.update_self, ht, hfired, harmed, List.count_singleton_self]
    omega
  · have hzero : [MainTask.resend t].count (.resend u) = 0 :=
      List.count_eq_zero.mpr (by simpa using hut)
    exact Nat.le_of_eq (by rw [Function.update_of_ne hut, hzero, Nat.add_zero])

/-- **An orderly step keeps the regions exclusive.** -/
theorem exclusive_step (hc : Exclusive c) (hs : Sound c) (hok : orderly c a = true)
    (h : step c a = some c') : Exclusive c' := by
  cases Step.of_step h with
  | @call task hcall =>
    have hresend : ∀ u, task ≠ .resend u := by
      rintro u rfl
      cases hcall
    have hdoom : ∀ u, dooms u task = false := by
      intro u
      cases task <;> first | rfl | cases hcall
    exact ⟨fun u => (hc.held u).of_le le_rfl (inFlight_post _ (hresend u)).le
      (doomed_post_iff _ (hdoom u)) rfl, hc.removed, hc.intact⟩
  | needDataCallback t => exact exclusive_appendWorker hc (fun _ => rfl) c.attachedSources
  | enoughDataCallback t => exact exclusive_appendWorker hc (fun _ => rfl) c.attachedSources
  | timerFires ht => exact exclusive_fireTimer hc ht
  | @timerEnds t ht =>
    refine ⟨fun u => (hc.held u).of_le le_rfl ?_ Iff.rfl rfl, hc.removed, hc.intact⟩
    unfold inFlight
    dsimp only
    by_cases hut : u = t
    · subst hut
      have hended : armed .ended = 0 := rfl
      rw [Function.update_self, hended]
      omega
    · rw [Function.update_of_ne hut]
  | main hq env => exact exclusive_mainTask hc hs hq hok
  | seek hw ho env => exact exclusive_seek hc hs hw ho
  | work hw ho hq env => exact exclusive_startTask hc hw ho hq hok

/-- **Exclusive use of the regions.** Along every orderly run each source has at most one active
request, and no region is cleared while a queued task still has to read it. -/
theorem one_request_and_intact (h : Run step (fun c a => orderly c a = true) init as c) :
    (∀ t, requests c t ≤ 1) ∧ c.overwritten = false := by
  have hinv : Exclusive c ∧ Sound c := by
    refine h.invariant (fun c => Exclusive c ∧ Sound c) ?_ ⟨exclusive_init, sound_init⟩
    rintro s a s' ⟨hs, hsound⟩ hok hstep
    exact ⟨exclusive_step hs hsound hok hstep, sound_step hsound hstep⟩
  exact ⟨fun t => (Nat.le_add_right _ _).trans (hinv.1.held t).one, hinv.1.intact⟩

/-- A seek after the samples of the first request were attached, and the request that it issues. -/
theorem one_request_and_intact_seek : ∃ c, Run step (fun c a => orderly c a = true) init
    (firstRequest .video ++ [.call (.haveData .ok 2 0), .main .willing, .work .willing,
      .main .willing, .call .setPosition, .main .willing, .work .willing, .main .willing,
      .work .willing, .main .willing]) c ∧ requests c .video ≤ 1 ∧ c.overwritten = false := by
  refine Run.exists_of_runsIf (fun _ => ()) () (by decide +kernel) fun c hrun _ => ?_
  obtain ⟨hone, hintact⟩ := one_request_and_intact hrun
  exact ⟨hone .video, hintact⟩

/-- The worker comes to a seek before the answer of the client to the first request is read: the
request that the seek issues clears the region under the queued task. -/
theorem seek_overtakes_answer : ∃ c, Run step (fun _ _ => True) init
    (firstRequest .video ++ [.call .setPosition, .main .willing, .call (.haveData .ok 2 0),
      .main .willing, .work .willing, .main .willing, .work .willing, .main .willing]) c ∧
    c.overwritten = true := by
  exact Run.exists_of_runs State.overwritten true (by decide +kernel) fun _ _ hview => hview

end Rialto.Pipeline.Region
