import Rialto.Server.Execution

/-! # No circular wait

The main thread waits for other threads in two operations of the client: a second `load` joins the
worker of the old player and unreferences its buffers, and the server-only `haveData` asks the
decryption service for encrypted segments. `safe` says that at these points nothing leads back to
the main thread.

* `orderly_step`, `no_circular_wait`: a safe step keeps the server orderly, so that there is no
  circular wait along any run of safe steps. `second_load_deadlocks`: a run with a step that is not
  safe. -/

namespace Rialto.Server.CircularWait

open Rialto.Lib.Runs Rialto.Lib.WaitFor Rialto.Server.Threads Rialto.Server.Acts Rialto.Server.Waits
  Rialto.Server.Execution

variable {c c' : State} {a : Action} {as : List Action} {t : Thread} {acts : List Act}

/-! ## The steps -/

theorem holds_of_nil (h : Orderly c) (ht : c.acts t = []) : holds c t = false := by
  have := (h.lawful t).balanced
  rw [ht] at this
  simpa [balanced] using this

/-- A thread with a task in the queue of the main thread waits. -/
theorem awaiting_of_entry (h : Orderly c) {e : Entry} (he : e ∈ entries c)
    (hw : e.waiter = some t) : c.status t = .awaiting := by
  by_contra hne
  have := h.tickets t
  rw [if_neg hne, List.countP_eq_zero] at this
  exact this e he (by simp [hw])

theorem idle_iff : idle c t = true ↔ c.status t = .running ∧ c.acts t = [] := by
  simp [idle]

/-- A thread other than the main thread begins something. -/
theorem orderly_begin (h : Orderly c) (ht : t ≠ .main) (hidle : idle c t = true)
    (hacts : c'.acts = Function.update c.acts t acts) (hstatus : c'.status = c.status)
    (hholder : c'.holder = c.holder) (hk : c'.mediaKeys = c.mediaKeys)
    (hcur : c'.current = c.current) (hq : c'.mainQueue = c.mainQueue)
    (hbegun : ∀ a ∈ acts, begun a = true)
    (hmodest : t = .worker ∨ t = .streaming → ∀ a ∈ acts, modest a = true)
    (hsingle : t = .ipc → ∀ a ∈ acts, demanding a = true → acts = [a])
    (hquiet : c.status .main = .joining → QuietWorker c') : Orderly c' := by
  obtain ⟨hs, hnil⟩ := idle_iff.mp hidle
  have hentries : entries c' = entries c := by
    unfold entries
    rw [hcur, hq]
  refine ⟨fun u => ?_, fun e he htask => ?_, fun hbusy => ?_, fun u => ?_, ?_⟩
  · have hh : holds c' u = holds c u := holds_congr (by rw [hholder])
    rw [hh, hk, hacts, hstatus]
    by_cases hut : u = t
    · subst hut
      rw [Function.update_self, hs, holds_of_nil h hnil]
      exact ⟨balanced_begun hbegun, by simp, hmodest, fun hm => absurd hm ht, hsingle, by simp⟩
    · rw [Function.update_of_ne hut]
      exact h.lawful u
  · rw [hentries] at he
    obtain ⟨hwaiter, hipc⟩ := h.served e he htask
    refine ⟨hwaiter, ?_⟩
    rw [hacts, Function.update_of_ne, hipc]
    rintro rfl
    have := awaiting_of_entry h he hwaiter
    rw [hs] at this
    cases this
  · rw [hacts, hstatus, Function.update_of_ne (Ne.symm ht)] at hbusy
    rw [hcur]
    exact h.busy hbusy
  · rw [hentries, hstatus]
    exact h.tickets u
  · rw [hstatus]
    exact hquiet

/-- A worker that stays as it is stays quiet. -/
theorem quietWorker_of_eq (h : QuietWorker c) (hstop : c'.stopped = c.stopped)
    (hs : c'.status .worker = c.status .worker) (ha : c'.acts .worker = c.acts .worker)
    (hk : c'.mediaKeys = c.mediaKeys) (hq : c'.workerQueue = c.workerQueue) : QuietWorker c' := by
  unfold QuietWorker
  rw [hstop, hs, ha, hk, hq]
  exact h

/-- A change of the worker's queue, or of whether there is a player. -/
theorem orderly_of_eq (h : Orderly c) (hacts : c'.acts = c.acts) (hstatus : c'.status = c.status)
    (hholder : c'.holder = c.holder) (hk : c'.mediaKeys = c.mediaKeys)
    (hcur : c'.current = c.current) (hq : c'.mainQueue = c.mainQueue)
    (hquiet : c.status .main = .joining → QuietWorker c') : Orderly c' := by
  have hentries : entries c' = entries c := by
    unfold entries
    rw [hcur, hq]
  refine ⟨fun u => ?_, ?_, ?_, ?_, by rw [hstatus]; exact hquiet⟩
  · rw [holds_congr (c := c) (by rw [hholder]), hk, hacts, hstatus]
    exact h.lawful u
  · rw [hentries, hacts]
    exact h.served
  · rw [hacts, hstatus, hcur]
    exact h.busy
  · rw [hentries, hstatus]
    exact h.tickets

/-- The main thread, which has no task, takes the next one. -/
theorem orderly_start (h : Orderly c) {e : Entry} {queue : List Entry} (hnone : c.current = none)
    (hqueue : c.mainQueue = e :: queue)
    (hsafe : ∀ a ∈ e.task.acts c.player, quiet c.mediaKeys a = true)
    (hacts : c'.acts = Function.update c.acts .main (e.task.acts c.player))
    (hstatus : c'.status = c.status) (hholder : c'.holder = c.holder)
    (hk : c'.mediaKeys = c.mediaKeys) (hcur : c'.current = some e) (hq : c'.mainQueue = queue) :
    Orderly c' := by
  have hfree : ¬(c.acts .main ≠ [] ∨ c.status .main = .joining) := by
    intro hbusy
    obtain ⟨e', he', -⟩ := h.busy hbusy
    rw [hnone] at he'
    cases he'
  obtain ⟨hnil, hrunning⟩ := not_or.mp hfree
  have hentries : entries c' = entries c := by
    simp [entries, hcur, hq, hnone, hqueue]
  refine ⟨fun u => ?_, fun e' he' htask => ?_, fun hbusy => ⟨e, hcur, ?_⟩, ?_, ?_⟩
  · have hl := h.lawful u
    rw [holds_congr (c := c) (by rw [hholder]), hk, hacts, hstatus]
    by_cases hum : u = .main
    · subst hum
      rw [Function.update_self, holds_of_nil h (not_not.mp hnil)]
      exact ⟨balanced_begun fun a ha => begun_mainTask ha, fun hj => absurd hj hrunning, by simp,
        fun _ => ⟨hsafe, (hl.main rfl).2⟩, by simp, by simp⟩
    · rw [Function.update_of_ne hum]
      exact hl
  · rw [hentries] at he'
    rw [hacts, Function.update_of_ne (by simp)]
    exact h.served e' he' htask
  · intro hplain
    rw [hacts, hstatus, Function.update_self, hplain] at hbusy
    rcases hbusy with hne | hj
    · exact hne rfl
    · exact hrunning hj
  · rw [hentries, hstatus]
    exact h.tickets
  · rw [hstatus]
    exact fun hj => absurd hj hrunning

/-- All threads stay lawful when one goes on. -/
theorem lawful_setRunning (h : Orderly c) (t u : Thread) :
    Lawful c.mediaKeys (holds c u) u (c.acts u) (Function.update c.status t .running u) := by
  by_cases hut : u = t
  · subst hut
    rw [Function.update_self]
    exact (h.lawful u).resume
  · rw [Function.update_of_ne hut]
    exact h.lawful u

/-- The main thread has executed a task; the thread that waits for it goes on. -/
theorem orderly_finish (h : Orderly c) {e : Entry} (hcur : c.current = some e)
    (hidle : idle c .main = true) : Orderly (finish c e.waiter) := by
  obtain ⟨hrunning, hnil⟩ := idle_iff.mp hidle
  have hentries : entries c = e :: c.mainQueue := by simp [entries, hcur]
  have hserved : ∀ e' ∈ c.mainQueue, e'.task ≠ .plain →
      e'.waiter = some .ipc ∧ c.acts .ipc = [] := by
    intro e' he'
    refine h.served e' ?_
    rw [hentries]
    exact List.mem_cons_of_mem _ he'
  have hfree : ¬(c.acts .main ≠ [] ∨ c.status .main = .joining) := by
    rw [hnil, hrunning]
    simp
  have hcount := h.tickets
  rw [hentries] at hcount
  rcases hw : e.waiter with _ | w
  · refine ⟨h.lawful, hserved, fun hbusy => absurd hbusy hfree, fun u => ?_,
      fun hj => absurd (Or.inr hj) hfree⟩
    refine Eq.trans ?_ (hcount u)
    rw [List.countP_cons_of_neg (by simp [hw])]
    rfl
  · have hawait := awaiting_of_entry h (by simp [hentries]) hw
    have hmain : Function.update c.status w .running .main = .running := by
      rw [Function.update_apply, hrunning, ite_self]
    refine ⟨lawful_setRunning h w, hserved, fun hbusy => ?_, fun u => ?_, fun hj => ?_⟩
    · rcases hbusy with hne | hj
      · exact absurd hnil hne
      · cases hmain.symm.trans hj
    · -- The task of the waiter was the only one of its tasks.
      have hu := hcount u
      rw [List.countP_cons] at hu
      show c.mainQueue.countP _ = if Function.update c.status w .running u = .awaiting then 1 else 0
      by_cases hut : u = w
      · subst hut
        rw [hawait, if_pos rfl, hw, if_pos (by simp)] at hu
        rw [Function.update_self, if_neg (by simp)]
        exact Nat.succ.inj hu
      · rw [Function.update_of_ne hut, ← hu]
        simp [hw, Ne.symm hut]
    · cases hmain.symm.trans hj

/-- A thread has joined the worker. -/
theorem orderly_join (h : Orderly c) (hj : c.status t = .joining) :
    Orderly { setStatus c t .running with player := false } := by
  have htw : Thread.worker ≠ t := by
    rintro rfl
    have := ((h.lawful .worker).joining hj).2
    simp at this
  refine ⟨lawful_setRunning h t, h.served, fun hbusy => h.busy ?_, fun u => ?_, fun hjm => ?_⟩
  · by_cases htm : t = .main
    · subst htm
      exact Or.inr hj
    · refine hbusy.imp_right fun hjm => ?_
      simpa [setStatus, Function.update_of_ne (Ne.symm htm)] using hjm
  · refine (h.tickets u).trans ?_
    by_cases hut : u = t
    · subst hut
      simp [setStatus, hj]
    · simp [setStatus, Function.update_of_ne hut]
  · have htm : Thread.main ≠ t := by
      rintro rfl
      simp [setStatus] at hjm
    have hjc : c.status .main = .joining := by
      simpa [setStatus, Function.update_of_ne htm] using hjm
    exact quietWorker_of_eq (h.joins hjc) rfl (Function.update_of_ne htw _ _) rfl rfl rfl

/-- A step of a thread that is not idle. -/
theorem orderly_runActs (h : Orderly c)
    (hsafe : t = .main → ∀ rest, c.acts .main = .shutdownAndJoin :: rest → workerQuiet c = true)
    (hx : runActs c t = some c') : Orderly c' := by
  unfold runActs at hx
  rcases hs : c.status t with _ | _ | _
  · rw [hs] at hx
    rcases ha : c.acts t with _ | ⟨act, rest⟩
    · rw [ha] at hx
      cases hx
    · rw [ha] at hx
      refine orderly_exec h hs ha (fun htm hact => ?_) hx
      subst htm hact
      exact hsafe rfl rest ha
  · rw [hs] at hx
    cases hx
  · rw [hs] at hx
    dsimp only at hx
    split_ifs at hx
    cases hx
    exact orderly_join h hs

/-- The worker takes its next task, which stands before the one that stops it. -/
theorem quietWorker_take (h : QuietWorker c) {task : WorkerTask} {queue : List WorkerTask}
    (hstop : c.stopped ≠ true) (hqueue : c.workerQueue = task :: queue) (hne : task ≠ .shutdown)
    (hs : c.status .worker ≠ .awaiting) :
    QuietWorker { setActs c .worker task.acts with workerQueue := queue } := by
  obtain ⟨-, -, before, after, hsplit, hbefore⟩ := h.resolve_left hstop
  rw [hqueue] at hsplit
  rcases before with _ | ⟨first, before⟩
  · exact absurd (List.cons.inj hsplit).1 hne
  · obtain ⟨rfl, hrest⟩ := List.cons.inj hsplit
    refine Or.inr ⟨hs, fun a ha => ?_, before, after, hrest,
      fun b hb => hbefore b (List.mem_cons_of_mem _ hb)⟩
    refine hbefore task List.mem_cons_self a ?_
    simpa [setActs] using ha

/-- A task that is enqueued while the main thread joins the worker stands behind the one that stops
it. -/
theorem quietWorker_enqueue (h : QuietWorker c) (task : WorkerTask) :
    QuietWorker { c with workerQueue := c.workerQueue ++ [task] } := by
  rcases h with hstop | ⟨hs, hacts, before, after, hqueue, hbefore⟩
  · exact Or.inl hstop
  · refine Or.inr ⟨hs, hacts, before, after ++ [task], ?_, hbefore⟩
    simp [hqueue]

theorem orderly_worker (h : Orderly c) (hx : runThread c .worker = some c') : Orderly c' := by
  unfold runThread at hx
  dsimp only at hx
  split_ifs at hx with hstop hidle
  · have hrunning := (idle_iff.mp hidle).1
    rcases hqueue : c.workerQueue with _ | ⟨task, queue⟩
    · rw [hqueue] at hx
      cases hx
    · rw [hqueue] at hx
      by_cases hne : task = .shutdown
      · subst hne
        cases hx
        exact orderly_of_eq h rfl rfl rfl rfl rfl rfl fun _ => Or.inl rfl
      · have hx' : some { setActs c .worker task.acts with workerQueue := queue } = some c' := by
          cases task <;> first | exact hx | exact absurd rfl hne
        cases hx'
        refine orderly_begin h (by simp) hidle rfl rfl rfl rfl rfl rfl
          (fun a ha => (modest_workerTask ha).2) (fun _ a ha => (modest_workerTask ha).1) (by simp)
          fun hj => quietWorker_take (h.joins hj) hstop hqueue hne (by simp [hrunning])
  · exact orderly_runActs h (by simp) hx

/-- A task without a waiter that does not block is posted. -/
theorem orderly_post (h : Orderly c) :
    Orderly { c with mainQueue := c.mainQueue ++ [⟨.plain, none⟩] } := by
  have hentries : entries { c with mainQueue := c.mainQueue ++ [⟨.plain, none⟩] } =
      entries c ++ [⟨.plain, none⟩] := by
    simp [entries]
  refine ⟨h.lawful, fun e he htask => ?_, h.busy, fun u => ?_, h.joins⟩
  · rw [hentries] at he
    rcases List.mem_append.mp he with he | he
    · exact h.served e he htask
    · rw [List.mem_singleton.mp he] at htask
      exact absurd rfl htask
  · rw [hentries, List.countP_append, h.tickets u]
    simp

/-! ## Runs -/

/-- What the main thread does next does not wait for a thread that waits for it: a task that it
begins uses the decryption service only when there are no media keys, and it joins only a quiet
worker. -/
def safe (c : State) : Action → Bool
  | .run .main =>
    match c.current, c.mainQueue, c.acts .main with
    | none, entry :: _, _ => (entry.task.acts c.player).all (quiet c.mediaKeys)
    | some _, _, .shutdownAndJoin :: _ => workerQuiet c
    | _, _, _ => true
  | _ => true

theorem orderly_main (h : Orderly c) (hsafe : safe c (.run .main) = true)
    (hx : runThread c .main = some c') : Orderly c' := by
  unfold runThread at hx
  rcases hcur : c.current with _ | entry
  · rw [hcur] at hx
    rcases hqueue : c.mainQueue with _ | ⟨entry, queue⟩
    · rw [hqueue] at hx
      cases hx
    · rw [hqueue] at hx
      cases hx
      simp only [safe, hcur, hqueue, List.all_eq_true] at hsafe
      exact orderly_start h hcur hqueue hsafe rfl rfl rfl rfl rfl rfl
  · rw [hcur] at hx
    dsimp only at hx
    split_ifs at hx with hidle
    · cases hx
      exact orderly_finish h hcur hidle
    · refine orderly_runActs h (fun _ rest ha => ?_) hx
      simpa only [safe, hcur, ha] using hsafe

/-- **A safe step keeps the server orderly.** -/
theorem orderly_step (h : Orderly c) (hsafe : safe c a = true) (hx : step c a = some c') :
    Orderly c' := by
  cases a with
  | call operation =>
    simp only [step] at hx
    split_ifs at hx with hidle
    cases hx
    obtain ⟨hbegun, hsingle⟩ := begun_operation c operation
    exact orderly_begin h (by simp) hidle rfl rfl rfl rfl rfl rfl hbegun (by simp)
      (fun _ => hsingle)
      fun hj => quietWorker_of_eq (h.joins hj) rfl rfl (by simp [setActs]) rfl rfl
  | enqueueWorkerTask task =>
    simp only [step] at hx
    split_ifs at hx
    cases hx
    exact orderly_of_eq h rfl rfl rfl rfl rfl rfl fun hj => quietWorker_enqueue (h.joins hj) task
  | post =>
    cases hx
    exact orderly_post h
  | decryptBuffer more =>
    simp only [step] at hx
    split_ifs at hx with hidle
    cases hx
    have hacts : ∀ a ∈ decrypt more ++ decrementSessionIdUsageCounter more,
        modest a = true ∧ begun a = true := by
      intro a ha
      simp only [decrypt, decrementSessionIdUsageCounter, List.cons_append, List.nil_append,
        List.mem_cons, List.not_mem_nil, or_false, or_self] at ha
      rw [ha]
      exact ⟨rfl, rfl⟩
    exact orderly_begin h (by simp) hidle rfl rfl rfl rfl rfl rfl (fun a ha => (hacts a ha).2)
      (fun _ a ha => (hacts a ha).1) (by simp)
      fun hj => quietWorker_of_eq (h.joins hj) rfl rfl (by simp [setActs]) rfl rfl
  | freeBuffers buffers =>
    simp only [step] at hx
    split_ifs at hx with hidle
    cases hx
    exact orderly_begin h (by simp) hidle rfl rfl rfl rfl rfl rfl
      (fun a ha => (modest_unrefBuffers ha).2)
      (fun _ a ha => (modest_unrefBuffers ha).1) (by simp)
      fun hj => quietWorker_of_eq (h.joins hj) rfl rfl (by simp [setActs]) rfl rfl
  | run t =>
    cases t with
    | main => exact orderly_main h hsafe hx
    | ipc => exact orderly_runActs h (by simp) hx
    | worker => exact orderly_worker h hx
    | streaming => exact orderly_runActs h (by simp) hx

/-- **No circular wait.** In no state of a run of safe steps does a thread wait for itself, directly
or through others. -/
theorem no_circular_wait (h : Run step (fun c a => safe c a = true) init as c) :
    ¬Circular (waitsFor c) := by
  have horderly : Orderly c := by
    refine h.invariant Orderly ?_ orderly_init
    intro s a s' hs hsafe hstep
    exact orderly_step hs hsafe hstep
  exact not_circular_of_released (released_of_orderly horderly)

/-- The session is loaded, and the worker waits in a request for data. -/
def loadedAndAsked : List Action :=
  [.call (.load []), .run .ipc, .run .main, .run .main, .run .main,
    .enqueueWorkerTask (.needData true), .run .worker, .run .worker]

/-- Media keys are created while the worker asks the client for data: the worker and the IPC thread
wait for the main thread, the latter with the mutex held, and a streaming thread for the mutex. -/
theorem no_circular_wait_keys : ∃ c, Run step (fun c a => safe c a = true) init
    (loadedAndAsked ++ [.call (.createMediaKeys 1 true), .run .ipc, .run .ipc,
      .decryptBuffer 0]) c ∧
    waitsFor c .worker = some .main ∧ waitsFor c .ipc = some .main ∧
      waitsFor c .streaming = some .ipc ∧ ¬Circular (waitsFor c) := by
  refine Run.exists_of_runsIf
    (fun c => (waitsFor c .worker, waitsFor c .ipc, waitsFor c .streaming))
    (some .main, some .main, some .ipc) (by decide +kernel) fun c hrun hview => ?_
  simp only [Prod.mk.injEq] at hview
  obtain ⟨hworker, hipc, hstreaming⟩ := hview
  exact ⟨hworker, hipc, hstreaming, no_circular_wait hrun⟩

/-- The client loads a second time when the worker has taken the task that asks it for data: the
main thread joins the worker, and the worker waits for the main thread. -/
theorem second_load_deadlocks : ∃ c, Run step (fun _ _ => True) init
    [.call (.load []), .run .ipc, .run .main, .run .main, .run .main,
      .enqueueWorkerTask (.needData true), .run .worker, .call (.load []), .run .ipc, .run .main,
      .run .main, .run .worker] c ∧ Circular (waitsFor c) := by
  exact Run.exists_of_runs (fun c => (waitsFor c .main, waitsFor c .worker))
    (some .worker, some .main) (by decide +kernel) fun c _ hview =>
      circular_of_pair (Prod.mk.inj hview).1 (Prod.mk.inj hview).2

end Rialto.Server.CircularWait
