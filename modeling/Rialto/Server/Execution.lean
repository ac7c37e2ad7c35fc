import Rialto.Server.Waits

/-! # One act of a thread

* `orderly_of_acts`, `orderly_shutdownAndJoin`, `orderly_enqueue`: a thread executes an act after
  which it goes on, joins the worker, or waits for a task;
* `quietWorker_exec`: a worker that the main thread joins stays quiet;
* `orderly_exec`: one act keeps the server orderly, when the main thread joins only a quiet
  worker. -/

namespace Rialto.Server.Execution

open Rialto.Server.Threads Rialto.Server.Acts Rialto.Server.Waits

variable {c c' : State} {t u : Thread} {act : Act} {rest : List Act}

/-- Only the IPC thread changes the media keys, while it holds the mutex. -/
theorem lawful_other (h : Orderly c) (ha : c.acts t ≠ []) (hut : u ≠ t)
    (hother : c'.acts u = c.acts u ∧ c'.status u = c.status u ∧
      (c'.holder = some u ↔ c.holder = some u))
    (hk : c'.mediaKeys = c.mediaKeys ∨ t = .ipc ∧ c.holder = some .ipc) :
    Lawful c'.mediaKeys (holds c' u) u (c'.acts u) (c'.status u) := by
  obtain ⟨hacts, hstatus, hholder⟩ := hother
  have hl := h.lawful u
  rw [hacts, hstatus, holds_congr hholder]
  rcases hk with hk | ⟨ht, hipc⟩
  · rw [hk]
    exact hl
  · subst ht
    have hmain : c.acts .main = [] := by
      by_contra hne
      exact ha (ipc_of_busy h (Or.inl hne)).1
    refine ⟨hl.balanced, hl.joining, hl.modest, ?_, hl.single, ?_⟩
    · rintro rfl
      refine ⟨?_, (hl.main rfl).2⟩
      rw [hmain]
      simp
    · intro _ hheld
      have := of_decide_eq_true hheld
      rw [hipc] at this
      cases this
      exact absurd rfl hut

/-- An act of a thread that enqueues no task. -/
theorem orderly_of_thread (h : Orderly c) (hs : c.status t = .running) (ha : c.acts t ≠ [])
    (hother : ∀ u ≠ t, c'.acts u = c.acts u ∧ c'.status u = c.status u ∧
      (c'.holder = some u ↔ c.holder = some u))
    (hk : c'.mediaKeys = c.mediaKeys ∨ t = .ipc ∧ c.holder = some .ipc)
    (hcur : c'.current = c.current) (hq : c'.mainQueue = c.mainQueue)
    (hst : c'.status t ≠ .awaiting)
    (hnew : Lawful c'.mediaKeys (holds c' t) t (c'.acts t) (c'.status t))
    (hquiet : c'.status .main = .joining → QuietWorker c') : Orderly c' := by
  have hentries : entries c' = entries c := by
    unfold entries
    rw [hcur, hq]
  refine ⟨fun u => ?_, fun e he htask => ?_, fun hbusy => ?_, fun u => ?_, hquiet⟩
  · by_cases hut : u = t
    · subst hut
      exact hnew
    · exact lawful_other h ha hut (hother u hut) hk
  · rw [hentries] at he
    obtain ⟨hwaiter, hnil⟩ := h.served e he htask
    refine ⟨hwaiter, ?_⟩
    have hti : Thread.ipc ≠ t := by
      rintro rfl
      exact ha hnil
    rw [(hother .ipc hti).1]
    exact hnil
  · rw [hcur]
    refine h.busy ?_
    by_cases htm : Thread.main = t
    · subst htm
      exact Or.inl ha
    · obtain ⟨h1, h2, -⟩ := hother .main htm
      rwa [h1, h2] at hbusy
  · rw [hentries, h.tickets u]
    by_cases hut : u = t
    · subst hut
      rw [if_neg hst, hs, if_neg (by simp)]
    · rw [(hother u hut).2.1]

/-- A thread enqueues a task and waits for it. -/
theorem orderly_enqueue (h : Orderly c) {task : MainTask} (hs : c.status t = .running)
    (ha : c.acts t = .enqueueTaskAndWait task :: rest)
    (hacts : c'.acts = Function.update c.acts t rest)
    (hstatus : c'.status = Function.update c.status t .awaiting) (hholder : c'.holder = c.holder)
    (hk : c'.mediaKeys = c.mediaKeys) (hcur : c'.current = c.current)
    (hq : c'.mainQueue = c.mainQueue ++ [⟨task, some t⟩])
    (hquiet : c'.status .main = .joining → QuietWorker c') : Orderly c' := by
  have hne : c.acts t ≠ [] := by simp [ha]
  have hl := h.lawful t
  rw [ha, hs] at hl
  have htm : Thread.main ≠ t := by
    rintro rfl
    cases (hl.main rfl).1 _ List.mem_cons_self
  have hentries : entries c' = entries c ++ [⟨task, some t⟩] := by
    unfold entries
    rw [hcur, hq, List.append_assoc]
  refine ⟨fun u => ?_, fun e he htask => ?_, fun hbusy => ?_, fun u => ?_, hquiet⟩
  · by_cases hut : u = t
    · subst hut
      rw [hacts, hstatus, Function.update_self, Function.update_self, hk,
        holds_congr (c := c) (by rw [hholder])]
      refine hl.pop hl.balanced (by simp) (fun ht => absurd ht.symm htm) fun hti hh hempty => ?_
      cases (hl.holding hti hh hempty).2
    · refine lawful_other h hne hut ⟨?_, ?_, by rw [hholder]⟩ (Or.inl hk)
      · rw [hacts, Function.update_of_ne hut]
      · rw [hstatus, Function.update_of_ne hut]
  · rw [hentries] at he
    rcases List.mem_append.mp he with he | he
    · obtain ⟨hwaiter, hnil⟩ := h.served e he htask
      refine ⟨hwaiter, ?_⟩
      rw [hacts, Function.update_of_ne, hnil]
      rintro rfl
      exact hne hnil
    · obtain rfl := List.mem_singleton.mp he
      obtain rfl := hl.ipc_of_act fun k => by
        cases task <;> first | exact ⟨rfl, rfl⟩ | exact absurd rfl htask
      have hsingle := hl.single rfl _ List.mem_cons_self (decide_eq_true htask)
      rw [hacts, Function.update_self]
      exact ⟨rfl, (List.cons.inj hsingle).2⟩
  · rw [hacts, hstatus, Function.update_of_ne htm, Function.update_of_ne htm] at hbusy
    rw [hcur]
    exact h.busy hbusy
  · rw [hentries, List.countP_append, h.tickets u, hstatus]
    by_cases hut : u = t
    · subst hut
      simp [hs]
    · simp [Function.update_of_ne hut, Ne.symm hut]

/-- What an act of the worker or of the streaming thread leaves alone. -/
theorem exec_modest (hact : modest act = true) (hx : exec c t rest act = some c') :
    c'.stopped = c.stopped ∧ c'.workerQueue = c.workerQueue ∧ c'.mediaKeys = c.mediaKeys ∧
      ∀ u ≠ t, c'.acts u = c.acts u ∧ c'.status u = c.status u := by
  cases act with
  | lock body =>
    simp only [exec] at hx
    split_ifs at hx
    cases hx
    exact ⟨rfl, rfl, rfl, fun u hut => ⟨Function.update_of_ne hut _ _, rfl⟩⟩
  | unlock =>
    cases hx
    exact ⟨rfl, rfl, rfl, fun u hut => ⟨Function.update_of_ne hut _ _, rfl⟩⟩
  | lookup more =>
    cases hx
    exact ⟨rfl, rfl, rfl, fun u hut => ⟨Function.update_of_ne hut _ _, rfl⟩⟩
  | enqueueTaskAndWait task =>
    cases hx
    exact ⟨rfl, rfl, rfl,
      fun u hut => ⟨Function.update_of_ne hut _ _, Function.update_of_ne hut _ _⟩⟩
  | _ => cases hact

/-- A quiet act looks for no session among media keys, so that quiet acts are left. -/
theorem exec_quiet (hs : c.status t = .running) (hact : modest act = true)
    (hq : ∀ a ∈ act :: rest, quiet c.mediaKeys a = true) (hx : exec c t rest act = some c') :
    c'.status t ≠ .awaiting ∧ ∀ a ∈ c'.acts t, quiet c.mediaKeys a = true := by
  have hfirst := hq act List.mem_cons_self
  have hrest : ∀ a ∈ rest, quiet c.mediaKeys a = true :=
    fun a ha => hq a (List.mem_cons_of_mem _ ha)
  cases act with
  | lock body =>
    cases body <;> cases hact
    have hk : c.mediaKeys = [] := of_decide_eq_true hfirst
    simp only [exec] at hx
    split_ifs at hx
    cases hx
    refine ⟨by simp [setActs, hs], fun a ha => ?_⟩
    have ha : a = .unlock ∨ a ∈ rest := by
      simpa [setActs, Locked.acts, hasSessions, hk] using ha
    rcases ha with rfl | ha
    · rfl
    · exact hrest a ha
  | unlock =>
    cases hx
    exact ⟨by simp [setActs, hs], by simpa [setActs] using hrest⟩
  | lookup more =>
    have hk : c.mediaKeys = [] := of_decide_eq_true hfirst
    cases hx
    refine ⟨by simp [setActs, hs], fun a ha => hrest a ?_⟩
    simpa [setActs, hasSessions, hk] using ha
  | enqueueTaskAndWait task => cases hfirst
  | _ => cases hact

/-- An act of the worker or of the streaming thread keeps the worker quiet; the IPC thread has none
while the main thread joins the worker. -/
theorem quietWorker_exec (h : Orderly c) (hj : c.status .main = .joining)
    (hs : c.status t = .running) (ha : c.acts t = act :: rest)
    (hx : exec c t rest act = some c') : QuietWorker c' := by
  have hti : t ≠ .ipc := by
    rintro rfl
    rw [(ipc_of_busy h (Or.inr hj)).1] at ha
    cases ha
  have htm : t ≠ .main := by
    rintro rfl
    rw [hs] at hj
    cases hj
  have hmodest : t = .worker ∨ t = .streaming := by
    cases t <;> simp_all
  have hact : modest act = true := (h.lawful t).modest hmodest act (by simp [ha])
  obtain ⟨hstop, hqueue, hkeys, hother⟩ := exec_modest hact hx
  unfold QuietWorker
  rw [hstop, hqueue, hkeys]
  refine (h.joins hj).imp_right ?_
  rintro ⟨hw, hacts, hbefore⟩
  rcases hmodest with rfl | rfl
  · rw [ha] at hacts
    obtain ⟨hw', hacts'⟩ := exec_quiet hs hact hacts hx
    exact ⟨hw', hacts', hbefore⟩
  · obtain ⟨hacts', hstatus'⟩ := hother .worker (by simp)
    rw [hacts', hstatus']
    exact ⟨hw, hacts, hbefore⟩

/-- The worker has nothing to execute that waits for the main thread. -/
def workerQuiet (c : State) : Bool :=
  c.status .worker != .awaiting &&
    (c.acts .worker ++ c.workerQueue.flatMap WorkerTask.acts).all (quiet c.mediaKeys)

/-- An act after which the thread goes on at once. -/
theorem orderly_of_acts (h : Orderly c) (hs : c.status t = .running) (ha : c.acts t ≠ [])
    {new : List Act} (hacts : c'.acts = Function.update c.acts t new)
    (hstatus : c'.status = c.status)
    (hholder : ∀ u ≠ t, c'.holder = some u ↔ c.holder = some u)
    (hk : c'.mediaKeys = c.mediaKeys ∨ t = .ipc ∧ c.holder = some .ipc)
    (hcur : c'.current = c.current) (hq : c'.mainQueue = c.mainQueue)
    (hnew : Lawful c'.mediaKeys (holds c' t) t new .running)
    (hquiet : c.status .main = .joining → QuietWorker c') : Orderly c' := by
  refine orderly_of_thread h hs ha (fun u hut => ⟨?_, by rw [hstatus], hholder u hut⟩) hk hcur hq
    (by simp [hstatus, hs]) ?_ (by rwa [hstatus])
  · rw [hacts, Function.update_of_ne hut]
  · rw [hacts, hstatus, Function.update_self, hs]
    exact hnew

/-- The main thread, when the worker is quiet, or the IPC thread joins the worker. -/
theorem orderly_shutdownAndJoin (h : Orderly c) (hs : c.status t = .running)
    (ha : c.acts t = .shutdownAndJoin :: rest) (hsafe : t = .main → workerQuiet c = true) :
    Orderly { setStatus (setActs c t rest) t .joining with
      workerQueue := c.workerQueue ++ [.shutdown] } := by
  have hne : c.acts t ≠ [] := by simp [ha]
  have hl := h.lawful t
  rw [ha, hs] at hl
  have hfree : holds c t = false ∧ balanced false rest = true := by
    simpa [balanced] using hl.balanced
  have htm : t = .main ∨ t = .ipc := by
    cases t with
    | main => exact Or.inl rfl
    | ipc => exact Or.inr rfl
    | worker => cases hl.modest (Or.inl rfl) _ List.mem_cons_self
    | streaming => cases hl.modest (Or.inr rfl) _ List.mem_cons_self
  have hlaw : Lawful c.mediaKeys (holds c t) t (Function.update c.acts t rest t)
      (Function.update c.status t .joining t) := by
    rw [Function.update_self, Function.update_self]
    exact hl.pop (by rw [hfree.1]; exact hfree.2) (fun _ => ⟨hfree.1, htm⟩)
      (fun _ => ⟨rfl, by simp⟩) (by simp [hfree.1])
  refine orderly_of_thread h hs hne
    (fun u hut => ⟨Function.update_of_ne hut _ _, Function.update_of_ne hut _ _, Iff.rfl⟩)
    (Or.inl rfl) rfl rfl (by simp [setStatus]) hlaw fun hj => ?_
  by_cases htmain : t = .main
  · subst htmain
    have hq := hsafe rfl
    simp only [workerQuiet, Bool.and_eq_true, bne_iff_ne, List.all_eq_true, List.mem_append] at hq
    refine Or.inr ⟨?_, fun a ham => hq.2 a (Or.inl ?_), c.workerQueue, [], rfl,
      fun task ht a ham => hq.2 a (Or.inr (List.mem_flatMap.mpr ⟨task, ht, ham⟩))⟩
    · simpa [setStatus, setActs] using hq.1
    · simpa [setStatus, setActs] using ham
  · refine absurd (Or.inr ?_) fun hb => hne ((htm.resolve_left htmain) ▸ (ipc_of_busy h hb).1)
    simpa [setStatus, setActs, Function.update_of_ne (Ne.symm htmain)] using hj

/-- **One act keeps the server orderly**, when the main thread joins only a quiet worker. -/
theorem orderly_exec (h : Orderly c) (hs : c.status t = .running) (ha : c.acts t = act :: rest)
    (hsafe : t = .main → act = .shutdownAndJoin → workerQuiet c = true)
    (hx : exec c t rest act = some c') : Orderly c' := by
  have hne : c.acts t ≠ [] := by simp [ha]
  have hl := h.lawful t
  rw [ha, hs] at hl
  have hquiet : c.status .main = .joining → QuietWorker c' :=
    fun hj => quietWorker_exec h hj hs ha hx
  have hbal := hl.balanced
  have hbal' : ∀ {b : Bool}, (holds c t && b) = true → c.holder = some t ∧ b = true := by
    intro b hb
    rw [Bool.and_eq_true] at hb
    exact ⟨of_decide_eq_true hb.1, hb.2⟩
  cases act with
  | lock body =>
    simp only [exec] at hx
    split_ifs at hx with hfree
    cases hx
    refine orderly_of_acts h hs hne rfl rfl (fun u hut => ?_) (Or.inl rfl) rfl rfl ?_ hquiet
    · simp [hfree, Ne.symm hut]
    · rw [holds_of_eq rfl]
      exact hl.lock
  | unlock =>
    cases hx
    obtain ⟨hold, hrest⟩ := hbal' hbal
    refine orderly_of_acts h hs hne rfl rfl (fun u hut => ?_) (Or.inl rfl) rfl rfl ?_ hquiet
    · simp [hold, Ne.symm hut]
    · exact hl.pop hrest (by simp) (fun _ => ⟨rfl, by simp⟩) (by simp [holds])
  | lookup more =>
    cases hx
    exact orderly_of_acts h hs hne rfl rfl (fun _ _ => Iff.rfl) (Or.inl rfl) rfl rfl hl.lookup
      hquiet
  | createPlayer =>
    cases hx
    refine orderly_of_acts h hs hne rfl rfl (fun _ _ => Iff.rfl) (Or.inl rfl) rfl rfl ?_ hquiet
    exact hl.pop hbal (by simp) (fun _ => ⟨rfl, by simp⟩)
      fun hti hh hk => ⟨by simp, (hl.holding hti hh hk).2⟩
  | emplaceMediaKeys handle | eraseMediaKeys handle =>
    cases hx
    obtain rfl := hl.ipc_of_act fun k => ⟨rfl, rfl⟩
    obtain ⟨hold, hrest⟩ := hbal' hbal
    refine orderly_of_acts h hs hne rfl rfl (fun _ _ => Iff.rfl) (Or.inr ⟨rfl, hold⟩) rfl rfl ?_
      hquiet
    exact hl.pop hrest (by simp) (by simp) (by simp)
  | shutdownAndJoin =>
    cases hx
    exact orderly_shutdownAndJoin h hs ha fun htm => hsafe htm rfl
  | enqueueTaskAndWait task =>
    cases hx
    have htm : t ≠ .main := by
      rintro rfl
      cases (hl.main rfl).1 _ List.mem_cons_self
    refine orderly_enqueue h hs ha rfl rfl rfl rfl rfl rfl fun hj => hquiet ?_
    simpa [setStatus, setActs, Function.update_of_ne (Ne.symm htm)] using hj

end Rialto.Server.Execution
