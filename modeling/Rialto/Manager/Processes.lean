import Mathlib.Data.List.Forall2
import Mathlib.Data.List.Nodup
import Rialto.Lib.Runs
import Rialto.Manager.AppManager

/-! # The registries of the server manager and the processes

Over the steps of the server manager, the processes of the session servers that are running, and
what each request in progress has launched. A process may exit at any time. The destructor of
`SessionServerApp` waits for the process: to take a session server out of the map is one step with
the exit, and a session server that is not entered into the map is waited for under the lock. That
`waitpid` does not fail there is taken for granted.

* `step`: a step of the manager, or the exit of a process.
* `Agree`: where nothing is going on for an application, it is in both maps or in none; a failed
  launch has left the maps as they were; an application has one process at most.
* `Good`: the condition on the launch, the connection and the removal after a failure.
* `registries_agree`: runs whose steps meet it only reach states that agree.
* `launched_twice`: two requests for an application at once. -/

namespace Rialto.Manager.Processes

open Rialto.Lib.Runs
open Rialto.Manager.AppManager (Call Handling Outcome)

/-! ## Steps -/

/-- What an application has in `m_sessionServerApps` and in `m_clients`. -/
def registered (m : AppManager.State) (appId : String) : Option ℕ × Option ℕ :=
  (m.sessionServerApps appId, m.clients appId)

/-- The session server that a request has launched, and what its application had before. -/
structure Launch where
  number : ℕ
  before : Option ℕ × Option ℕ
  deriving DecidableEq

/-- A launch that has failed: what the request had launched and what it has removed, and what the
application had before and after. -/
structure Failure where
  launched : Option ℕ
  removed : Option ℕ
  before : Option ℕ × Option ℕ
  after : Option ℕ × Option ℕ
  deriving DecidableEq

/-- The manager with the running processes and the one that a destructor waits for under the lock;
`launches` goes with the requests in progress. -/
structure State where
  manager : AppManager.State
  processes : List (String × ℕ)
  waiting : Option ℕ
  launches : List (Option Launch)
  failures : List Failure

def init : State := ⟨AppManager.init, [], none, [], []⟩

def State.isRunning (s : State) (n : ℕ) : Bool := s.processes.any (·.2 == n)

/-- The sections under `m_sessionServerAppsMutex`. -/
def locksApps (m : AppManager.State) : AppManager.Act → Bool
  | .setSessionServerState _ _ => true
  | .proceed i _ =>
    match m.calls[i]? with
    | some (.adding _) | some (.launched _) | some (.failed _) => true
    | _ => false
  | .handle _ =>
    match m.handling with
    | some ⟨_, .cancelStartupTimer⟩ | some ⟨_, .configure⟩ | some ⟨_, .removeSessionServer⟩ => true
    | _ => false
  | .emit _ _ | .expire _ | .take => false

/-- The process of a session server that the handling of an event takes out of the map. -/
def awaited (m : AppManager.State) : AppManager.Act → Option ℕ
  | .handle _ =>
    match m.handling with
    | some ⟨e, .removeSessionServer⟩ => m.sessionServerApps e.appId
    | _ => none
  | _ => none

/-- No destructor waits for a process. -/
def enabled (s : State) (a : AppManager.Act) : Bool :=
  !(locksApps s.manager a && s.waiting.any s.isRunning) && !(awaited s.manager a).any s.isRunning

/-- What the request with the number `i` has launched. -/
def State.launch (s : State) (i : ℕ) : Option Launch := s.launches[i]?.join

/-- A section of a request. One that has failed to connect kills the process. -/
def State.proceed (s : State) (m : AppManager.State) (i : ℕ) (o : Outcome) : Call → State
  | .adding appId =>
    let n := s.manager.nextInstance
    let before := registered s.manager appId
    if o.succeeds then
      { s with
        manager := m
        processes := s.processes ++ [(appId, n)]
        waiting := if (s.manager.sessionServerApps appId).isSome then some n else none
        launches := s.launches.eraseIdx i ++ [some ⟨n, before⟩] }
    else
      { s with
        manager := m
        launches := s.launches.eraseIdx i
        failures := s.failures ++ [⟨none, none, before, registered m appId⟩] }
  | .launched _ => { s with manager := m, launches := s.launches.eraseIdx i ++ [s.launch i] }
  | .connecting _ _ =>
    { s with
      manager := m
      launches := (s.launches.eraseIdx i ++ [s.launch i]).take m.calls.length }
  | .failed appId =>
    let removed := s.manager.sessionServerApps appId
    { s with
      manager := m
      processes := s.processes.filter fun p => some p.2 ≠ removed
      launches := s.launches.eraseIdx i
      failures := s.failures ++ (s.launch i).toList.map fun launch =>
        ⟨some launch.number, removed, launch.before, registered m appId⟩ }
  | .changing _ _ => { s with manager := m, launches := s.launches.eraseIdx i }

/-- What a step of the manager, to the state `m`, does to the rest. -/
def State.record (s : State) (m : AppManager.State) : AppManager.Act → State
  | .setSessionServerState _ _ =>
    { s with manager := m, launches := (s.launches ++ [none]).take m.calls.length }
  | .proceed i o =>
    match s.manager.calls[i]? with
    | some call => s.proceed m i o call
    | none => { s with manager := m }
  | .emit _ _ | .expire _ | .take | .handle _ => { s with manager := m }

inductive Act
  | manager (a : AppManager.Act)
  | exit (n : ℕ)

def step (s : State) : Act → Option State
  | .manager a =>
    if enabled s a then (AppManager.step s.manager a).map fun m => s.record m a else none
  | .exit n =>
    if s.isRunning n then some { s with processes := s.processes.filter fun p => p.2 ≠ n }
    else none

/-! ## What is to hold, and when -/

/-- The application of a request. -/
def appOf : Call → String
  | .adding appId | .launched appId | .connecting appId _ | .failed appId | .changing appId _ =>
    appId

/-- The application of a request that has launched a session server. -/
def launching : Call → Option String
  | .launched appId | .connecting appId _ | .failed appId => some appId
  | .adding _ | .changing _ _ => none

/-- The handling of an event has removed the client of the application and is about to remove its
session server. -/
def Removing (m : AppManager.State) (appId : String) : Prop :=
  ∃ e, m.handling = some ⟨e, .removeSessionServer⟩ ∧ e.appId = appId

instance (m : AppManager.State) (appId : String) : Decidable (Removing m appId) :=
  decidable_of_iff (∃ h ∈ m.handling, h.next = .removeSessionServer ∧ h.event.appId = appId)
    ⟨fun ⟨⟨e, _⟩, hh, hnext, heq⟩ => ⟨e, hnext ▸ hh, heq⟩, fun ⟨_, hh, heq⟩ => ⟨_, hh, rfl, heq⟩⟩

/-- Nothing is going on for the application. -/
structure Quiet (m : AppManager.State) (appId : String) : Prop where
  queue : ∀ e ∈ m.queue, e.appId ≠ appId
  handling : ∀ h, m.handling = some h → h.event.appId ≠ appId
  calls : ∀ call ∈ m.calls, appOf call ≠ appId

/-- **What is to hold of a state.** -/
structure Agree (s : State) : Prop where
  registries : ∀ appId, Quiet s.manager appId →
    ((s.manager.sessionServerApps appId).isSome ↔ (s.manager.clients appId).isSome)
  failures : ∀ f ∈ s.failures, f.after = f.before ∧ (f.removed = none ∨ f.removed = f.launched)
  processes : (s.processes.map Prod.fst).Nodup

/-- **The condition on a step**: a session server is launched for an application that is not in the
map; a client is connected while the session server is in the map and is not being removed; and a
request that could not connect finds in the map what it has launched, with no client, or nothing. -/
def Good (s : State) : Act → Prop
  | .manager (.proceed i o) =>
    match s.manager.calls[i]? with
    | some (.adding appId) => o.succeeds = true → s.manager.sessionServerApps appId = none
    | some (.connecting appId (some _)) => o.succeeds = true → s.manager.clients appId = none →
        s.manager.sessionServerApps appId ≠ none ∧ ¬ Removing s.manager appId
    | some (.failed appId) => ∀ n ∈ s.manager.sessionServerApps appId,
        s.manager.clients appId = none ∧ (s.launch i).map Launch.number = some n
    | _ => True
  | _ => True

instance (s : State) (a : Act) : Decidable (Good s a) := by
  unfold Good
  split
  · split <;> infer_instance
  · infer_instance

/-! ## Sections of a request -/

section Sections

variable {m : AppManager.State} {appId : String} {o : Outcome}

theorem launch_fails (m : AppManager.State) (appId : String) (h : o.succeeds = false) :
    (AppManager.launch m appId o).sessionServerApps = m.sessionServerApps ∧
      (AppManager.launch m appId o).clients = m.clients ∧
      (AppManager.launch m appId o).calls = m.calls ∧
      (AppManager.launch m appId o).handling = m.handling := by
  cases hexpires : o.expires <;>
    simp [AppManager.launch, h, hexpires, AppManager.State.emit]

theorem launch_succeeds (h : o.succeeds = true) (happ : m.sessionServerApps appId = none) :
    (AppManager.launch m appId o).sessionServerApps =
        Function.update m.sessionServerApps appId (some m.nextInstance) ∧
      (AppManager.launch m appId o).clients = m.clients ∧
      (AppManager.launch m appId o).calls = m.calls ++ [Call.launched appId] ∧
      (AppManager.launch m appId o).handling = m.handling := by
  cases hexpires : o.expires <;>
    simp [AppManager.launch, h, happ, hexpires, AppManager.State.emit, AppManager.State.start]

theorem connect_cases (m : AppManager.State) (appId : String) (socket : Option ℕ)
    (succeeds : Bool) :
    (∃ n, socket = some n ∧ m.clients appId = none ∧ succeeds = true ∧
      AppManager.connect m appId socket succeeds =
        { m with clients := Function.update m.clients appId (some n) }) ∨
    AppManager.connect m appId socket succeeds = m.start (.failed appId) := by
  unfold AppManager.connect
  cases socket with
  | none => exact Or.inr rfl
  | some n =>
    by_cases h : ((m.clients appId).isNone && succeeds) = true
    · obtain ⟨hclient, hsucceeds⟩ := Bool.and_eq_true_iff.mp h
      exact Or.inl ⟨n, rfl, Option.isNone_iff_eq_none.mp hclient, hsucceeds, if_pos h⟩
    · exact Or.inr (if_neg h)

theorem kill_eq (m : AppManager.State) (appId : String) :
    (AppManager.killSessionServer m appId).sessionServerApps =
        Function.update m.sessionServerApps appId none ∧
      (AppManager.killSessionServer m appId).clients = m.clients ∧
      (AppManager.killSessionServer m appId).calls = m.calls ∧
      (AppManager.killSessionServer m appId).handling = m.handling := by
  unfold AppManager.killSessionServer
  cases happ : m.sessionServerApps appId with
  | none =>
    have heq := Function.update_eq_self appId m.sessionServerApps
    rw [happ] at heq
    exact ⟨heq.symm, rfl, rfl, rfl⟩
  | some n => exact ⟨rfl, rfl, rfl, rfl⟩

/-! ## Sections of the handling of an event -/

@[simp] theorem note_apps (g : Handling) (target : Option ℕ) (effect : AppManager.Effect) :
    (m.note g target effect).sessionServerApps = m.sessionServerApps := by cases target <;> rfl

@[simp] theorem note_clients (g : Handling) (target : Option ℕ) (effect : AppManager.Effect) :
    (m.note g target effect).clients = m.clients := by cases target <;> rfl

@[simp] theorem note_calls (g : Handling) (target : Option ℕ) (effect : AppManager.Effect) :
    (m.note g target effect).calls = m.calls := by cases target <;> rfl

theorem removeSessionServer_eq (e : AppManager.Event) (succeeds : Bool) :
    (AppManager.handleSection m ⟨e, .removeSessionServer⟩ succeeds).sessionServerApps =
        Function.update m.sessionServerApps e.appId none ∧
      (AppManager.handleSection m ⟨e, .removeSessionServer⟩ succeeds).clients = m.clients ∧
      (AppManager.handleSection m ⟨e, .removeSessionServer⟩ succeeds).calls = m.calls ∧
      (AppManager.handleSection m ⟨e, .removeSessionServer⟩ succeeds).handling =
        some ⟨e, .stateChanged⟩ := by
  simp only [AppManager.handleSection]
  cases happ : m.sessionServerApps e.appId with
  | none =>
    have heq := Function.update_eq_self e.appId m.sessionServerApps
    rw [happ] at heq
    exact ⟨heq.symm, rfl, rfl, rfl⟩
  | some n => exact ⟨note_apps .., note_clients .., note_calls .., rfl⟩

end Sections

/-! ## The invariant -/

/-- What goes with a request: nothing was there for its application before it launched. -/
def Fits (call : Call) (launch : Option Launch) : Prop :=
  (launching call).isSome → ∃ l, launch = some l ∧ l.before = (none, none)

/-- **The invariant.** A client has a session server, and a session server a client unless its
request has not finished or it is being removed; a running process is that of the map. -/
structure Inv (s : State) : Prop where
  launches : List.Forall₂ Fits s.manager.calls s.launches
  client : ∀ appId n, s.manager.clients appId = some n →
    s.manager.sessionServerApps appId ≠ none ∧ ¬ Removing s.manager appId
  app : ∀ appId n, s.manager.sessionServerApps appId = some n →
    s.manager.clients appId ≠ none ∨ Removing s.manager appId ∨
      ∃ call ∈ s.manager.calls, launching call = some appId
  process : ∀ p ∈ s.processes, s.manager.sessionServerApps p.1 = some p.2
  nodup : (s.processes.map Prod.fst).Nodup
  failures : ∀ f ∈ s.failures, f.after = f.before ∧ (f.removed = none ∨ f.removed = f.launched)

theorem inv_init : Inv init where
  launches := List.Forall₂.nil
  client := fun _ _ h => by cases h
  app := fun _ _ h => by cases h
  process := fun _ h => by cases h
  nodup := List.nodup_nil
  failures := fun _ h => by cases h

theorem Inv.agree {s : State} (h : Inv s) : Agree s where
  registries := by
    intro appId hquiet
    rw [Option.isSome_iff_ne_none, Option.isSome_iff_ne_none]
    constructor
    · intro happ
      obtain ⟨n, hn⟩ := Option.ne_none_iff_exists'.mp happ
      rcases h.app appId n hn with hclient | ⟨e, he, heq⟩ | ⟨call, hcall, heq⟩
      · exact hclient
      · exact absurd heq (hquiet.handling _ he)
      · refine absurd ?_ (hquiet.calls call hcall)
        cases call <;> cases heq <;> rfl
    · intro hclient
      obtain ⟨n, hn⟩ := Option.ne_none_iff_exists'.mp hclient
      exact (h.client appId n hn).1
  failures := h.failures
  processes := h.nodup

/-! ## Lists side by side -/

section Lists

variable {α β : Type*} {R : α → β → Prop} {l : List α} {l' : List β}

theorem forall₂_eraseIdx (h : List.Forall₂ R l l') :
    ∀ i, List.Forall₂ R (l.eraseIdx i) (l'.eraseIdx i) := by
  induction h with
  | nil => exact fun _ => List.Forall₂.nil
  | cons hab hrest ih =>
    intro i
    cases i with
    | zero => exact hrest
    | succ i => exact List.Forall₂.cons hab (ih i)

theorem forall₂_concat {a : α} {b : β} (h : List.Forall₂ R l l') (hab : R a b) :
    List.Forall₂ R (l ++ [a]) (l' ++ [b]) :=
  List.rel_append h (List.Forall₂.cons hab List.Forall₂.nil)

theorem forall₂_getElem? (h : List.Forall₂ R l l') :
    ∀ {i : ℕ} {a : α}, l[i]? = some a → ∃ b, l'[i]? = some b ∧ R a b := by
  induction h with
  | nil => exact fun ha => by cases ha
  | cons hab _ ih =>
    intro i a ha
    cases i with
    | zero =>
      cases ha
      exact ⟨_, rfl, hab⟩
    | succ i => exact ih ha

end Lists

/-! ## The steps of a request -/

section Steps

variable {s : State} {m : AppManager.State} {i : ℕ} {o : Outcome} {appId : String} {call : Call}

/-- A request that goes on keeps what goes with it. -/
theorem Inv.fits (h : Inv s) (hcall : s.manager.calls[i]? = some call) :
    Fits call (s.launch i) := by
  obtain ⟨launch, hlaunch, hfits⟩ := forall₂_getElem? h.launches hcall
  rw [State.launch, hlaunch]
  exact hfits

/-- The requests for another application are still there. -/
theorem pending_eraseIdx {calls : List Call} (hcall : calls[i]? = some call)
    (hne : launching call ≠ some appId) (h : ∃ c ∈ calls, launching c = some appId) :
    ∃ c ∈ calls.eraseIdx i, launching c = some appId := by
  obtain ⟨c, hc, heq⟩ := h
  refine ⟨c, List.mem_eraseIdx_iff_getElem?.mpr ?_, heq⟩
  obtain ⟨j, hj⟩ := List.mem_iff_getElem?.mp hc
  refine ⟨j, fun hji => ?_, hj⟩
  rw [hji] at hj
  cases hcall.symm.trans hj
  exact hne heq

theorem removing_congr {m m' : AppManager.State} (h : m'.handling = m.handling) :
    Removing m' appId ↔ Removing m appId := by
  rw [Removing, Removing, h]

/-- The manager without a request. -/
def without (m : AppManager.State) (i : ℕ) : AppManager.State :=
  { m with calls := m.calls.eraseIdx i }

/-- Neither map changes, and no request is lost that has launched something. -/
theorem Inv.same (h : Inv s) {launches : List (Option Launch)} {failures : List Failure}
    (happs : m.sessionServerApps = s.manager.sessionServerApps)
    (hclients : m.clients = s.manager.clients)
    (hremoving : ∀ a, Removing m a ↔ Removing s.manager a)
    (hpending : ∀ a, (∃ c ∈ s.manager.calls, launching c = some a) →
      ∃ c ∈ m.calls, launching c = some a)
    (hlaunches : List.Forall₂ Fits m.calls launches)
    (hfailures : ∀ f ∈ failures,
      f.after = f.before ∧ (f.removed = none ∨ f.removed = f.launched)) :
    Inv { s with manager := m, launches, failures } where
  launches := hlaunches
  client := by
    intro a n
    rw [hclients, happs, hremoving]
    exact h.client a n
  app := by
    intro a n
    rw [hclients, happs, hremoving]
    exact fun hn => (h.app a n hn).imp_right fun hr => hr.imp_right (hpending a)
  process := by
    intro p
    rw [happs]
    exact h.process p
  nodup := h.nodup
  failures := hfailures

/-- The launch. -/
theorem Inv.adding (h : Inv s) (hcall : s.manager.calls[i]? = some (.adding appId))
    (hgood : o.succeeds = true → s.manager.sessionServerApps appId = none) :
    Inv (s.proceed (AppManager.launch (without s.manager i) appId o) i o (.adding appId)) := by
  have hpending : ∀ a, (∃ c ∈ s.manager.calls, launching c = some a) →
      ∃ c ∈ s.manager.calls.eraseIdx i, launching c = some a := fun a =>
    pending_eraseIdx hcall fun heq => by cases heq
  cases hsucceeds : o.succeeds with
  | false =>
    obtain ⟨happs, hclients, hcalls, hhandling⟩ :=
      launch_fails (without s.manager i) appId hsucceeds
    simp only [State.proceed, hsucceeds, Bool.false_eq_true, if_false]
    refine h.same happs hclients (fun a => removing_congr hhandling) ?_ ?_ fun f hf => ?_
    · rw [hcalls]
      exact hpending
    · rw [hcalls]
      exact forall₂_eraseIdx h.launches i
    · rcases List.mem_append.mp hf with hf | hf
      · exact h.failures f hf
      · cases List.mem_singleton.mp hf
        refine ⟨?_, Or.inl rfl⟩
        simp only [registered, happs, hclients]
        rfl
  | true =>
    have hnone := hgood hsucceeds
    obtain ⟨happs, hclients, hcalls, hhandling⟩ :=
      launch_succeeds (m := without s.manager i) hsucceeds hnone
    have hclient : s.manager.clients appId = none := by
      by_contra hne
      obtain ⟨n, hn⟩ := Option.ne_none_iff_exists'.mp hne
      exact (h.client appId n hn).1 hnone
    have hother : ∀ p ∈ s.processes, p.1 ≠ appId := by
      intro p hp heq
      have hsome := h.process p hp
      rw [heq, hnone] at hsome
      cases hsome
    simp only [State.proceed, hsucceeds, if_true]
    refine ⟨?_, fun a n hn => ?_, fun a n hn => ?_, fun p hp => ?_, ?_, h.failures⟩
    · rw [hcalls]
      refine forall₂_concat (forall₂_eraseIdx h.launches i) fun _ => ⟨_, rfl, ?_⟩
      simp only [registered, hnone, hclient]
    · rw [hclients] at hn
      rw [happs, removing_congr hhandling]
      obtain ⟨ha, hr⟩ := h.client a n hn
      refine ⟨?_, hr⟩
      rw [Function.update_apply]
      split_ifs
      · exact Option.some_ne_none _
      · exact ha
    · rw [happs] at hn
      rw [hclients, removing_congr hhandling, hcalls]
      by_cases ha : a = appId
      · exact Or.inr (Or.inr ⟨_, List.mem_append_right _ (List.mem_singleton_self _), ha ▸ rfl⟩)
      · rw [Function.update_of_ne ha] at hn
        refine (h.app a n hn).imp_right fun hr => hr.imp_right fun hp => ?_
        obtain ⟨c, hc, heq⟩ := hpending a hp
        exact ⟨c, List.mem_append_left _ hc, heq⟩
    · rw [happs]
      rcases List.mem_append.mp hp with hp | hp
      · rw [Function.update_of_ne (hother p hp)]
        exact h.process p hp
      · cases List.mem_singleton.mp hp
        exact Function.update_self ..
    · rw [List.map_append, List.nodup_append]
      refine ⟨h.nodup, List.nodup_singleton _, fun a ha b hb => ?_⟩
      obtain ⟨p, hp, rfl⟩ := List.mem_map.mp ha
      cases List.mem_singleton.mp hb
      exact hother p hp

/-- A request goes on with another section. -/
theorem Inv.goOn (h : Inv s) {next : Call} (hcall : s.manager.calls[i]? = some call)
    (hnext : launching next = launching call) :
    Inv { s with
      manager := (without s.manager i).start next
      launches := s.launches.eraseIdx i ++ [s.launch i] } := by
  refine h.same rfl rfl (fun _ => Iff.rfl) (fun a hp => ?_) ?_ h.failures
  · by_cases ha : launching call = some a
    · exact ⟨next, List.mem_append_right _ (List.mem_singleton_self _), hnext.trans ha⟩
    · obtain ⟨c, hc, heq⟩ := pending_eraseIdx hcall ha hp
      exact ⟨c, List.mem_append_left _ hc, heq⟩
  · refine forall₂_concat (forall₂_eraseIdx h.launches i) ?_
    rw [Fits, hnext]
    exact h.fits hcall

/-- The connection. -/
theorem Inv.connecting (h : Inv s) {socket : Option ℕ}
    (hcall : s.manager.calls[i]? = some (.connecting appId socket))
    (hgood : ∀ n, socket = some n → o.succeeds = true → s.manager.clients appId = none →
      s.manager.sessionServerApps appId ≠ none ∧ ¬ Removing s.manager appId) :
    Inv (s.proceed (AppManager.connect (without s.manager i) appId socket o.succeeds) i o
      (.connecting appId socket)) := by
  have hlength : s.launches.length = s.manager.calls.length := h.launches.length_eq.symm
  have hi : i < s.manager.calls.length := (List.getElem?_eq_some_iff.mp hcall).1
  rcases connect_cases (without s.manager i) appId socket o.succeeds with
    ⟨n, rfl, hclient, hsucceeds, heq⟩ | heq
  · have htake : (s.launches.eraseIdx i ++ [s.launch i]).take (s.manager.calls.eraseIdx i).length =
        s.launches.eraseIdx i := by
      refine List.take_left' ?_
      rw [List.length_eraseIdx, List.length_eraseIdx, hlength]
    obtain ⟨happ, hremoving⟩ := hgood n rfl hsucceeds hclient
    simp only [State.proceed, heq]
    refine ⟨?_, fun a k hk => ?_, fun a k hk => ?_, h.process, h.nodup, h.failures⟩
    · simp only [without, htake]
      exact forall₂_eraseIdx h.launches i
    · by_cases ha : a = appId
      · subst ha
        exact ⟨happ, hremoving⟩
      · simp only [Function.update_of_ne ha] at hk
        exact h.client a k hk
    · by_cases ha : a = appId
      · refine Or.inl ?_
        simp only [ha, Function.update_self]
        exact Option.some_ne_none _
      · simp only [Function.update_of_ne ha]
        have hne : launching (.connecting appId (some n)) ≠ some a := fun heq =>
          ha (Option.some.inj heq).symm
        exact (h.app a k hk).imp_right fun hr => hr.imp_right (pending_eraseIdx hcall hne)
  · have htake : (s.launches.eraseIdx i ++ [s.launch i]).take
        ((without s.manager i).start (.failed appId)).calls.length =
          s.launches.eraseIdx i ++ [s.launch i] := by
      refine List.take_of_length_le (Nat.le_of_eq ?_)
      simp only [without, AppManager.State.start, List.length_append, List.length_eraseIdx, hlength,
        List.length_singleton]
    simp only [State.proceed, heq, htake]
    exact h.goOn hcall rfl

/-- The removal after a failure. -/
theorem Inv.failed (h : Inv s) (hcall : s.manager.calls[i]? = some (.failed appId))
    (hgood : ∀ n, s.manager.sessionServerApps appId = some n →
      s.manager.clients appId = none ∧ (s.launch i).map Launch.number = some n) :
    Inv (s.proceed (AppManager.killSessionServer (without s.manager i) appId) i o
      (.failed appId)) := by
  obtain ⟨happs, hclients, hcalls, hhandling⟩ := kill_eq (without s.manager i) appId
  obtain ⟨launch, hlaunch, hbefore⟩ := h.fits hcall rfl
  have hclient : s.manager.clients appId = none := by
    by_contra hne
    obtain ⟨n, hn⟩ := Option.ne_none_iff_exists'.mp hne
    obtain ⟨k, hk⟩ := Option.ne_none_iff_exists'.mp (h.client appId n hn).1
    exact hne (hgood k hk).1
  refine ⟨?_, fun a n hn => ?_, fun a n hn => ?_, fun p hp => ?_, ?_, fun f hf => ?_⟩
  · simp only [State.proceed, hcalls]
    exact forall₂_eraseIdx h.launches i
  · simp only [State.proceed, hclients] at hn
    have ha : a ≠ appId := fun heq => by
      rw [heq] at hn
      cases hclient.symm.trans hn
    simp only [State.proceed, happs, Function.update_of_ne ha, removing_congr hhandling]
    exact h.client a n hn
  · simp only [State.proceed, happs] at hn
    by_cases ha : a = appId
    · rw [ha, Function.update_self] at hn
      cases hn
    · rw [Function.update_of_ne ha] at hn
      simp only [State.proceed, hclients, hcalls, removing_congr hhandling]
      have hne : launching (.failed appId) ≠ some a := fun heq => ha (Option.some.inj heq).symm
      exact (h.app a n hn).imp_right fun hr => hr.imp_right (pending_eraseIdx hcall hne)
  · obtain ⟨hp, hne⟩ := List.mem_filter.mp hp
    have happ := h.process p hp
    have ha : p.1 ≠ appId := fun heq => by
      rw [heq] at happ
      exact of_decide_eq_true hne happ.symm
    simp only [State.proceed, happs, Function.update_of_ne ha]
    exact happ
  · exact h.nodup.sublist (List.filter_sublist.map Prod.fst)
  · rcases List.mem_append.mp hf with hf | hf
    · exact h.failures f hf
    · rw [hlaunch] at hf
      cases List.mem_singleton.mp hf
      refine ⟨?_, ?_⟩
      · simp only [registered, happs, hclients, Function.update_self, hbefore]
        rw [show (without s.manager i).clients appId = none from hclient]
      · cases happ : s.manager.sessionServerApps appId with
        | none => exact Or.inl rfl
        | some n =>
          have hnumber := (hgood n happ).2
          rw [hlaunch] at hnumber
          exact Or.inr hnumber.symm

/-- A request begins. -/
theorem Inv.setSessionServerState (h : Inv s) (appId : String)
    (newState : Rialto.Service.SessionServer.SessionServerState) :
    Inv (s.record (AppManager.setSessionServerState s.manager appId newState)
      (.setSessionServerState appId newState)) := by
  have hlength : s.launches.length = s.manager.calls.length := h.launches.length_eq.symm
  -- a request that has launched nothing yet, with `none` beside it
  have hstart : ∀ call, launching call = none → Inv { s with
      manager := s.manager.start call
      launches := (s.launches ++ [none]).take (s.manager.start call).calls.length } := by
    intro call hcall
    have htake : (s.launches ++ [none]).take (s.manager.start call).calls.length =
        s.launches ++ [none] := by
      refine List.take_of_length_le (Nat.le_of_eq ?_)
      simp only [AppManager.State.start, List.length_append, hlength, List.length_singleton]
    rw [htake]
    refine h.same rfl rfl (fun _ => Iff.rfl) (fun a ⟨c, hc, heq⟩ => ?_) ?_ h.failures
    · exact ⟨c, List.mem_append_left _ hc, heq⟩
    · refine forall₂_concat h.launches fun hsome => ?_
      rw [hcall] at hsome
      cases hsome
  simp only [State.record, AppManager.setSessionServerState]
  split_ifs
  · exact hstart _ rfl
  · exact hstart _ rfl
  · have htake : (s.launches ++ [none]).take s.manager.calls.length = s.launches :=
      List.take_left' hlength
    rw [htake]
    exact h

theorem Inv.proceed (h : Inv s) (hgood : Good s (.manager (.proceed i o)))
    (hcall : s.manager.calls[i]? = some call) :
    Inv (s.proceed (AppManager.resume (without s.manager i) o call) i o call) := by
  simp only [Good, hcall] at hgood
  cases call with
  | adding appId => exact h.adding hcall hgood
  | launched appId => exact h.goOn hcall rfl
  | connecting appId socket =>
    refine h.connecting hcall fun n hn => ?_
    subst hn
    exact hgood
  | failed appId => exact h.failed hcall hgood
  | changing appId newState =>
    refine h.same rfl rfl (fun _ => Iff.rfl) (fun a => ?_) ?_ h.failures
    · exact pending_eraseIdx hcall fun heq => by cases heq
    · exact forall₂_eraseIdx h.launches i

/-! ## The handling of an event -/

/-- The handling is somewhere where it removes nothing, before and after. -/
theorem Inv.elsewhere (h : Inv s) (happs : m.sessionServerApps = s.manager.sessionServerApps)
    (hclients : m.clients = s.manager.clients) (hcalls : m.calls = s.manager.calls)
    (hbefore : ∀ e, s.manager.handling ≠ some ⟨e, .removeSessionServer⟩)
    (hafter : ∀ e, m.handling ≠ some ⟨e, .removeSessionServer⟩) :
    Inv { s with manager := m } := by
  refine h.same happs hclients (fun a => ?_) (fun a hp => ?_) ?_ h.failures
  · exact ⟨fun ⟨e, he, _⟩ => absurd he (hafter e), fun ⟨e, he, _⟩ => absurd he (hbefore e)⟩
  · rw [hcalls]
    exact hp
  · rw [hcalls]
    exact h.launches

/-- One section of `handleSessionServerStateChange`. -/
theorem Inv.handle (h : Inv s) {g : Handling} {succeeds : Bool}
    (hg : s.manager.handling = some g)
    (henabled : enabled s (.handle succeeds) = true) :
    Inv { s with manager := AppManager.handleSection s.manager g succeeds } := by
  obtain ⟨e, next⟩ := g
  have hbefore : next ≠ .removeSessionServer →
      ∀ e', s.manager.handling ≠ some ⟨e', .removeSessionServer⟩ := by
    intro hne e' he'
    cases hg.symm.trans he'
    exact hne rfl
  cases next with
  | cancelStartupTimer =>
    refine h.elsewhere ?_ ?_ ?_ (hbefore fun h => by cases h) fun e' h => by cases h
    all_goals
      simp only [AppManager.handleSection]
      cases s.manager.sessionServerApps e.appId <;> simp
  | configure =>
    simp only [AppManager.handleSection]
    split_ifs
    · exact h.elsewhere (note_apps ..) (note_clients ..) (note_calls ..)
        (hbefore fun h => by cases h) fun e' h => by cases h
    · exact h.elsewhere rfl rfl rfl (hbefore fun h => by cases h) fun e' h => by cases h
  | removeClient =>
    simp only [AppManager.handleSection]
    refine ⟨?_, fun a n hn => ?_, fun a n hn => ?_, fun p hp => ?_, h.nodup, h.failures⟩
    · simp only [note_calls]
      exact h.launches
    · have ha : a ≠ e.appId := fun heq => by simp [heq] at hn
      simp only [Function.update_of_ne ha] at hn
      refine ⟨?_, ?_⟩
      · simp only [note_apps]
        exact (h.client a n hn).1
      · rintro ⟨e', he', heq⟩
        cases he'
        exact ha heq.symm
    · simp only [note_apps] at hn
      by_cases ha : a = e.appId
      · exact Or.inr (Or.inl ⟨e, rfl, ha.symm⟩)
      · simp only [Function.update_of_ne ha, note_calls]
        rcases h.app a n hn with hclient | ⟨e', he', -⟩ | hp
        · exact Or.inl hclient
        · exact absurd he' (hbefore (fun h => by cases h) e')
        · exact Or.inr (Or.inr hp)
    · simp only [note_apps]
      exact h.process p hp
  | removeSessionServer =>
    have hremoving : Removing s.manager e.appId := ⟨e, hg, rfl⟩
    have hexited : ∀ p ∈ s.processes, p.1 ≠ e.appId := by
      intro p hp heq
      have happ := h.process p hp
      rw [heq] at happ
      simp only [enabled, awaited, hg, happ, Option.any_some, Bool.and_eq_true,
        Bool.not_eq_true', State.isRunning, List.any_eq_false, beq_iff_eq] at henabled
      exact henabled.2 p hp rfl
    obtain ⟨happs, hclients, hcalls, hhandling⟩ :=
      removeSessionServer_eq (m := s.manager) e succeeds
    refine ⟨?_, fun a n hn => ?_, fun a n hn => ?_, fun p hp => ?_, h.nodup, h.failures⟩
    · rw [hcalls]
      exact h.launches
    · rw [hclients] at hn
      obtain ⟨happ, hnot⟩ := h.client a n hn
      have ha : a ≠ e.appId := fun heq => hnot (heq ▸ hremoving)
      rw [happs, Function.update_of_ne ha]
      refine ⟨happ, ?_⟩
      rintro ⟨e', he', -⟩
      cases hhandling.symm.trans he'
    · rw [happs] at hn
      by_cases ha : a = e.appId
      · rw [ha, Function.update_self] at hn
        cases hn
      · rw [Function.update_of_ne ha] at hn
        rw [hclients, hcalls]
        rcases h.app a n hn with hclient | ⟨e', he', heq⟩ | hp
        · exact Or.inl hclient
        · cases hg.symm.trans he'
          exact absurd heq.symm ha
        · exact Or.inr (Or.inr hp)
    · rw [happs, Function.update_of_ne (hexited p hp)]
      exact h.process p hp
  | stateChanged =>
    exact h.elsewhere (note_apps ..) (note_clients ..) (note_calls ..)
      (hbefore fun h => by cases h) fun e' h => by cases h

/-! ## Runs -/

theorem Inv.exit (h : Inv s) (n : ℕ) :
    Inv { s with processes := s.processes.filter fun p => p.2 ≠ n } where
  launches := h.launches
  client := h.client
  app := h.app
  process := fun p hp => h.process p (List.mem_of_mem_filter hp)
  nodup := h.nodup.sublist (List.filter_sublist.map Prod.fst)
  failures := h.failures

/-- What an event does that is put into the queue. -/
theorem Inv.emit (h : Inv s) (happs : m.sessionServerApps = s.manager.sessionServerApps)
    (hclients : m.clients = s.manager.clients) (hcalls : m.calls = s.manager.calls)
    (hhandling : m.handling = s.manager.handling) : Inv { s with manager := m } := by
  refine h.same happs hclients (fun a => removing_congr hhandling) (fun a hp => ?_) ?_ h.failures
  · rw [hcalls]
    exact hp
  · rw [hcalls]
    exact h.launches

/-- **Every step that meets the condition keeps the invariant.** -/
theorem inv_step {t : State} {a : Act} (h : Inv s) (hgood : Good s a) (hstep : step s a = some t) :
    Inv t := by
  cases a with
  | exit n =>
    simp only [step] at hstep
    split_ifs at hstep
    cases hstep
    exact h.exit n
  | manager a =>
    simp only [step] at hstep
    split_ifs at hstep with henabled
    obtain ⟨m, hm, rfl⟩ := Option.map_eq_some_iff.mp hstep
    cases a with
    | setSessionServerState appId newState =>
      cases hm
      exact h.setSessionServerState appId newState
    | proceed i o =>
      simp only [AppManager.step] at hm
      cases hcall : s.manager.calls[i]? with
      | none =>
        rw [hcall] at hm
        cases hm
      | some call =>
        rw [hcall] at hm
        cases hm
        simp only [State.record, hcall]
        exact h.proceed hgood hcall
    | emit appId newState =>
      simp only [AppManager.step] at hm
      cases hclient : s.manager.clients appId with
      | none =>
        rw [hclient] at hm
        cases hm
      | some n =>
        rw [hclient] at hm
        cases hm
        exact h.emit rfl rfl rfl rfl
    | expire appId =>
      simp only [AppManager.step] at hm
      cases happ : s.manager.sessionServerApps appId with
      | none =>
        rw [happ] at hm
        cases hm
      | some n =>
        rw [happ] at hm
        simp only at hm
        split_ifs at hm
        cases hm
        exact h.emit rfl rfl rfl rfl
    | take =>
      simp only [AppManager.step] at hm
      split at hm
      · next e rest hhandling hqueue =>
        cases hm
        refine h.elsewhere rfl rfl rfl (fun e' he' => ?_) fun e' he' => ?_
        · cases hhandling.symm.trans he'
        · have hfirst : AppManager.firstPart e.newState = .removeSessionServer :=
            congrArg Handling.next (Option.some.inj he')
          cases hstate : e.newState <;> rw [hstate] at hfirst <;> cases hfirst
      · cases hm
    | handle succeeds =>
      simp only [AppManager.step] at hm
      cases hg : s.manager.handling with
      | none =>
        rw [hg] at hm
        cases hm
      | some g =>
        rw [hg] at hm
        cases hm
        exact h.handle hg henabled

end Steps

/-- **The registries and the processes agree.** -/
theorem registries_agree {as : List Act} {u : State} (h : Run step Good init as u) : Agree u :=
  (h.invariant Inv (fun _ _ _ hs hgood hstep => inv_step hs hgood hstep) inv_init).agree

/-! ## Two runs -/

/-- Every call in a section succeeds, and there is no startup timer. -/
def succeeding : Outcome := ⟨true, false, false⟩

/-- The section of the first request that is in progress. -/
def proceeding (o : Outcome) : Act := .manager (.proceed 0 o)

def requesting : Act := .manager (.setSessionServerState "app" .active)

def handling : Act := .manager (.handle true)

/-- A session server is launched, its client is not connected, and it is killed; another one is
launched and connected, reports that it is not running, exits, and is removed. -/
theorem registries_agree_again : ∃ u, Run step Good init
      [requesting, proceeding succeeding, proceeding succeeding,
        proceeding { succeeding with succeeds := false }, proceeding succeeding,
        requesting, proceeding succeeding, proceeding succeeding, proceeding succeeding,
        .manager (.emit "app" .notRunning), .manager .take, handling, .exit 1, handling,
        handling] u ∧
    (u.processes, u.failures) = ([], [⟨some 0, some 0, (none, none), (none, none)⟩]) ∧ Agree u :=
  Run.exists_of_runsIf (fun u => (u.processes, u.failures)) _ (by decide +kernel)
    fun _ hrun hu => ⟨hu, registries_agree hrun⟩

/-- Two requests that both find that the application is not launched: two processes. -/
theorem launched_twice : ¬ ∀ as u, Run step (fun _ _ => True) init as u → Agree u := by
  intro hall
  obtain ⟨u, hrun, hu⟩ : ∃ u, Run step (fun _ _ => True) init
      [requesting, requesting, proceeding succeeding, proceeding succeeding] u ∧
      u.processes = [("app", 0), ("app", 1)] :=
    Run.exists_of_runs State.processes _ (by decide +kernel) fun _ _ hu => hu
  have hnodup := (hall _ u hrun).processes
  rw [hu] at hnodup
  exact absurd hnodup (by decide)

end Rialto.Manager.Processes
