import Rialto.Lib.Runs
import Rialto.Manager.AppManager

/-! # Events reach the session server that emitted them

Events are queued by application id. As long as an id is launched again only after everything of its
earlier session servers is gone (their events, their IPC client and the request that makes one), all
that is there for an id belongs to one session server.

* `Orderly`: the condition on a launch.
* `Owned`: what is there for an id belongs to one session server; `step_inv`: orderly steps keep it.
* `events_reach_emitter`: the handling of an event then touches its emitter only.
* `late_event_removes_successor`: an event that is handled after the id was launched again. -/

namespace Rialto.Manager.Instances

open Rialto.Lib.Runs Rialto.Manager.AppManager

/-! ## The condition -/

/-- Nothing is left of the session servers of an application. -/
structure Settled (s : State) (appId : String) : Prop where
  queue : ∀ e ∈ s.queue, e.appId ≠ appId
  handling : ∀ h, s.handling = some h → h.event.appId ≠ appId
  client : s.clients appId = none
  connecting : ∀ n, .connecting appId (some n) ∉ s.calls

/-- **The condition on a step**: a session server is launched, or its timer ends before it is in the
map, only when nothing is left of the earlier ones of the application; when the application is in
the map already, the timer of the session server that is destroyed does not end. -/
def Orderly (s : State) : Act → Prop
  | .proceed i o => ∀ appId, s.calls[i]? = some (.adding appId) →
      (s.sessionServerApps appId = none → o.succeeds = true ∨ o.expires = true → Settled s appId) ∧
      (s.sessionServerApps appId ≠ none → o.expires = false)
  | _ => True

/-! ## The invariant -/

/-- What is there for an application belongs to the session server `c`. -/
structure Owned (s : State) (appId : String) (c : ℕ) : Prop where
  app : ∀ n, s.sessionServerApps appId = some n → n = c
  client : ∀ n, s.clients appId = some n → n = c
  queued : ∀ e ∈ s.queue, e.appId = appId → e.emitter = c
  handled : ∀ h, s.handling = some h → h.event.appId = appId → h.event.emitter = c
  connecting : ∀ n, .connecting appId (some n) ∈ s.calls → n = c

/-- **The invariant**, with what it gives for the events handled so far. -/
structure Inv (s : State) : Prop where
  owned : ∀ appId, ∃ c, Owned s appId c
  log : ∀ e ∈ s.log, e.target = e.emitter

theorem inv_init : Inv init :=
  ⟨fun _ => ⟨0, nofun, nofun, nofun, nofun, nofun⟩, nofun⟩

section Steps

variable {s s' : State} {appId : String}

/-- The timers, the processes and the counter are not part of the invariant. -/
theorem Inv.of_eq (h : Inv s) (happs : s'.sessionServerApps = s.sessionServerApps)
    (hclients : s'.clients = s.clients) (hqueue : s'.queue = s.queue)
    (hhandling : s'.handling = s.handling) (hcalls : s'.calls = s.calls) (hlog : s'.log = s.log) :
    Inv s' := by
  refine ⟨fun a => ?_, by rw [hlog]; exact h.log⟩
  obtain ⟨c, hc⟩ := h.owned a
  exact ⟨c, by rw [happs]; exact hc.app, by rw [hclients]; exact hc.client,
    by rw [hqueue]; exact hc.queued, by rw [hhandling]; exact hc.handled,
    by rw [hcalls]; exact hc.connecting⟩

/-- A new call that does not connect. -/
theorem inv_start (h : Inv s) {call : Call} (hcall : ∀ a n, call ≠ .connecting a (some n)) :
    Inv (s.start call) := by
  refine ⟨fun a => ?_, h.log⟩
  obtain ⟨c, hc⟩ := h.owned a
  refine ⟨c, hc.app, hc.client, hc.queued, hc.handled, fun n hn => ?_⟩
  rcases List.mem_append.mp hn with hn | hn
  · exact hc.connecting n hn
  · exact absurd (List.mem_singleton.mp hn).symm (hcall a n)

/-- An event of the session server that is in one of the maps. -/
theorem inv_emit (h : Inv s) {e : Event}
    (he : s.sessionServerApps e.appId = some e.emitter ∨ s.clients e.appId = some e.emitter) :
    Inv (s.emit e) := by
  refine ⟨fun a => ?_, h.log⟩
  obtain ⟨c, hc⟩ := h.owned a
  refine ⟨c, hc.app, hc.client, fun e' he' ha => ?_, hc.handled, hc.connecting⟩
  rcases List.mem_append.mp he' with he' | he'
  · exact hc.queued e' he' ha
  · obtain rfl := List.mem_singleton.mp he'
    subst ha
    rcases he with he | he
    · exact hc.app _ he
    · exact hc.client _ he

theorem inv_remove (h : Inv s) (n : ℕ) : Inv (s.remove appId n) := by
  refine ⟨fun a => ?_, h.log⟩
  obtain ⟨c, hc⟩ := h.owned a
  refine ⟨c, fun m hm => ?_, hc.client, hc.queued, hc.handled, hc.connecting⟩
  have hm : Function.update s.sessionServerApps appId none a = some m := hm
  by_cases ha : a = appId
  · rw [ha, Function.update_self] at hm
    exact nomatch hm
  · rw [Function.update_of_ne ha] at hm
    exact hc.app m hm

/-! ## Requests -/

theorem Owned.erase {c : ℕ} (h : Owned s appId c) (i : ℕ) :
    Owned { s with calls := s.calls.eraseIdx i } appId c :=
  ⟨h.app, h.client, h.queued, h.handled,
    fun n hn => h.connecting n (List.mem_of_mem_eraseIdx hn)⟩

theorem inv_erase (h : Inv s) (i : ℕ) : Inv { s with calls := s.calls.eraseIdx i } :=
  ⟨fun a => (h.owned a).imp fun _ hc => hc.erase i, h.log⟩

/-- After the launch everything of the application belongs to the new session server. -/
theorem inv_launched (h : Inv s) (hs : Settled s appId) {n : ℕ} {queue : List Event}
    {apps : String → Option ℕ} {timers : ℕ → Bool} {next : ℕ}
    (hqueue : ∀ e ∈ queue, e ∈ s.queue ∨ e.appId = appId ∧ e.emitter = n)
    (happs : ∀ a m, apps a = some m → s.sessionServerApps a = some m ∧ a ≠ appId ∨
      a = appId ∧ m = n) :
    Inv { s with
      queue := queue, sessionServerApps := apps, timers := timers, nextInstance := next } := by
  refine ⟨fun a => ?_, h.log⟩
  by_cases ha : a = appId
  · subst ha
    refine ⟨n, fun m hm => ?_, fun m hm => ?_, fun e he hea => ?_, fun g hg hga => ?_,
      fun m hm => ?_⟩
    · rcases happs a m hm with ⟨-, hne⟩ | ⟨-, hmn⟩
      · exact absurd rfl hne
      · exact hmn
    · exact nomatch hs.client.symm.trans hm
    · rcases hqueue e he with he | ⟨-, hen⟩
      · exact absurd hea (hs.queue e he)
      · exact hen
    · exact absurd hga (hs.handling g hg)
    · exact absurd hm (hs.connecting m)
  · obtain ⟨c, hc⟩ := h.owned a
    refine ⟨c, fun m hm => ?_, hc.client, fun e he hea => ?_, hc.handled, hc.connecting⟩
    · rcases happs a m hm with ⟨hm, -⟩ | ⟨haa, -⟩
      · exact hc.app m hm
      · exact absurd haa ha
    · rcases hqueue e he with he | ⟨heq, -⟩
      · exact hc.queued e he hea
      · exact absurd (hea.symm.trans heq) ha

theorem inv_launch {o : Outcome} (h : Inv s)
    (hnone : s.sessionServerApps appId = none → o.succeeds = true ∨ o.expires = true →
      Settled s appId)
    (hsome : s.sessionServerApps appId ≠ none → o.expires = false) : Inv (launch s appId o) := by
  have hcount : ∀ next, Inv { s with nextInstance := next } := fun _ =>
    h.of_eq rfl rfl rfl rfl rfl rfl
  unfold launch State.emit
  dsimp only
  cases happ : s.sessionServerApps appId with
  | some m =>
    -- the new session server is destroyed at once
    rw [hsome (by rw [happ]; exact nofun)]
    simp only [Bool.false_eq_true, if_false, happ, Option.isSome_some, if_true]
    split_ifs
    · exact hcount _
    · exact inv_start (hcount _) nofun
  | none =>
    have hsettled := hnone happ
    -- the queue after the launch has at most one more event, of the new session server
    have hqueue : ∀ e ∈ s.queue ++ [⟨appId, s.nextInstance, .error⟩],
        e ∈ s.queue ∨ e.appId = appId ∧ e.emitter = s.nextInstance := by
      intro e he
      rcases List.mem_append.mp he with he | he
      · exact Or.inl he
      · rw [List.mem_singleton.mp he]
        exact Or.inr ⟨rfl, rfl⟩
    have hkept : ∀ a m, s.sessionServerApps a = some m →
        s.sessionServerApps a = some m ∧ a ≠ appId ∨ a = appId ∧ m = s.nextInstance := by
      intro a m hm
      refine Or.inl ⟨hm, fun ha => ?_⟩
      rw [ha, happ] at hm
      exact nomatch hm
    have hadded : ∀ a m, Function.update s.sessionServerApps appId (some s.nextInstance) a =
        some m → s.sessionServerApps a = some m ∧ a ≠ appId ∨ a = appId ∧ m = s.nextInstance := by
      intro a m hm
      by_cases ha : a = appId
      · rw [ha, Function.update_self] at hm
        exact Or.inr ⟨ha, (Option.some.inj hm).symm⟩
      · rw [Function.update_of_ne ha] at hm
        exact Or.inl ⟨hm, ha⟩
    cases hexp : o.expires with
    | true =>
      have hs := hsettled (Or.inr hexp)
      simp only [if_true, happ, Option.isSome_none, Bool.false_eq_true, if_false]
      split_ifs
      · exact inv_launched h hs hqueue hkept
      · exact inv_start (inv_launched h hs hqueue hadded) nofun
    | false =>
      simp only [Bool.false_eq_true, if_false, happ, Option.isSome_none]
      split_ifs with hfails
      · exact hcount _
      · have hs := hsettled (Or.inl (by simpa using hfails))
        exact inv_start (inv_launched h hs (fun e he => Or.inl he) hadded) nofun

theorem inv_connect (h : Inv s) {socket : Option ℕ} {succeeds : Bool}
    (hsocket : ∀ n, socket = some n → Owned s appId n) :
    Inv (connect s appId socket succeeds) := by
  unfold connect
  cases socket with
  | none => exact inv_start h nofun
  | some n =>
    dsimp only
    split_ifs
    · refine ⟨fun a => ?_, h.log⟩
      by_cases ha : a = appId
      · have hc := hsocket n rfl
        rw [ha]
        refine ⟨n, hc.app, fun m hm => ?_, hc.queued, hc.handled, hc.connecting⟩
        have hm : Function.update s.clients appId (some n) appId = some m := hm
        rw [Function.update_self] at hm
        exact (Option.some.inj hm).symm
      · obtain ⟨c, hc⟩ := h.owned a
        refine ⟨c, hc.app, fun m hm => hc.client m ?_, hc.queued, hc.handled, hc.connecting⟩
        have hm : Function.update s.clients appId (some n) a = some m := hm
        rwa [Function.update_of_ne ha] at hm
    · exact inv_start h nofun

theorem inv_proceed {i : ℕ} {o : Outcome} {call : Call} (h : Inv s)
    (horderly : Orderly s (.proceed i o)) (hcall : s.calls[i]? = some call) :
    Inv (resume { s with calls := s.calls.eraseIdx i } o call) := by
  have herase := inv_erase h i
  cases call with
  | adding appId =>
    obtain ⟨hnone, hsome⟩ := horderly appId hcall
    refine inv_launch herase (fun happ ho => ?_) hsome
    have hs := hnone happ ho
    exact ⟨hs.queue, hs.handling, hs.client,
      fun n hn => hs.connecting n (List.mem_of_mem_eraseIdx hn)⟩
  | launched appId =>
    refine ⟨fun a => ?_, h.log⟩
    obtain ⟨c, hc⟩ := herase.owned a
    refine ⟨c, hc.app, hc.client, hc.queued, hc.handled, fun n hn => ?_⟩
    rcases List.mem_append.mp hn with hn | hn
    · exact hc.connecting n hn
    · have heq := List.mem_singleton.mp hn
      simp only [Call.connecting.injEq] at heq
      obtain ⟨rfl, happ⟩ := heq
      exact hc.app n happ.symm
  | connecting appId socket =>
    refine inv_connect herase fun n hn => ?_
    subst hn
    obtain ⟨c, hc⟩ := h.owned appId
    obtain rfl := hc.connecting n (List.mem_of_getElem? hcall)
    exact hc.erase i
  | failed appId =>
    show Inv (killSessionServer _ appId)
    unfold killSessionServer
    cases happ : s.sessionServerApps appId with
    | none => exact herase
    | some n => exact (inv_remove herase n).of_eq rfl rfl rfl rfl rfl rfl
  | changing appId newState => exact herase

/-! ## Events -/

theorem State.note_apps (s : State) (g : Handling) (target : Option ℕ) (effect : Effect) :
    s.note g target effect = { s with log := (s.note g target effect).log } := by
  unfold State.note
  cases target <;> rfl

/-- What a section does to a session server is recorded, and it is the emitter of the event. -/
theorem log_note {g : Handling} {target : Option ℕ} {effect : Effect} (h : Inv s)
    (htarget : ∀ n, target = some n → n = g.event.emitter) :
    ∀ e ∈ (s.note g target effect).log, e.target = e.emitter := by
  intro e he
  unfold State.note at he
  cases target with
  | none => exact h.log e he
  | some n =>
    rcases List.mem_append.mp he with he | he
    · exact h.log e he
    · rw [List.mem_singleton.mp he]
      exact htarget n rfl

/-- The handling goes on with the event of the same emitter. -/
theorem inv_section (h : Inv s) {g : Handling} (hg : s.handling = some g) {target : Option ℕ}
    {effect : Effect} {next : Option Handling}
    (htarget : ∀ n, target = some n → n = g.event.emitter)
    (hnext : ∀ g', next = some g' → g'.event.appId = g.event.appId ∧
      g'.event.emitter = g.event.emitter) :
    Inv { s.note g target effect with handling := next } := by
  refine ⟨fun a => ?_, log_note h htarget⟩
  obtain ⟨c, hc⟩ := h.owned a
  rw [State.note_apps]
  refine ⟨c, hc.app, hc.client, hc.queued, fun g' hg' ha => ?_, hc.connecting⟩
  obtain ⟨happ, hemitter⟩ := hnext g' hg'
  rw [hemitter]
  exact hc.handled g hg (happ.symm.trans ha)

theorem goOn_next {g g' : Handling} {next : Part} (h : g.goOn next = some g') :
    g'.event.appId = g.event.appId ∧ g'.event.emitter = g.event.emitter := by
  cases h
  exact ⟨rfl, rfl⟩

theorem inv_handle {g : Handling} {succeeds : Bool} (h : Inv s) (hg : s.handling = some g) :
    Inv (handleSection s g succeeds) := by
  obtain ⟨c, hc⟩ := h.owned g.event.appId
  have hemitter := hc.handled g hg rfl
  have happ : ∀ n, s.sessionServerApps g.event.appId = some n → n = g.event.emitter :=
    fun n hn => (hc.app n hn).trans hemitter.symm
  have hclient : ∀ n, s.clients g.event.appId = some n → n = g.event.emitter :=
    fun n hn => (hc.client n hn).trans hemitter.symm
  unfold handleSection
  cases hnext : g.next with
  | cancelStartupTimer =>
    have htimers : ∀ timers, Inv { s with timers := timers } := fun _ =>
      h.of_eq rfl rfl rfl rfl rfl rfl
    dsimp only
    cases hfind : s.sessionServerApps g.event.appId with
    | none => exact inv_section h hg happ fun _ => goOn_next
    | some n =>
      exact @inv_section _ (htimers (Function.update s.timers n false)) g hg _ .timerCancelled _
        happ fun _ => goOn_next
  | configure =>
    dsimp only
    split_ifs
    · exact inv_section h hg hclient fun _ => goOn_next
    · refine @inv_section s h g hg none .configured _ nofun fun g' hg' => ?_
      cases hg'
      exact ⟨rfl, rfl⟩
  | removeClient =>
    have hnoted := @inv_section s h g hg _ .disconnected (g.goOn .removeSessionServer) hclient
      fun _ => goOn_next
    refine ⟨fun a => ?_, hnoted.log⟩
    obtain ⟨c, hc⟩ := hnoted.owned a
    refine ⟨c, hc.app, fun n hn => ?_, hc.queued, hc.handled, hc.connecting⟩
    have hn : Function.update s.clients g.event.appId none a = some n := hn
    by_cases ha : a = g.event.appId
    · rw [ha, Function.update_self] at hn
      exact nomatch hn
    · rw [Function.update_of_ne ha] at hn
      refine hc.client n ?_
      rw [State.note_apps]
      exact hn
  | removeSessionServer =>
    dsimp only
    cases hfind : s.sessionServerApps g.event.appId with
    | none => exact @inv_section s h g hg none .removed _ nofun fun _ => goOn_next
    | some n =>
      refine inv_section (inv_remove h n) hg (fun m hm => ?_) fun _ => goOn_next
      cases hm
      exact happ n hfind
  | stateChanged =>
    refine inv_section h hg (fun n hn => ?_) nofun
    cases hfind : s.sessionServerApps g.event.appId with
    | none =>
      rw [hfind] at hn
      exact (Option.some.inj hn).symm
    | some m =>
      rw [hfind] at hn
      rw [← Option.some.inj hn]
      exact happ m hfind

end Steps

/-! ## Runs -/

theorem step_inv {s s' : State} {a : Act} (h : Inv s) (horderly : Orderly s a)
    (hstep : step s a = some s') : Inv s' := by
  cases a with
  | setSessionServerState appId newState =>
    cases hstep
    unfold setSessionServerState
    split_ifs
    · exact inv_start h nofun
    · exact inv_start h nofun
    · exact h
  | proceed i o =>
    simp only [step] at hstep
    cases hcall : s.calls[i]? with
    | none =>
      rw [hcall] at hstep
      exact nomatch hstep
    | some call =>
      rw [hcall] at hstep
      cases hstep
      exact inv_proceed h horderly hcall
  | emit appId newState =>
    simp only [step] at hstep
    cases hclient : s.clients appId with
    | none =>
      rw [hclient] at hstep
      exact nomatch hstep
    | some n =>
      rw [hclient] at hstep
      cases hstep
      exact inv_emit h (Or.inr hclient)
  | expire appId =>
    simp only [step] at hstep
    cases happ : s.sessionServerApps appId with
    | none =>
      rw [happ] at hstep
      exact nomatch hstep
    | some n =>
      rw [happ] at hstep
      dsimp only at hstep
      split_ifs at hstep
      cases hstep
      exact (@inv_emit s h ⟨appId, n, .error⟩ (Or.inl happ)).of_eq rfl rfl rfl rfl rfl rfl
  | take =>
    simp only [step] at hstep
    cases hhandling : s.handling with
    | some g =>
      rw [hhandling] at hstep
      exact nomatch hstep
    | none =>
      cases hqueue : s.queue with
      | nil =>
        rw [hhandling, hqueue] at hstep
        exact nomatch hstep
      | cons e rest =>
        rw [hhandling, hqueue] at hstep
        cases hstep
        refine ⟨fun a => ?_, h.log⟩
        obtain ⟨c, hc⟩ := h.owned a
        refine ⟨c, hc.app, hc.client, fun e' he' => ?_, fun g hg ha => ?_, hc.connecting⟩
        · exact hc.queued e' (by rw [hqueue]; exact List.mem_cons_of_mem _ he')
        · cases hg
          exact hc.queued e (by rw [hqueue]; exact List.mem_cons_self) ha
  | handle succeeds =>
    simp only [step] at hstep
    cases hhandling : s.handling with
    | none =>
      rw [hhandling] at hstep
      exact nomatch hstep
    | some g =>
      rw [hhandling] at hstep
      cases hstep
      exact inv_handle h hhandling

/-- **In every run in which an application id is launched again only when nothing is left of its
earlier session servers, whatever the handling of an event does, it does to the session server that
emitted the event.** -/
theorem events_reach_emitter {as : List Act} {s : State} (h : Run step Orderly init as s) :
    ∀ e ∈ s.log, e.target = e.emitter :=
  (h.invariant Inv (fun _ _ _ hs hok hstep => step_inv hs hok hstep) inv_init).log

/-! ## Two runs -/

/-- The section of a request succeeds, without a startup timer. -/
def succeeding : Outcome := ⟨true, false, false⟩

/-- A session server is launched and connected. -/
def launching : List Act :=
  [.setSessionServerState "app" .active, .proceed 0 succeeding, .proceed 0 succeeding,
    .proceed 0 succeeding]

/-- It announces that it is not running, and its connection is lost. -/
def stopping : List Act :=
  launching ++ ([.emit "app" .notRunning, .emit "app" .notRunning, .take, .handle true,
    .handle true, .handle true] : List Act)

/-- Both events are handled before the application is launched again. -/
def waiting : List Act :=
  stopping ++ ([.take, .handle true, .handle true, .handle true] : List Act) ++ launching ++
    ([.emit "app" .error, .take, .handle true, .handle true] : List Act)

/-- The second event is handled after it. -/
def relaunching : List Act :=
  stopping ++ launching ++ ([.take, .handle true, .handle true] : List Act)

/-- `Settled`, as it is checked along a run. -/
def settled (s : State) (appId : String) : Bool :=
  s.queue.isEmpty && s.handling.isNone && (s.clients appId).isNone &&
    s.calls.all fun call => match call with
      | .connecting _ _ => false
      | _ => true

theorem settled_of_check {s : State} {appId : String} (h : settled s appId = true) :
    Settled s appId := by
  simp only [settled, Bool.and_eq_true, List.isEmpty_iff, Option.isNone_iff_eq_none,
    List.all_eq_true] at h
  obtain ⟨⟨⟨hqueue, hhandling⟩, hclient⟩, hcalls⟩ := h
  refine ⟨?_, ?_, hclient, fun n hn => ?_⟩
  · rw [hqueue]
    exact nofun
  · rw [hhandling]
    exact nofun
  · exact nomatch hcalls _ hn

/-- The condition, as it is checked along a run. -/
def checked (s : State) : Act → Bool
  | .proceed i o =>
    match s.calls[i]? with
    | some (.adding appId) => settled s appId && !o.expires
    | _ => true
  | _ => true

theorem orderly_of_checked {s : State} {a : Act} (h : checked s a = true) : Orderly s a := by
  cases a with
  | proceed i o =>
    intro appId hcall
    unfold checked at h
    simp only [hcall, Bool.and_eq_true, Bool.not_eq_true'] at h
    exact ⟨fun _ _ => settled_of_check h.1, fun _ => h.2⟩
  | _ => trivial

theorem events_reach_emitter_waiting :
    ∃ s, Run step Orderly init waiting s ∧ ⟨1, 1, .removed⟩ ∈ s.log ∧
      ∀ e ∈ s.log, e.target = e.emitter := by
  have hlog : (runsIf step (fun s a => checked s a = true) init waiting).map State.log =
      some [⟨0, 0, .disconnected⟩, ⟨0, 0, .removed⟩, ⟨0, 0, .reported .notRunning⟩,
        ⟨0, 0, .reported .notRunning⟩, ⟨1, 1, .disconnected⟩, ⟨1, 1, .removed⟩] := by
    decide +kernel
  obtain ⟨s, hs, hlog⟩ := Option.map_eq_some_iff.mp hlog
  have hrun := (Run.of_runsIf hs).mono fun _ _ => orderly_of_checked
  refine ⟨s, hrun, ?_, events_reach_emitter hrun⟩
  rw [hlog]
  decide

/-- The event of the first session server disconnects and removes the second one. -/
theorem late_event_removes_successor :
    ∃ as s, Run step (fun _ _ => True) init as s ∧ ⟨0, 1, .disconnected⟩ ∈ s.log ∧
      ⟨0, 1, .removed⟩ ∈ s.log ∧ s.sessionServerApps "app" = none := by
  have hview : (runs step init relaunching).map (fun s => (s.log, s.sessionServerApps "app")) =
      some ([⟨0, 0, .disconnected⟩, ⟨0, 0, .removed⟩, ⟨0, 0, .reported .notRunning⟩,
        ⟨0, 1, .disconnected⟩, ⟨0, 1, .removed⟩], none) := by
    decide +kernel
  obtain ⟨s, hs, hview⟩ := Option.map_eq_some_iff.mp hview
  simp only [Prod.mk.injEq] at hview
  refine ⟨relaunching, s, Run.of_runs hs, ?_, ?_, hview.2⟩
  · rw [hview.1]
    decide
  · rw [hview.1]
    decide

end Rialto.Manager.Instances
