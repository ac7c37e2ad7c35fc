import Rialto.Ipc.ServerCalls
import Rialto.Ipc.ServerClients

/-! # The life of a client in the IPC server

The read loop of `processClientSocket` looks at `m_condemnedClients` before it starts and not again,
so it goes on dispatching the messages of a client that is condemned while it runs, by one of the
handlers it calls or by another thread. Everything else about the life of a client holds in every
run.

* `step_inv`: every step keeps the invariant of the clients.
* `step_writes`: what a step writes to the log.
* `client_lifetime_iff`: the life of every client, and that messages of a condemned client are not
  dispatched if and only if the read loop never takes one. -/

namespace Rialto.Ipc.ServerLifetime

open Rialto.Lib.History Rialto.Lib.OrdMap Rialto.Lib.Runs Rialto.Ipc.FileDescriptors
  Rialto.Ipc.Server Rialto.Ipc.ServerClients

open scoped List

variable {ρ β : Type*}

/-- The step takes a client id. -/
def takesId : Action ρ β → Bool
  | .takeId _ _ => true
  | _ => false

/-- The 64-bit counter of client ids does not wrap around. -/
def NoWrap (s : State β) (a : Action ρ β) : Prop :=
  takesId a = true → s.clientIdCounter + 1 < w64

instance (s : State β) (a : Action ρ β) : Decidable (NoWrap s a) :=
  inferInstanceAs (Decidable (_ → _))

theorem served_processEvent {s : State β} {rest : List Event} {e : Event} {c : ℕ}
    (h : served (processEvent s rest e) = some c) : c ∈ s.clients.keys := by
  cases e with
  | wake => cases h
  | listening => cases h
  | client d err input =>
    simp only [processEvent] at h
    split_ifs at h with hnone <;> cases h
    all_goals
      rw [Option.isNone_iff_eq_none, OMap.find?_eq_none, not_not] at hnone
      exact hnone

theorem processEvent_same (s : State β) (rest : List Event) (e : Event) :
    todo (processEvent s rest e) = [] ∧ closing (processEvent s rest e) = none ∧
      notifying (processEvent s rest e) = none := by
  cases e with
  | wake => exact ⟨rfl, rfl, rfl⟩
  | listening => exact ⟨rfl, rfl, rfl⟩
  | client d err input =>
    simp only [processEvent]
    split_ifs <;> exact ⟨rfl, rfl, rfl⟩

/-- Events are over for a client that was just condemned. -/
theorem inv_disconnect_served {s : State β} (hs : Inv (view s)) {c : ℕ} {rest : List Event}
    (hc : served s.phase = some c) (htodo : todo s.phase = []) (hclosing : closing s.phase = none)
    (hnotifying : notifying s.phase = none) :
    Inv (view { disconnectClient s c with phase := .events rest }) := by
  obtain ⟨cb, hcb⟩ := OMap.mem_keys.mp (hs.served c hc)
  have hacc := one_le_accepted (hs.cbClients c cb hcb)
  exact inv_phase (inv_disconnect hs hacc) htodo.symm hclosing.symm hnotifying.symm
    fun _ h => nomatch h

theorem inv_processMethodCall (env : Env ρ β) {s : State β} (hs : Inv (view s)) (n c : ℕ)
    (call : MethodCall ρ) (fds : List ℤ) (complete : Bool) :
    Inv (view (processMethodCall env s n c call fds complete)) := by
  obtain ⟨r, heq⟩ | heq | heq | heq :=
    ServerSteps.processMethodCall_cases env s n c call fds complete
  · rw [heq]
    exact inv_call hs (Or.inr ⟨n, r, rfl⟩)
  · rw [heq]
    exact hs
  · rw [heq]
    exact inv_call hs (Or.inl ⟨n, c, rfl⟩)
  · rw [heq]
    exact inv_call hs (Or.inl ⟨n, c, rfl⟩)

/-- **Every step keeps the invariant.** -/
theorem step_inv {env : Env ρ β} {s s' : State β} {a : Action ρ β} (hs : Inv (view s))
    (hok : NoWrap s a) (h : step env s a = some s') : Inv (view s') := by
  cases a with
  | takeId cb added =>
    cases h
    have hmod : (s.clientIdCounter + 1) % w64 = s.clientIdCounter + 1 := Nat.mod_eq_of_lt (hok rfl)
    unfold view
    rw [hmod]
    exact inv_takeId hs cb added
  | emplaceClient c cb =>
    simp only [step] at h
    split_ifs at h with hmem
    cases h
    exact inv_emplace hs hmem
  | exportService c name =>
    cases h
    exact hs
  | disconnectClient c =>
    simp only [step] at h
    split_ifs at h with hacc
    cases h
    obtain ⟨e, he, hc⟩ := List.any_eq_true.mp hacc
    exact inv_disconnect hs (List.countP_pos_iff.mpr ⟨e, he, hc⟩)
  | poll events =>
    simp only [step] at h
    split at h <;> cases h
    next hphase =>
      exact inv_phase hs (congrArg todo hphase).symm (congrArg closing hphase).symm
        (congrArg notifying hphase).symm fun _ h => by cases h
  | nextEvent =>
    simp only [step] at h
    split at h <;> cases h
    next e rest hphase =>
      obtain ⟨h1, h2, h3⟩ := processEvent_same s rest e
      refine inv_phase hs ?_ ?_ ?_ fun _ h => served_processEvent h
      · exact h1.trans (congrArg todo hphase).symm
      · exact h2.trans (congrArg closing hphase).symm
      · exact h3.trans (congrArg notifying hphase).symm
  | socketError =>
    simp only [step] at h
    split at h <;> cases h
    next c rest hphase =>
      exact inv_disconnect_served hs (by rw [hphase]; rfl) (by rw [hphase]; rfl)
        (by rw [hphase]; rfl) (by rw [hphase]; rfl)
  | receive r complete =>
    simp only [step] at h
    split at h <;> cases h
    next c rest hphase =>
      have hdis : Inv (view { disconnectClient s c with phase := .events rest }) :=
        inv_disconnect_served hs (by rw [hphase]; rfl) (by rw [hphase]; rfl)
          (by rw [hphase]; rfl) (by rw [hphase]; rfl)
      cases r with
      | wouldBlock =>
        exact inv_phase hs (congrArg todo hphase).symm (congrArg closing hphase).symm
          (congrArg notifying hphase).symm fun _ h => by cases h
      | error => exact hdis
      | closed => exact hdis
      | truncated => exact hs
      | other => exact hs
      | call call fds => exact inv_processMethodCall env hs s.nextCall c call _ complete
  | endEvents =>
    simp only [step] at h
    split at h
    · next hphase =>
      split_ifs at h with hempty
      · cases h
        have hkeys : s.condemnedClients.keys = [] := by rw [OMap.keys, hempty]; rfl
        refine inv_sweep hs hphase rfl rfl rfl (fun c => ?_) fun c hc => ?_
        · exact ⟨fun hc => hc.resolve_right (fun h => by cases h), Or.inl⟩
        · change c ∈ s.condemnedClients.keys at hc
          rw [hkeys] at hc
          cases hc
      · cases h
        refine inv_sweep hs hphase rfl rfl rfl (fun c => ?_) fun c hc => hc
        exact ⟨fun hc => hc.resolve_left (fun h => by cases h), Or.inr⟩
    · cases h
  | sweepNext =>
    simp only [step] at h
    split at h
    · next hphase =>
      cases h
      exact inv_phase hs (congrArg todo hphase).symm (congrArg closing hphase).symm
        (congrArg notifying hphase).symm fun _ h => by cases h
    · next c cs hphase =>
      split at h
      · next hfind =>
        cases h
        exact inv_skip hs hphase (OMap.find?_eq_none.mp hfind)
      · next cb hfind =>
        cases h
        exact inv_remove hs hphase (OMap.find?_eq_some.mp hfind)
    · cases h
  | closeSocket =>
    simp only [step] at h
    split at h <;> cases h
    next hphase => exact inv_close hs hphase
  | notify =>
    simp only [step] at h
    split at h <;> cases h
    next hphase => exact inv_notify hs hphase
  | done p outcome complete =>
    simp only [step] at h
    split_ifs at h
    cases h
    obtain ⟨r, heq, -⟩ :=
      ServerSteps.handleResponse_eq env { s with pending := s.pending.erase p } p outcome complete
    rw [heq]
    exact inv_call (v := view s) hs (Or.inr ⟨p.n, r, rfl⟩)

/-! ## Dispatching -/

/-- The call is handed to its service when it is read. -/
def Dispatches (env : Env ρ β) (s : State β) (c : ℕ) (call : MethodCall ρ) (fds : List ℤ) : Prop :=
  (c, call.serviceName) ∈ s.exported ∧ ∃ method,
    env.method call.serviceName call.methodName = some method ∧
      ServerCalls.Accepted method call fds

/-- The read loop takes no call to be dispatched from a client that is condemned. -/
def ReadsLive (env : Env ρ β) (s : State β) (a : Action ρ β) : Prop :=
  ∀ c rest call fds complete, a = .receive (.call call fds) complete →
    s.phase = .reading c rest → Dispatches env s c call fds → c ∉ s.condemnedClients.keys

/-- No call of a client is dispatched after the client was condemned. -/
def NoLateDispatch (log : List (Entry β)) : Prop :=
  ∀ n c, ¬ [.condemned c, .invoked n c] <+ log

theorem processMethodCall_log (env : Env ρ β) (s : State β) (n c : ℕ) (call : MethodCall ρ)
    (fds : List ℤ) (complete : Bool) :
    (Dispatches env s c call fds ∧ (processMethodCall env s n c call
        (readMessageFds fds serverFdLimit) complete).log = s.log ++ [Entry.invoked n c]) ∨
      (¬ Dispatches env s c call fds ∧ ((processMethodCall env s n c call
        (readMessageFds fds serverFdLimit) complete).log = s.log ∨
        ∃ r, (processMethodCall env s n c call (readMessageFds fds serverFdLimit) complete).log =
          s.log ++ [Entry.answered n r])) := by
  have refused : ∀ reason, ∃ r, (sendErrorReply env s n c call.serialId reason complete).log =
      s.log ++ [Entry.answered n r] := by
    intro reason
    obtain ⟨r, h, -⟩ := ServerSteps.sendReply_eq s n c
      (populateErrorReply env call.serialId (truncateReason reason)) complete
    exact ⟨r, congrArg State.log h⟩
  unfold processMethodCall
  by_cases hexported : (c, call.serviceName) ∈ s.exported
  · rw [if_neg (not_not.mpr hexported)]
    cases hmethod : env.method call.serviceName call.methodName with
    | none =>
      refine Or.inr ⟨?_, Or.inr (refused _)⟩
      rintro ⟨-, method, h, -⟩
      rw [hmethod] at h
      cases h
    | some method =>
      have hdis : Dispatches env s c call fds ↔ ServerCalls.Accepted method call fds := by
        refine ⟨?_, fun h => ⟨hexported, method, hmethod, h⟩⟩
        rintro ⟨-, method', h, hacc⟩
        rw [hmethod] at h
        cases h
        exact hacc
      rw [hdis]
      dsimp only
      cases hparse : method.parse call.requestMessage with
      | none =>
        refine Or.inr ⟨?_, Or.inl rfl⟩
        rintro ⟨request, request', h, -⟩
        rw [hparse] at h
        cases h
      | some request =>
        dsimp only
        cases hadd : addRequestFileDescriptors request (readMessageFds fds serverFdLimit) with
        | none =>
          refine Or.inr ⟨?_, Or.inl rfl⟩
          rintro ⟨request₁, request', h, hadd'⟩
          rw [hparse] at h
          cases h
          rw [hadd] at hadd'
          cases hadd'
        | some request' =>
          refine Or.inl ⟨⟨request, request', hparse, hadd⟩, ?_⟩
          dsimp only
          split_ifs <;> rfl
  · rw [if_pos hexported]
    exact Or.inr ⟨fun h => hexported h.1, Or.inr (refused _)⟩

/-- The step reads no call that is dispatched. -/
def DispatchesNone (env : Env ρ β) (s : State β) (a : Action ρ β) : Prop :=
  ∀ c rest call fds complete, a = .receive (.call call fds) complete →
    s.phase = .reading c rest → ¬ Dispatches env s c call fds

/-- What a step writes to the log. -/
inductive Writes (env : Env ρ β) (s s' : State β) (a : Action ρ β) : Prop
  | dispatch (c : ℕ) (rest : List Event) (call : MethodCall ρ) (fds : List ℤ) (complete : Bool)
      (ha : a = .receive (.call call fds) complete) (hphase : s.phase = .reading c rest)
      (hd : Dispatches env s c call fds) (hlog : s'.log = s.log ++ [.invoked s.nextCall c])
  | silent (hno : DispatchesNone env s a) (hlog : s'.log = s.log)
  | note (e : Entry β) (hno : DispatchesNone env s a) (he : ∀ n c, e ≠ .invoked n c)
      (hlog : s'.log = s.log ++ [e])

theorem dispatchesNone_of_ne {env : Env ρ β} {s : State β} {a : Action ρ β}
    (h : ∀ call fds complete, a ≠ .receive (.call call fds) complete) :
    DispatchesNone env s a :=
  fun _ _ call fds complete ha _ _ => h call fds complete ha

theorem writes_receive (env : Env ρ β) {s : State β} {c : ℕ} {rest : List Event}
    (hphase : s.phase = .reading c rest) (r : Received ρ) (complete : Bool) :
    Writes env s (processReceived env s c rest complete r) (.receive r complete) := by
  cases r with
  | wouldBlock => exact .silent (dispatchesNone_of_ne nofun) rfl
  | error => exact .note (.condemned c) (dispatchesNone_of_ne nofun) nofun rfl
  | closed => exact .note (.condemned c) (dispatchesNone_of_ne nofun) nofun rfl
  | truncated => exact .silent (dispatchesNone_of_ne nofun) rfl
  | other => exact .silent (dispatchesNone_of_ne nofun) rfl
  | call call fds =>
    rcases processMethodCall_log env s s.nextCall c call fds complete with ⟨hd, hlog⟩ | ⟨hd, hlog⟩
    · exact .dispatch c rest call fds complete rfl hphase hd hlog
    · have hno : DispatchesNone env s (.receive (.call call fds) complete) := by
        intro c' rest' call' fds' complete' ha hp
        cases ha
        rw [hphase] at hp
        cases hp
        exact hd
      rcases hlog with hlog | ⟨r, hlog⟩
      · exact .silent hno hlog
      · exact .note (.answered s.nextCall r) hno nofun hlog

/-- **What a step writes**: at most one entry, and a dispatch only for a call that is read. -/
theorem step_writes {env : Env ρ β} {s s' : State β} {a : Action ρ β}
    (h : step env s a = some s') : Writes env s s' a := by
  cases a with
  | takeId cb added =>
    cases h
    exact .silent (dispatchesNone_of_ne (by simp)) rfl
  | emplaceClient c cb =>
    simp only [step] at h
    split_ifs at h
    cases h
    exact .note (.accepted c cb) (dispatchesNone_of_ne (by simp)) (by simp) rfl
  | exportService c name =>
    cases h
    exact .silent (dispatchesNone_of_ne (by simp)) rfl
  | disconnectClient c =>
    simp only [step] at h
    split_ifs at h
    cases h
    exact .note (.condemned c) (dispatchesNone_of_ne (by simp)) (by simp) rfl
  | poll events =>
    simp only [step] at h
    split at h <;> cases h
    exact .silent (dispatchesNone_of_ne (by simp)) rfl
  | nextEvent =>
    simp only [step] at h
    split at h <;> cases h
    exact .silent (dispatchesNone_of_ne (by simp)) rfl
  | socketError =>
    simp only [step] at h
    split at h <;> cases h
    exact .note (.condemned _) (dispatchesNone_of_ne (by simp)) (by simp) rfl
  | receive r complete =>
    simp only [step] at h
    split at h <;> cases h
    next c rest hphase => exact writes_receive env hphase r complete
  | endEvents =>
    simp only [step] at h
    split at h
    · split_ifs at h <;> cases h <;>
        exact .note .swept (dispatchesNone_of_ne (by simp)) (by simp) rfl
    · cases h
  | sweepNext =>
    simp only [step] at h
    split at h
    · cases h
      exact .silent (dispatchesNone_of_ne (by simp)) rfl
    · split at h <;> cases h
      · exact .silent (dispatchesNone_of_ne (by simp)) rfl
      · exact .note (.removed _) (dispatchesNone_of_ne (by simp)) (by simp) rfl
    · cases h
  | closeSocket =>
    simp only [step] at h
    split at h <;> cases h
    exact .note (.closed _) (dispatchesNone_of_ne (by simp)) (by simp) rfl
  | notify =>
    simp only [step] at h
    split at h <;> cases h
    exact .note (.notified _ _) (dispatchesNone_of_ne (by simp)) (by simp) rfl
  | done p outcome complete =>
    simp only [step] at h
    split_ifs at h
    cases h
    obtain ⟨r, heq, -⟩ :=
      ServerSteps.handleResponse_eq env { s with pending := s.pending.erase p } p outcome complete
    exact .note (.answered p.n r) (dispatchesNone_of_ne (by simp)) (by simp)
      (congrArg State.log heq)

/-! ## The life of every client -/

/-- **The life of the clients**, as far as the log tells it: ids are given once; a client is
removed, its socket closed and its callback run at most once, and only a condemned client is; and
when a sweep that began after the client was condemned is over, all three have happened. -/
structure Lifetime (s : State β) : Prop where
  ids : ∀ c, accepted c s.log ≤ 1
  once : ∀ c, removed c s.log ≤ 1 ∧ closed c s.log ≤ 1 ∧ notified c s.log ≤ 1
  callback : ∀ c cb, .notified c cb ∈ s.log → .accepted c cb ∈ s.log
  order : ∀ c, .removed c ∈ s.log → [.condemned c, .removed c] <+ s.log
  complete : s.phase = .idle → ∀ c, [.condemned c, .swept] <+ s.log →
    removed c s.log = 1 ∧ closed c s.log = 1 ∧ notified c s.log = 1

theorem lifetime_of_inv {s : State β} (hs : Inv (view s)) : Lifetime s where
  ids := fun c => Nat.le_trans (Nat.le_add_right _ _) (hs.ids c)
  once := by
    intro c
    have h1 := hs.ids c
    have h2 := hs.connected c
    have h3 := hs.removed c
    have h4 := hs.closed c
    dsimp only [view] at h1 h2 h3 h4
    omega
  callback := hs.sound.callback
  order := hs.sound.order
  complete := by
    intro hidle c hc
    have hgone : c ∉ s.clients.keys := by
      intro hmem
      have htodo := hs.swept c hc hmem
      dsimp only [view] at htodo
      rw [hidle] at htodo
      cases htodo
    have h0 := hs.sound.known c (mem_left_of_pair hc)
    have h1 := hs.ids c
    have h2 := hs.connected c
    have h3 := hs.removed c
    have h4 := hs.closed c
    dsimp only [view] at h0 h1 h2 h3 h4
    rw [hidle] at h3 h4
    have hclosing : one c (closing .idle) = 0 := rfl
    have hnotifying : one c (notifying .idle) = 0 := rfl
    rw [List.count_eq_zero.mpr hgone] at h2
    omega

/-- The condition on the steps. -/
def ReadsOnlyLive (env : Env ρ β) (s : State β) (a : Action ρ β) : Prop :=
  NoWrap s a ∧ ReadsLive env s a

theorem noLateDispatch_snoc {env : Env ρ β} {s s' : State β} {a : Action ρ β} (hs : Inv (view s))
    (h : step env s a = some s') :
    NoLateDispatch s'.log ↔ NoLateDispatch s.log ∧ ReadsLive env s a := by
  have hquiet : DispatchesNone env s a → ReadsLive env s a :=
    fun hno c rest call fds complete ha hp hd => absurd hd (hno c rest call fds complete ha hp)
  cases step_writes h with
  | silent hno hlog =>
    rw [hlog]
    exact ⟨fun hl => ⟨hl, hquiet hno⟩, And.left⟩
  | note e hno he hlog =>
    refine ⟨fun hl => ⟨fun n c hc => hl n c ?_, hquiet hno⟩, fun hl n c hc => ?_⟩
    · rw [hlog]
      exact hc.trans (List.sublist_append_left ..)
    · rw [hlog] at hc
      rcases pair_sublist_snoc.mp hc with hc | ⟨-, hc⟩
      · exact hl.1 n c hc
      · exact he n c hc.symm
  | dispatch c rest call fds complete ha hphase hd hlog =>
    constructor
    · intro hl
      refine ⟨fun n d hc => hl n d ?_, ?_⟩
      · rw [hlog]
        exact hc.trans (List.sublist_append_left ..)
      · intro c' rest' call' fds' complete' ha' hp' _ hcond
        rw [hphase] at hp'
        cases hp'
        refine hl s.nextCall c ?_
        rw [hlog]
        exact pair_sublist_snoc.mpr (Or.inr ⟨hs.condemned c (Or.inl hcond), rfl⟩)
    · rintro ⟨hl, hlive⟩ n d hc
      rw [hlog] at hc
      rcases pair_sublist_snoc.mp hc with hold | ⟨hold, heq⟩
      · exact hl n d hold
      · cases heq
        -- the client is read from, so it is in `m_clients`, and no sweep is on
        have hmem : c ∈ s.clients.keys := hs.served c (by rw [view, hphase]; rfl)
        rcases hs.listed c hold hmem with hcond | htodo
        · exact hlive c rest call fds complete ha hphase hd hcond
        · rw [view, hphase] at htodo
          cases htodo

/-- **The life of every client.** In every run, with an id counter that does not wrap around: the
clients live as `Lifetime` says, and no call is dispatched after its client was condemned, if and
only if the read loop never takes a call to be dispatched from a condemned client. -/
theorem client_lifetime_iff {env : Env ρ β} {as : List (Action ρ β)} {u : State β}
    (hrun : Run (step env) NoWrap init as u) :
    Lifetime u ∧ NoLateDispatch u.log ↔ Run (step env) (ReadsOnlyLive env) init as u := by
  refine hrun.history (P := fun as u => Lifetime u ∧ NoLateDispatch u.log ↔
    Run (step env) (ReadsOnlyLive env) init as u) ?_ ?_
  · refine ⟨fun _ => Run.nil _, fun _ => ⟨lifetime_of_inv inv_init, fun n c h => ?_⟩⟩
    cases h
  · intro as t a u ht ih hok hstep
    have hinv : Inv (view t) := ht.invariant (fun s => Inv (view s))
      (fun _ _ _ hs hok h => step_inv hs hok h) inv_init
    have hlate := noLateDispatch_snoc hinv hstep
    constructor
    · rintro ⟨-, hl⟩
      obtain ⟨hl, hlive⟩ := hlate.mp hl
      exact (ih.mp ⟨lifetime_of_inv hinv, hl⟩).append (Run.cons ⟨hok, hlive⟩ hstep (Run.nil _))
    · intro hrun'
      obtain ⟨t', ht', hok', hstep'⟩ := hrun'.snoc_inv
      obtain rfl := (ht'.mono fun _ _ h => h.1).unique ht
      exact ⟨lifetime_of_inv (step_inv hinv hok hstep), hlate.mpr ⟨(ih.mpr ht').2, hok'.2⟩⟩

/-! ## Two runs -/

/-- Only reading a call can break the condition. -/
theorem run_readsOnlyLive {env : Env ρ β} {s t : State β} {as : List (Action ρ β)}
    (h : Run (step env) NoWrap s as t)
    (hne : ∀ a ∈ as, ∀ call fds complete, a ≠ .receive (.call call fds) complete) :
    Run (step env) (ReadsOnlyLive env) s as t := by
  induction h with
  | nil s => exact Run.nil s
  | cons hok hstep _ ih =>
    refine Run.cons ⟨hok, ?_⟩ hstep (ih fun a ha => hne a (List.mem_cons_of_mem _ ha))
    exact fun _ _ call fds complete ha _ _ =>
      absurd ha (hne _ (List.mem_cons_self ..) call fds complete)

theorem run_connect : Run (step ServerCalls.plainEnv) NoWrap init ServerCalls.connectAndPoll
    ServerCalls.atSocket := Run.of_runsIf rfl

/-- The handler of a call disconnects the client, nothing more is read, and the client goes. -/
theorem client_lifetime_swept : ∃ u : State Unit, Run (step ServerCalls.plainEnv) NoWrap init
      (ServerCalls.connectAndPoll ++ [ServerCalls.received true] ++
        [.disconnectClient 10000, .receive .wouldBlock true, .endEvents, .sweepNext, .closeSocket,
          .notify, .sweepNext]) u ∧
    Lifetime u ∧ NoLateDispatch u.log ∧ removed 10000 u.log = 1 := by
  have hcall : step ServerCalls.plainEnv ServerCalls.atSocket (ServerCalls.received true) =
      some ServerCalls.inService := rfl
  have hlive : ReadsOnlyLive ServerCalls.plainEnv ServerCalls.atSocket
      (ServerCalls.received true) := ⟨nofun, fun _ _ _ _ _ _ _ _ h => nomatch h⟩
  obtain ⟨u, hu, hrest, hremoved⟩ : ∃ u, runsIf (step ServerCalls.plainEnv) NoWrap
      ServerCalls.inService
      [.disconnectClient 10000, .receive .wouldBlock true, .endEvents, .sweepNext, .closeSocket,
        .notify, .sweepNext] = some u ∧ u.phase = .idle ∧ removed 10000 u.log = 1 :=
    ⟨_, rfl, rfl, rfl⟩
  have hrun := ((run_readsOnlyLive run_connect (by simp [ServerCalls.connectAndPoll])).append
    (Run.cons hlive hcall (Run.nil _))).append (run_readsOnlyLive (Run.of_runsIf hu) (by simp))
  have hbase := hrun.mono fun _ _ h => h.1
  obtain ⟨hlife, hlate⟩ := (client_lifetime_iff hbase).mpr hrun
  exact ⟨u, hbase, hlife, hlate, hremoved⟩

/-- The handler of the first call disconnects the client, and the read loop goes on to dispatch the
second one. -/
theorem condemned_client_dispatched : ∃ u : State Unit, Run (step ServerCalls.plainEnv) NoWrap init
      (ServerCalls.connectAndPoll ++ [ServerCalls.received true, .disconnectClient 10000,
        .receive (.call ⟨2, "service", "method", true⟩ []) true]) u ∧
    [.condemned 10000, .invoked 1 10000] <+ u.log ∧ ¬ NoLateDispatch u.log := by
  obtain ⟨u, hu, hlog⟩ : ∃ u, runsIf (step ServerCalls.plainEnv) NoWrap ServerCalls.atSocket
      [ServerCalls.received true, .disconnectClient 10000,
        .receive (.call ⟨2, "service", "method", true⟩ []) true] = some u ∧
      u.log = [.accepted 10000 true, .invoked 0 10000, .condemned 10000, .invoked 1 10000] :=
    ⟨_, rfl, rfl⟩
  have hlate : [.condemned 10000, .invoked 1 10000] <+ u.log := by
    rw [hlog]
    exact List.sublist_append_right [_, _] _
  exact ⟨u, run_connect.append (Run.of_runsIf hu), hlate, fun h => h 1 10000 hlate⟩

end Rialto.Ipc.ServerLifetime
