import Rialto.Lib.OrdMap
import Rialto.Lib.Runs

/-! # The events of the key sessions of a client

A `MediaKeysIpc` has one weak pointer `m_mediaKeysIpcClient` for all its key sessions: every
successful `createKeySession` sets it, every `closeKeySession` resets it before it asks the server.
The events of all the sessions come over one subscription, are queued on one event thread and go to
the client that the pointer then leads to.

A call of `createKeySession` that fails, or of `closeKeySession` without a channel, changes nothing
here and is not a step. A session is open from where its `createKeySession` sets the client to where
a `closeKeySession` of it returns and the server has closed the session: the server may refuse.

* `lastClient`: what the last call leaves in the pointer.
* `handled_in_order`: every event that arrives is handled once, in the order of arrival.
* `Routed`: an event that came while its session was open goes to the client of that session.
* `routed_iff`: all the events are routed exactly when, whenever one of them is handled, the last
  call is a `createKeySession` with the client of its session. -/

namespace Rialto.Keys.Routing

open Rialto.Lib.OrdMap Rialto.Lib.Runs

/-! ## Events and callbacks -/

inductive ProtoKeyStatus
  | usable
  | expired
  | outputRestricted
  | pending
  | internalError
  | released
  deriving DecidableEq, Repr

inductive KeyStatus
  | usable
  | expired
  | outputRestricted
  | pending
  | internalError
  | released
  deriving DecidableEq, Repr

def convertKeyStatus : ProtoKeyStatus → KeyStatus
  | .usable => .usable
  | .expired => .expired
  | .outputRestricted => .outputRestricted
  | .pending => .pending
  | .internalError => .internalError
  | .released => .released

/-- The bytes are `uint32` fields of the message. -/
inductive Content
  | licenseRequest (message : List ℕ) (url : String)
  | licenseRenewal (message : List ℕ)
  | keyStatusesChanged (keyStatuses : List (List ℕ × ProtoKeyStatus))
  deriving DecidableEq, Repr

structure Event where
  mediaKeysHandle : ℤ
  keySessionId : ℤ
  content : Content
  deriving DecidableEq, Repr

/-- A call of an `IMediaKeysClient`. -/
inductive Callback
  | onLicenseRequest (keySessionId : ℤ) (message : List ℕ) (url : String)
  | onLicenseRenewal (keySessionId : ℤ) (message : List ℕ)
  | onKeyStatusesChanged (keySessionId : ℤ) (keyStatuses : List (List ℕ × KeyStatus))
  deriving DecidableEq, Repr

/-- The elements of a message as `unsigned char`. -/
def bytes (message : List ℕ) : List ℕ := message.map (· % 256)

def Event.callback (event : Event) : Callback :=
  match event.content with
  | .licenseRequest message url => .onLicenseRequest event.keySessionId (bytes message) url
  | .licenseRenewal message => .onLicenseRenewal event.keySessionId (bytes message)
  | .keyStatusesChanged keyStatuses =>
    .onKeyStatusesChanged event.keySessionId
      (keyStatuses.map fun p => (bytes p.1, convertKeyStatus p.2))

/-! ## The module -/

/-- An event that has been handled: the client of its session, if the session was open when the
event came, whether that object had gone, and the call that was made. -/
structure Handled where
  event : Event
  due : Option ℕ
  gone : Bool
  call : Option (ℕ × Callback)
  deriving DecidableEq, Repr

/-- A `MediaKeysIpc` with the client objects: those that have been destroyed, those of the open
sessions, and for every queued event the client of its session when the event came. `closing` are
the calls of `closeKeySession` that wait for the server. -/
structure State where
  mediaKeysHandle : ℤ
  mediaKeysIpcClient : Option ℕ
  destroyed : List ℕ
  sessions : OMap ℤ ℕ
  closing : List ℤ
  eventThread : List (Event × Option ℕ)
  handled : List Handled

def init (mediaKeysHandle : ℤ) : State := ⟨mediaKeysHandle, none, [], OMap.empty, [], [], []⟩

/-- `lock` of a weak pointer. -/
def State.lock (s : State) (client : Option ℕ) : Option ℕ := client.filter (· ∉ s.destroyed)

/-- The call made for an event: `onLicenseRequest`, `onLicenseRenewal` and `onKeyStatusesChanged`
differ in the callback only. -/
def State.call (s : State) (event : Event) : Option (ℕ × Callback) :=
  match s.lock s.mediaKeysIpcClient with
  | some client =>
    if event.mediaKeysHandle = s.mediaKeysHandle then some (client, event.callback) else none
  | none => none

/-- The client of the open session that an event of this `MediaKeysIpc` names. -/
def State.due (s : State) (event : Event) : Option ℕ :=
  if event.mediaKeysHandle = s.mediaKeysHandle then s.sessions.find? event.keySessionId else none

/-- A call of `closeKeySession` is two steps, up to its request and from the answer, with whether
the server has closed the session. -/
inductive Act
  | createKeySession (keySessionId : ℤ) (client : ℕ)
  | closeKeySession (keySessionId : ℤ)
  | closeReturns (keySessionId : ℤ) (closed : Bool)
  | arrive (event : Event)
  | handle
  | destroyClient (client : ℕ)
  deriving DecidableEq, Repr

def step (s : State) : Act → Option State
  | .createKeySession id client =>
    some { s with mediaKeysIpcClient := some client, sessions := s.sessions.insert id client }
  | .closeKeySession id =>
    some { s with mediaKeysIpcClient := none, closing := id :: s.closing }
  | .closeReturns id closed =>
    if id ∈ s.closing then
      some { s with
        closing := s.closing.erase id
        sessions := if closed then s.sessions.erase id else s.sessions }
    else none
  | .arrive event => some { s with eventThread := s.eventThread ++ [(event, s.due event)] }
  | .handle =>
    match s.eventThread with
    | (event, due) :: rest =>
      some { s with
        eventThread := rest
        handled := s.handled ++ [⟨event, due, due.any (· ∈ s.destroyed), s.call event⟩] }
    | [] => none
  | .destroyClient client => some { s with destroyed := client :: s.destroyed }

variable {h : ℤ} {s t : State} {a : Act} {as : List Act}

theorem handle_eq (hstep : step s .handle = some t) :
    ∃ event due rest, s.eventThread = (event, due) :: rest ∧
      t = { s with
        eventThread := rest
        handled := s.handled ++ [⟨event, due, due.any (· ∈ s.destroyed), s.call event⟩] } := by
  unfold step at hstep
  rcases hq : s.eventThread with _ | ⟨⟨event, due⟩, rest⟩
  · simp only [hq] at hstep
    cases hstep
  · simp only [hq, Option.some.injEq] at hstep
    exact ⟨event, due, rest, rfl, hstep.symm⟩

theorem closeReturns_eq {id : ℤ} {closed : Bool}
    (hstep : step s (.closeReturns id closed) = some t) :
    ∃ sessions, t = { s with closing := s.closing.erase id, sessions := sessions } := by
  unfold step at hstep
  dsimp only at hstep
  split at hstep
  · exact ⟨_, (Option.some.inj hstep).symm⟩
  · cases hstep

/-! ## What the calls leave -/

/-- The client in the pointer after the actions. -/
def lastClient : List Act → Option ℕ :=
  List.foldl (fun client a =>
    match a with
    | .createKeySession _ c => some c
    | .closeKeySession _ => none
    | _ => client) none

/-- The events that arrive. -/
def arrivals : List Act → List Event :=
  List.filterMap fun
    | .arrive event => some event
    | _ => none

theorem client_eq (hrun : Run step (fun _ _ => True) (init h) as t) :
    t.mediaKeysIpcClient = lastClient as := by
  refine Run.history (P := fun as t => t.mediaKeysIpcClient = lastClient as) rfl ?_ hrun
  intro as t a u _ ih _ hstep
  have hlast : lastClient (as ++ [a]) = match a with
      | .createKeySession _ c => some c
      | .closeKeySession _ => none
      | _ => lastClient as := by
    unfold lastClient
    rw [List.foldl_append]
    cases a <;> rfl
  rw [hlast]
  cases a with
  | createKeySession id client =>
    cases hstep
    rfl
  | closeKeySession id =>
    cases hstep
    rfl
  | closeReturns id closed =>
    obtain ⟨sessions, rfl⟩ := closeReturns_eq hstep
    exact ih
  | arrive event =>
    cases hstep
    exact ih
  | handle =>
    obtain ⟨event, due, rest, -, rfl⟩ := handle_eq hstep
    exact ih
  | destroyClient client =>
    cases hstep
    exact ih

/-- The handle of the `MediaKeysIpc` stays, and an event that names no session of it has no client
to go to. -/
theorem due_of_foreign (event : Event) (hforeign : event.mediaKeysHandle ≠ s.mediaKeysHandle) :
    s.due event = none ∧ s.call event = none := by
  refine ⟨if_neg hforeign, ?_⟩
  unfold State.call
  rcases s.lock s.mediaKeysIpcClient with _ | client
  · rfl
  · exact if_neg hforeign

/-- Every event that arrives is handled once, in the order of arrival. -/
theorem handled_in_order (hrun : Run step (fun _ _ => True) (init h) as t) :
    t.handled.map (·.event) ++ t.eventThread.map (·.1) = arrivals as := by
  refine Run.history
    (P := fun as t => t.handled.map (·.event) ++ t.eventThread.map (·.1) = arrivals as) rfl ?_ hrun
  intro as t a u _ ih _ hstep
  have hsnoc : arrivals (as ++ [a]) = arrivals as ++ arrivals [a] := List.filterMap_append ..
  rw [hsnoc, ← ih]
  cases a with
  | createKeySession id client =>
    cases hstep
    exact (List.append_nil _).symm
  | closeKeySession id =>
    cases hstep
    exact (List.append_nil _).symm
  | closeReturns id closed =>
    obtain ⟨sessions, rfl⟩ := closeReturns_eq hstep
    exact (List.append_nil _).symm
  | arrive event =>
    cases hstep
    simp [arrivals]
  | handle =>
    obtain ⟨event, due, rest, hq, rfl⟩ := handle_eq hstep
    simp [arrivals, hq]
  | destroyClient client =>
    cases hstep
    exact (List.append_nil _).symm

/-! ## Routing -/

/-- An event that came while its session was open goes to the client object of that session, and
if this has gone to none. -/
def Routed (x : Handled) : Prop :=
  ∀ client, x.due = some client →
    x.call = if x.gone then none else some (client, x.event.callback)

/-- The client that is left in the pointer is `client`, or both have gone. -/
def Reaches (s : State) (last : Option ℕ) (client : ℕ) : Prop :=
  last = some client ∨ client ∈ s.destroyed ∧ ∀ c, last = some c → c ∈ s.destroyed

/-- The events with a client to go to are those of this `MediaKeysIpc`. -/
def Own (s : State) : Prop :=
  ∀ event client, (event, some client) ∈ s.eventThread → event.mediaKeysHandle = s.mediaKeysHandle

theorem own_step (hs : Own s) (hstep : step s a = some t) : Own t := by
  cases a with
  | createKeySession id client =>
    cases hstep
    exact hs
  | closeKeySession id =>
    cases hstep
    exact hs
  | closeReturns id closed =>
    obtain ⟨sessions, rfl⟩ := closeReturns_eq hstep
    exact hs
  | arrive event =>
    cases hstep
    intro event' client hmem
    rcases List.mem_append.mp hmem with hmem | hmem
    · exact hs event' client hmem
    · obtain ⟨rfl, hdue⟩ := Prod.mk.inj (List.mem_singleton.mp hmem)
      by_contra hforeign
      have hnone : s.due event' = none := (due_of_foreign event' hforeign).1
      rw [hnone] at hdue
      cases hdue
  | handle =>
    obtain ⟨event, due, rest, hq, rfl⟩ := handle_eq hstep
    intro event' client hmem
    exact hs event' client (hq ▸ List.mem_cons_of_mem _ hmem)
  | destroyClient client =>
    cases hstep
    exact hs

/-- Where the event of an open session goes. -/
theorem routed_call_iff {event : Event} {client : ℕ}
    (hown : event.mediaKeysHandle = s.mediaKeysHandle) :
    Routed ⟨event, some client, decide (client ∈ s.destroyed), s.call event⟩ ↔
      Reaches s s.mediaKeysIpcClient client := by
  have hcall : s.call event = (s.lock s.mediaKeysIpcClient).map (·, event.callback) := by
    unfold State.call
    rcases s.lock s.mediaKeysIpcClient with _ | c
    · rfl
    · exact if_pos hown
  have hrouted : Routed ⟨event, some client, decide (client ∈ s.destroyed), s.call event⟩ ↔
      s.call event = if client ∈ s.destroyed then none else some (client, event.callback) := by
    unfold Routed
    constructor
    · intro hx
      simpa using hx client rfl
    · intro hx c hc
      cases hc
      simpa using hx
  rw [hrouted, hcall]
  unfold Reaches State.lock
  rcases s.mediaKeysIpcClient with _ | c
  · simp
  · by_cases hgone : client ∈ s.destroyed
    · by_cases hc : c ∈ s.destroyed
      · simp [hgone, hc]
      · have hne : c ≠ client := fun heq => hc (heq ▸ hgone)
        simp [hgone, hc, hne]
    · by_cases hc : c ∈ s.destroyed
      · have hne : c ≠ client := fun heq => hgone (heq ▸ hc)
        simp [hgone, hc, hne]
      · simp [hgone, hc]

/-- The condition on a step: the event of an open session is handled when the pointer leads to the
client of that session. -/
def Good (s : State) (a : Act) : Prop :=
  a = .handle → ∀ event client rest, s.eventThread = (event, some client) :: rest →
    Reaches s s.mediaKeysIpcClient client

/-- **One step.** -/
theorem routed_step_iff (hown : Own s) (hs : ∀ x ∈ s.handled, Routed x)
    (hstep : step s a = some t) : (∀ x ∈ t.handled, Routed x) ↔ Good s a := by
  have hsame : t.handled = s.handled → a ≠ .handle →
      ((∀ x ∈ t.handled, Routed x) ↔ Good s a) := by
    intro hhandled ha
    rw [hhandled]
    exact ⟨fun _ h => absurd h ha, fun _ => hs⟩
  cases a with
  | createKeySession id client =>
    cases hstep
    exact hsame rfl (fun h => by cases h)
  | closeKeySession id =>
    cases hstep
    exact hsame rfl (fun h => by cases h)
  | closeReturns id closed =>
    obtain ⟨sessions, rfl⟩ := closeReturns_eq hstep
    exact hsame rfl (fun h => by cases h)
  | arrive event =>
    cases hstep
    exact hsame rfl (fun h => by cases h)
  | destroyClient client =>
    cases hstep
    exact hsame rfl (fun h => by cases h)
  | handle =>
    obtain ⟨event, due, rest, hq, rfl⟩ := handle_eq hstep
    have hlast : (∀ x ∈ s.handled ++ [⟨event, due, due.any (· ∈ s.destroyed), s.call event⟩],
        Routed x) ↔ Routed ⟨event, due, due.any (· ∈ s.destroyed), s.call event⟩ := by
      constructor
      · exact fun hx => hx _ (List.mem_append_right _ (List.mem_singleton_self _))
      · intro hx x hmem
        rcases List.mem_append.mp hmem with hmem | hmem
        · exact hs x hmem
        · exact List.mem_singleton.mp hmem ▸ hx
    refine hlast.trans ?_
    cases due with
    | none =>
      refine ⟨fun _ _ event' client rest' hq' => ?_, fun _ client hc => by cases hc⟩
      rw [hq] at hq'
      cases hq'
    | some client =>
      have hmine := hown event client (hq ▸ List.mem_cons_self ..)
      refine (routed_call_iff hmine).trans ⟨fun hr _ event' client' rest' hq' => ?_, fun hg => ?_⟩
      · rw [hq] at hq'
        cases hq'
        exact hr
      · exact hg rfl event client rest hq

/-- **When events are routed.** -/
theorem routed_iff (hrun : Run step (fun _ _ => True) (init h) as t) :
    t.handled.map (·.event) ++ t.eventThread.map (·.1) = arrivals as ∧
      ((∀ pre post s, as = pre ++ post → Run step (fun _ _ => True) (init h) pre s →
          ∀ x ∈ s.handled, Routed x) ↔
        ∀ pre post s, as = pre ++ .handle :: post → Run step (fun _ _ => True) (init h) pre s →
          ∀ event client rest, s.eventThread = (event, some client) :: rest →
            Reaches s (lastClient pre) client) := by
  refine ⟨handled_in_order hrun, ?_⟩
  have halways := Run.always_iff Own (fun s => ∀ x ∈ s.handled, Routed x) Good
    (fun event client hmem => by cases hmem) (fun _ _ _ hs ha => own_step hs ha)
    (fun x hx => by cases hx) (fun _ _ _ hown hs ha => routed_step_iff hown hs ha) hrun
  refine halways.trans ⟨fun hgood pre post s heq hpre event client rest hq => ?_, ?_⟩
  · rw [← client_eq hpre]
    exact hgood .handle s ⟨pre, post, heq, hpre⟩ rfl event client rest hq
  · rintro hlast a s ⟨pre, post, heq, hpre⟩ rfl event client rest hq
    rw [client_eq hpre]
    exact hlast pre post s heq hpre event client rest hq

/-- Two sessions, the second opened when the first is closed: all events that come while their
session is open are routed. -/
theorem routed_in_turn : ∃ t, Run step (fun _ _ => True) (init 1)
    [.createKeySession 5 10, .arrive ⟨1, 5, .licenseRenewal [1]⟩, .handle, .closeKeySession 5,
      .closeReturns 5 true, .createKeySession 6 20,
      .arrive ⟨1, 6, .keyStatusesChanged [([2], .usable)]⟩, .handle] t ∧
    t.handled.map (·.call) = [some (10, .onLicenseRenewal 5 [1]),
      some (20, .onKeyStatusesChanged 6 [([2], .usable)])] ∧
    (t.handled.map (·.event) ++ t.eventThread.map (·.1)).length = 2 := by
  refine Run.exists_of_runs (fun t => t.handled.map (·.call))
    [some (10, .onLicenseRenewal 5 [1]), some (20, .onKeyStatusesChanged 6 [([2], .usable)])]
    (by decide) ?_
  intro t hrun hcalls
  refine ⟨hcalls, ?_⟩
  rw [(routed_iff hrun).1]
  rfl

/-- With two sessions open, an event of the first goes to the client of the second; and an event of
a session that the server has refused to close goes to none. -/
theorem event_misrouted :
    (∃ t, Run step (fun _ _ => True) (init 1)
      [.createKeySession 5 10, .createKeySession 6 20, .arrive ⟨1, 5, .licenseRenewal [1]⟩,
        .handle] t ∧ ¬ ∀ x ∈ t.handled, Routed x) ∧
    (∃ t, Run step (fun _ _ => True) (init 1)
      [.createKeySession 5 10, .closeKeySession 5, .closeReturns 5 false,
        .arrive ⟨1, 5, .licenseRenewal [1]⟩, .handle] t ∧ ¬ ∀ x ∈ t.handled, Routed x) := by
  have hmisrouted : ∀ {t : State} {call}, t.handled =
      [⟨⟨1, 5, .licenseRenewal [1]⟩, some 10, false, call⟩] →
      call ≠ some (10, .onLicenseRenewal 5 [1]) → ¬ ∀ x ∈ t.handled, Routed x := by
    intro t call hhandled hcall hrouted
    exact hcall (hrouted _ (hhandled ▸ List.mem_singleton_self _) 10 rfl)
  constructor
  · exact Run.exists_of_runs (·.handled) [⟨⟨1, 5, .licenseRenewal [1]⟩, some 10, false,
      some (20, .onLicenseRenewal 5 [1])⟩] (by decide)
      fun t _ hhandled => hmisrouted hhandled (by decide)
  · exact Run.exists_of_runs (·.handled) [⟨⟨1, 5, .licenseRenewal [1]⟩, some 10, false, none⟩]
      (by decide) fun t _ hhandled => hmisrouted hhandled (by decide)

end Rialto.Keys.Routing
