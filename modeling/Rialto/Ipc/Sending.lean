import Rialto.Ipc.ServerCalls

/-! # Sending to a client

`sendReply` and `sendEvent` of the server may be called by any thread for any client id, and the
objects of the clients live longer than their entries in `m_clients`. A message is built first; the
section that sends it looks the id up under `m_clientsLock`. Meanwhile `process` accepts clients,
removes the condemned ones from the map and closes their sockets, whose descriptors the next
connections get again.

* `State`: the server of `Ipc.Server` with the sockets of its clients, the descriptors of the
  process and the messages that are being sent.
* `Inv`: a descriptor in `m_clients` is open, is no other client's, and leads to the connection that
  was accepted for the id.
* `isolated_iff`: all messages go where they should, or nowhere when the id is not in the map,
  exactly when every `sendEvent` that gets to its section finds its id: it does not check what
  `find` returns, as `sendReply` does. -/

namespace Rialto.Ipc.Sending

open Rialto.Lib.OrdMap Rialto.Lib.Runs Rialto.Ipc.Server
open scoped List

variable {ρ β : Type*}

/-! ## Sockets -/

/-- The socket of a client: its descriptor, and the number of the connection it was made for. -/
structure Socket where
  fd : ℤ
  connection : ℕ
  deriving DecidableEq, Repr

/-- A message for a client that has been built: an event, or a reply, whose `msghdr` may be null. -/
inductive Call
  | event (clientId : ℕ)
  | reply (clientId : ℕ) (msg : Bool)
  deriving DecidableEq, Repr

/-- How a call ended. `undefined` is a read through the end of the map. -/
inductive Result
  | returned (result : Bool)
  | done
  | undefined
  deriving DecidableEq, Repr

/-- A call that has ended: the connection accepted for its id, if the id was in `m_clients`, and
the connection the message was written to. -/
structure Sent where
  call : Call
  accepted : Option ℕ
  wrote : Option ℕ
  result : Result
  deriving DecidableEq, Repr

/-- The server with its sockets: those in `m_clients`, those of the connections that are to be
added, the one in the `details` of the client being removed, and for every open descriptor of a
client socket the connection it leads to. -/
structure State (β : Type*) where
  server : Server.State β
  sockets : OMap ℕ Socket
  arriving : List (ℕ × Socket)
  leaving : Option Socket
  fds : OMap ℤ ℕ
  nextConnection : ℕ
  calls : List Call
  sends : List Sent

def init : State β where
  server := Server.init
  sockets := OMap.empty
  arriving := []
  leaving := none
  fds := OMap.empty
  nextConnection := 0
  calls := []
  sends := []

/-! ## The two functions -/

/-- `sendmsg`: the message is written to the connection of an open descriptor, unless it fails. -/
def State.sendmsg (s : State β) (fd : ℤ) (complete : Bool) : Option ℕ :=
  if complete then s.fds.find? fd else none

/-- The section of `sendEvent` under the lock. -/
def State.sendEvent (s : State β) (clientId : ℕ) (complete : Bool) : Sent :=
  match s.sockets.find? clientId with
  | none => ⟨.event clientId, none, none, .undefined⟩
  | some sock =>
    if sock.fd < 0 then ⟨.event clientId, some sock.connection, none, .returned false⟩
    else
      match s.sendmsg sock.fd complete with
      | none => ⟨.event clientId, some sock.connection, none, .returned false⟩
      | some c => ⟨.event clientId, some sock.connection, some c, .returned true⟩

/-- `sendReply`. -/
def State.sendReply (s : State β) (clientId : ℕ) (msg complete : Bool) : Sent :=
  match s.sockets.find? clientId with
  | none => ⟨.reply clientId msg, none, none, .done⟩
  | some sock =>
    if sock.fd < 0 then ⟨.reply clientId msg, some sock.connection, none, .done⟩
    else if msg then
      ⟨.reply clientId msg, some sock.connection, s.sendmsg sock.fd complete, .done⟩
    else ⟨.reply clientId msg, some sock.connection, none, .done⟩

def State.send (s : State β) (call : Call) (complete : Bool) : Sent :=
  match call with
  | .event clientId => s.sendEvent clientId complete
  | .reply clientId msg => s.sendReply clientId msg complete

/-- The call runs its section and ends. -/
def State.finish (s : State β) (call : Call) (complete : Bool) : State β :=
  { s with sends := s.sends ++ [s.send call complete] }

/-- A `sendEvent` whose message cannot be built, because it is too long, returns before the lock. -/
def State.abandon (s : State β) (clientId : ℕ) : State β :=
  { s with sends := s.sends ++
      [⟨.event clientId, (s.sockets.find? clientId).map Socket.connection, none,
        .returned false⟩] }

/-! ## Steps -/

/-- What `process` does to the sockets: a condemned client leaves the map with its `details`, and
then its socket is closed. -/
def State.moved (s : State β) : Action ρ β → State β
  | .sweepNext =>
    match s.server.phase with
    | .sweeping (clientId :: _) =>
      match s.sockets.find? clientId with
      | some sock => { s with sockets := s.sockets.erase clientId, leaving := some sock }
      | none => s
    | _ => s
  | .closeSocket =>
    match s.leaving with
    | some sock => { s with fds := s.fds.erase sock.fd, leaving := none }
    | none => s
  | _ => s

/-- The client to which a step of the server replies, if it does: the one a closure was made for,
or the one whose call is refused. -/
def replying (s : Server.State β) : Action ρ β → Option ℕ
  | .done p _ _ => some p.clientId
  | .receive _ _ =>
    match s.phase with
    | .reading clientId _ => some clientId
    | _ => none
  | _ => none

def isAnswer : Entry β → Bool
  | .answered _ _ => true
  | _ => false

/-- The step sends a reply. -/
def answersNow (s s' : Server.State β) : Bool :=
  (s'.log.drop s.log.length).any isAnswer

/-- Whether `sendmsg` takes the reply of a step. -/
def completes : Action ρ β → Bool
  | .done _ _ complete => complete
  | .receive _ complete => complete
  | _ => true

/-- The steps. A connection is accepted under a descriptor that is free, and then added; every
other step of the server is one here; and a thread builds a message and runs the section that sends
it. -/
inductive Act (ρ β : Type*)
  | accept (disconnectedCb epollAdded : Bool) (fd : ℤ)
  | emplace (clientId : ℕ) (disconnectedCb : Bool) (sock : Socket)
  | server (a : Action ρ β)
  | build (call : Call) (built : Bool)
  | send (call : Call) (complete : Bool)

/-- The steps of the server that come with a socket. -/
def registers : Action ρ β → Bool
  | .takeId _ _ => true
  | .emplaceClient _ _ => true
  | _ => false

def step (env : Env ρ β) (s : State β) : Act ρ β → Option (State β)
  | .accept disconnectedCb epollAdded fd =>
    if 0 ≤ fd ∧ fd ∉ s.fds.keys then
      (Server.step env s.server (.takeId disconnectedCb epollAdded)).map fun server =>
        if epollAdded then
          { s with
            server
            arriving := (s.server.clientIdCounter, ⟨fd, s.nextConnection⟩) :: s.arriving
            fds := s.fds.insert fd s.nextConnection
            nextConnection := s.nextConnection + 1 }
        else { s with server }
    else none
  | .emplace clientId disconnectedCb sock =>
    if (clientId, sock) ∈ s.arriving then
      (Server.step env s.server (.emplaceClient clientId disconnectedCb)).map fun server =>
        { s with
          server
          arriving := s.arriving.erase (clientId, sock)
          sockets := s.sockets.emplace clientId sock }
    else none
  | .server a =>
    if registers a then none
    else
      (Server.step env s.server a).map fun server =>
        match replying s.server a with
        | some clientId =>
          if answersNow s.server server then
            { s.moved a with server }.finish (.reply clientId true) (completes a)
          else { s.moved a with server }
        | none => { s.moved a with server }
  | .build call built =>
    match call, built with
    | .event clientId, false => some (s.abandon clientId)
    | _, _ => some { s with calls := call :: s.calls }
  | .send call complete =>
    if call ∈ s.calls then
      some ({ s with calls := s.calls.erase call }.finish call complete)
    else none

/-! ## The invariant -/

/-- The sockets that have not been closed. -/
def State.held (s : State β) : List Socket :=
  s.sockets.entries.map Prod.snd ++ (s.leaving.toList ++ s.arriving.map Prod.snd)

/-- The sockets have different descriptors, and each of these is open and leads to the connection
of the socket. -/
structure Open (fds : OMap ℤ ℕ) (held : List Socket) : Prop where
  distinct : (held.map Socket.fd).Nodup
  leads : ∀ x ∈ held, 0 ≤ x.fd ∧ fds.find? x.fd = some x.connection

/-- **The invariant.** -/
structure Inv (s : State β) : Prop where
  keys : ∀ c, c ∈ s.sockets.keys ↔ c ∈ s.server.clients.keys
  sockets : Open s.fds s.held

theorem inv_init : Inv (init : State β) where
  keys := fun _ => Iff.rfl
  sockets := ⟨List.nodup_nil, fun _ h => by cases h⟩

/-- Fewer sockets, in another order. -/
theorem Open.mono {fds : OMap ℤ ℕ} {held held' : List Socket} (h : Open fds held)
    (hsub : held' <+~ held) : Open fds held' := by
  obtain ⟨l, hperm, hl⟩ := hsub
  refine ⟨?_, fun x hx => h.leads x (hl.subset (hperm.symm.subset hx))⟩
  exact ((hperm.map Socket.fd).nodup_iff).mp (h.distinct.sublist (hl.map Socket.fd))

/-- A connection is accepted under a descriptor that is free. -/
theorem Open.accept {fds : OMap ℤ ℕ} {held : List Socket} (h : Open fds held) {fd : ℤ}
    (hfd : 0 ≤ fd) (hfree : fd ∉ fds.keys) (connection : ℕ) :
    Open (fds.insert fd connection) (⟨fd, connection⟩ :: held) := by
  have hne : ∀ x ∈ held, x.fd ≠ fd := by
    rintro x hx rfl
    have := (h.leads x hx).2
    rw [OMap.find?_eq_none.mpr hfree] at this
    cases this
  refine ⟨?_, fun x hx => ?_⟩
  · rw [List.map_cons, List.nodup_cons]
    refine ⟨fun hmem => ?_, h.distinct⟩
    obtain ⟨x, hx, hxfd⟩ := List.mem_map.mp hmem
    exact hne x hx hxfd
  · rcases List.mem_cons.mp hx with rfl | hx
    · exact ⟨hfd, by rw [OMap.find?_insert, if_pos rfl]⟩
    · refine ⟨(h.leads x hx).1, ?_⟩
      rw [OMap.find?_insert, if_neg (hne x hx)]
      exact (h.leads x hx).2

/-- A socket is closed, and its descriptor is free again. -/
theorem Open.close {fds : OMap ℤ ℕ} {held : List Socket} {x : Socket}
    (h : Open fds (x :: held)) : Open (fds.erase x.fd) held := by
  have hnodup := h.distinct
  rw [List.map_cons, List.nodup_cons] at hnodup
  refine ⟨hnodup.2, fun y hy => ?_⟩
  have hne : y.fd ≠ x.fd := fun heq => hnodup.1 (heq ▸ List.mem_map_of_mem hy)
  refine ⟨(h.leads y (List.mem_cons_of_mem _ hy)).1, ?_⟩
  rw [OMap.find?_erase, if_neg hne]
  exact (h.leads y (List.mem_cons_of_mem _ hy)).2

/-! ## Steps of the server -/

section Server

variable {env : Env ρ β} {s s' : Server.State β} {a : Action ρ β}

theorem clients_processMethodCall (env : Env ρ β) (s : Server.State β) (n c : ℕ)
    (call : MethodCall ρ) (fds : List ℤ) (complete : Bool) :
    (processMethodCall env s n c call fds complete).clients = s.clients := by
  obtain ⟨r, heq⟩ | heq | heq | heq :=
    ServerSteps.processMethodCall_cases env s n c call fds complete
  · rw [heq]
    rfl
  · rw [heq]
  · rw [heq]
    rfl
  · rw [heq]
    rfl

/-- Besides `emplaceClient` and the sweep, no step changes `m_clients`. -/
theorem clients_step (h : Server.step env s a = some s') (hreg : registers a = false)
    (hsweep : a ≠ .sweepNext) : s'.clients = s.clients := by
  cases a with
  | takeId cb added => cases hreg
  | emplaceClient c cb => cases hreg
  | exportService c name =>
    cases h
    rfl
  | disconnectClient c =>
    simp only [Server.step] at h
    split_ifs at h
    cases h
    rfl
  | poll events =>
    simp only [Server.step] at h
    split at h <;> cases h
    rfl
  | nextEvent =>
    simp only [Server.step] at h
    split at h <;> cases h
    rfl
  | socketError =>
    simp only [Server.step] at h
    split at h <;> cases h
    rfl
  | receive r complete =>
    simp only [Server.step] at h
    split at h <;> cases h
    cases r with
    | wouldBlock => rfl
    | error => rfl
    | closed => rfl
    | truncated => rfl
    | other => rfl
    | call call fds => exact clients_processMethodCall env s _ _ call _ complete
  | endEvents =>
    simp only [Server.step] at h
    split at h
    · split_ifs at h <;> cases h <;> rfl
    · cases h
  | sweepNext => exact absurd rfl hsweep
  | closeSocket =>
    simp only [Server.step] at h
    split at h <;> cases h
    rfl
  | notify =>
    simp only [Server.step] at h
    split at h <;> cases h
    rfl
  | done p outcome complete =>
    simp only [Server.step] at h
    split_ifs at h
    cases h
    obtain ⟨r, heq, -⟩ :=
      ServerSteps.handleResponse_eq env { s with pending := s.pending.erase p } p outcome complete
    rw [heq]
    rfl

end Server

/-! ## Every step keeps the invariant -/

section Steps

variable {env : Env ρ β} {s t : State β}

/-- The sends and the calls under way are not part of it. -/
theorem Inv.of_eq (h : Inv s) (hserver : t.server.clients = s.server.clients)
    (hsockets : t.sockets = s.sockets) (harriving : t.arriving = s.arriving)
    (hleaving : t.leaving = s.leaving) (hfds : t.fds = s.fds) : Inv t where
  keys := by
    rw [hserver, hsockets]
    exact h.keys
  sockets := by
    have hheld : t.held = s.held := by
      unfold State.held
      rw [hsockets, harriving, hleaving]
    rw [hheld, hfds]
    exact h.sockets

theorem accept_eq {cb added : Bool} {fd : ℤ} (hstep : step env s (.accept cb added fd) = some t) :
    (0 ≤ fd ∧ fd ∉ s.fds.keys) ∧
      ∃ server, Server.step env s.server (.takeId cb added) = some server ∧
        (if added then
          { s with
            server
            arriving := (s.server.clientIdCounter, ⟨fd, s.nextConnection⟩) :: s.arriving
            fds := s.fds.insert fd s.nextConnection
            nextConnection := s.nextConnection + 1 }
        else { s with server }) = t := by
  by_cases hfd : 0 ≤ fd ∧ fd ∉ s.fds.keys
  · simp only [step, if_pos hfd] at hstep
    exact ⟨hfd, Option.map_eq_some_iff.mp hstep⟩
  · simp only [step, if_neg hfd] at hstep
    cases hstep

theorem inv_accept (h : Inv s) {cb added : Bool} {fd : ℤ}
    (hstep : step env s (.accept cb added fd) = some t) : Inv t := by
  obtain ⟨hfd, server, hserver, rfl⟩ := accept_eq hstep
  cases hserver
  cases added with
  | false => exact h.of_eq rfl rfl rfl rfl rfl
  | true =>
    refine ⟨h.keys, (h.sockets.accept hfd.1 hfd.2 s.nextConnection).mono ?_⟩
    refine List.Perm.subperm ?_
    unfold State.held
    simp only [if_true]
    rw [← List.append_assoc, ← List.append_assoc]
    exact List.perm_middle

theorem inv_emplace (h : Inv s) {c : ℕ} {cb : Bool} {sock : Socket}
    (hstep : step env s (.emplace c cb sock) = some t) : Inv t := by
  simp only [step] at hstep
  split_ifs at hstep with hmem
  obtain ⟨server, hserver, rfl⟩ := Option.map_eq_some_iff.mp hstep
  simp only [Server.step] at hserver
  split_ifs at hserver
  cases hserver
  refine ⟨fun d => ?_, h.sockets.mono ?_⟩
  · show d ∈ (s.sockets.emplace c sock).keys ↔ d ∈ (s.server.clients.emplace c cb).keys
    rw [OMap.mem_keys_emplace, OMap.mem_keys_emplace, h.keys]
  · have harriving : (s.arriving.map Prod.snd).Perm
        (sock :: (s.arriving.erase (c, sock)).map Prod.snd) :=
      (List.perm_cons_erase hmem).map Prod.snd
    show (s.sockets.emplace c sock).entries.map Prod.snd ++ (s.leaving.toList ++
      (s.arriving.erase (c, sock)).map Prod.snd) <+~ s.held
    by_cases hc : c ∈ s.sockets.keys
    · -- the id is in use, and the socket of this connection is lost
      have hsame : s.sockets.emplace c sock = s.sockets := by
        unfold OMap.emplace
        rw [if_pos (Option.isSome_iff_ne_none.mpr fun hn => OMap.find?_eq_none.mp hn hc)]
      rw [hsame]
      refine List.Sublist.subperm ((List.append_sublist_append_left _).mpr ?_)
      refine (List.append_sublist_append_left _).mpr ?_
      exact (List.erase_sublist).map Prod.snd
    · have hentries := (OMap.emplace_perm (v := sock) hc).map Prod.snd
      refine List.Perm.subperm ?_
      refine (hentries.append_right _).trans ?_
      refine List.Perm.trans ?_ ((harriving.symm.append_left _).append_left _)
      rw [List.map_cons, List.cons_append, ← List.append_assoc, ← List.append_assoc]
      exact List.perm_middle.symm

/-- The server thread removes a client or closes its socket. -/
theorem inv_moved (h : Inv s) {a : Action ρ β} {server : Server.State β}
    (hreg : registers a = false) (hserver : Server.step env s.server a = some server) :
    Inv { s.moved a with server } := by
  by_cases hsweep : a = .sweepNext
  · subst hsweep
    simp only [Server.step] at hserver
    unfold State.moved
    rcases hphase : s.server.phase with _ | _ | _ | _ | l | _ | _ <;> simp only [hphase] at hserver
    case sweeping =>
      rcases l with _ | ⟨c, cs⟩
      · cases hserver
        exact h.of_eq rfl rfl rfl rfl rfl
      · simp only at hserver
        rcases hfind : s.server.clients.find? c with _ | cb
        · have hnone : s.sockets.find? c = none :=
            OMap.find?_eq_none.mpr fun hc => OMap.find?_eq_none.mp hfind ((h.keys c).mp hc)
          rw [hfind] at hserver
          cases hserver
          simp only [hnone]
          exact h.of_eq rfl rfl rfl rfl rfl
        · have hc : c ∈ s.sockets.keys := by
            rw [h.keys]
            exact OMap.mem_keys.mpr ⟨cb, OMap.find?_eq_some.mp hfind⟩
          obtain ⟨sock, hsock⟩ := OMap.mem_keys.mp hc
          rw [hfind] at hserver
          cases hserver
          simp only [OMap.find?_eq_some.mpr hsock]
          refine ⟨fun d => ?_, h.sockets.mono ?_⟩
          · show d ∈ (s.sockets.erase c).keys ↔ d ∈ (s.server.clients.erase c).keys
            rw [OMap.mem_keys_erase, OMap.mem_keys_erase, h.keys]
          · have hentries := (OMap.erase_perm hsock).map Prod.snd
            show (s.sockets.erase c).entries.map Prod.snd ++ ([sock] ++
              s.arriving.map Prod.snd) <+~ s.held
            have hperm : ((s.sockets.erase c).entries.map Prod.snd ++ ([sock] ++
                s.arriving.map Prod.snd)).Perm
                (s.sockets.entries.map Prod.snd ++ s.arriving.map Prod.snd) :=
              List.perm_middle.trans (hentries.append_right _)
            refine hperm.subperm.trans (List.Sublist.subperm ?_)
            exact (List.append_sublist_append_left _).mpr (List.sublist_append_right ..)
    all_goals cases hserver
  · have hclients := clients_step hserver hreg hsweep
    by_cases hclose : a = .closeSocket
    · subst hclose
      unfold State.moved
      rcases hleaving : s.leaving with _ | sock
      · simp only
        exact h.of_eq hclients rfl rfl rfl rfl
      · simp only
        refine ⟨fun d => by rw [hclients]; exact h.keys d, ?_⟩
        have hopen : Open s.fds (sock :: (s.sockets.entries.map Prod.snd ++
            s.arriving.map Prod.snd)) := by
          refine h.sockets.mono (List.Perm.subperm ?_)
          unfold State.held
          rw [hleaving]
          exact List.perm_middle.symm
        exact hopen.close
    · have hsame : s.moved a = s := by
        unfold State.moved
        cases a <;> first | rfl | exact absurd rfl hsweep | exact absurd rfl hclose
      rw [hsame]
      exact h.of_eq hclients rfl rfl rfl rfl

theorem inv_step (h : Inv s) {a : Act ρ β} (hstep : step env s a = some t) : Inv t := by
  cases a with
  | accept cb added fd => exact inv_accept h hstep
  | emplace c cb sock => exact inv_emplace h hstep
  | server a =>
    simp only [step] at hstep
    split_ifs at hstep with hreg
    obtain ⟨server, hserver, rfl⟩ := Option.map_eq_some_iff.mp hstep
    have hmoved := inv_moved h (Bool.eq_false_iff.mpr hreg) hserver
    split
    · split_ifs
      · exact hmoved.of_eq rfl rfl rfl rfl rfl
      · exact hmoved
    · exact hmoved
  | build call built =>
    simp only [step] at hstep
    split at hstep <;> cases hstep
    · exact h.of_eq rfl rfl rfl rfl rfl
    · exact h.of_eq rfl rfl rfl rfl rfl
  | send call complete =>
    simp only [step] at hstep
    split_ifs at hstep
    cases hstep
    exact h.of_eq rfl rfl rfl rfl rfl

end Steps

/-! ## Isolation -/

/-- A call that has ended as it should: with the id in `m_clients`, the message has gone to the
socket accepted for the id or nowhere; without, nothing was written, and `sendEvent` has returned
false. -/
def Isolated (x : Sent) : Prop :=
  match x.accepted with
  | some c => x.wrote = none ∨ x.wrote = some c
  | none =>
    x.wrote = none ∧
      x.result = match x.call with
        | .event _ => .returned false
        | .reply _ _ => .done

section Sends

variable {env : Env ρ β} {s t : State β}

/-- What a socket in `m_clients` leads to. -/
theorem Inv.leads_find? (h : Inv s) {c : ℕ} {sock : Socket}
    (hfind : s.sockets.find? c = some sock) :
    0 ≤ sock.fd ∧ s.fds.find? sock.fd = some sock.connection :=
  h.sockets.leads sock
    (List.mem_append_left _ (List.mem_map_of_mem (f := Prod.snd) (OMap.find?_eq_some.mp hfind)))

theorem sendmsg_eq (h : Inv s) {c : ℕ} {sock : Socket} (hfind : s.sockets.find? c = some sock)
    (complete : Bool) :
    ¬ sock.fd < 0 ∧
      (s.sendmsg sock.fd complete = none ∨
        s.sendmsg sock.fd complete = some sock.connection) := by
  obtain ⟨hfd, hleads⟩ := h.leads_find? hfind
  refine ⟨not_lt.mpr hfd, ?_⟩
  unfold State.sendmsg
  cases complete
  · exact Or.inl rfl
  · exact Or.inr hleads

theorem isolated_sendReply (h : Inv s) (c : ℕ) (msg complete : Bool) :
    Isolated (s.sendReply c msg complete) := by
  unfold State.sendReply
  rcases hfind : s.sockets.find? c with _ | sock
  · exact ⟨rfl, rfl⟩
  · obtain ⟨hfd, hmsg⟩ := sendmsg_eq h hfind complete
    simp only [if_neg hfd]
    cases msg
    · exact Or.inl rfl
    · exact hmsg

/-- **`sendEvent` under the lock.** -/
theorem isolated_sendEvent_iff (h : Inv s) (c : ℕ) (complete : Bool) :
    Isolated (s.sendEvent c complete) ↔ c ∈ s.server.clients.keys := by
  rw [← h.keys]
  unfold State.sendEvent
  rcases hfind : s.sockets.find? c with _ | sock
  · refine ⟨fun hiso => ?_, fun hc => absurd hc (OMap.find?_eq_none.mp hfind)⟩
    cases hiso.2
  · have hc : c ∈ s.sockets.keys := OMap.mem_keys.mpr ⟨sock, OMap.find?_eq_some.mp hfind⟩
    refine ⟨fun _ => hc, fun _ => ?_⟩
    obtain ⟨hfd, hmsg⟩ := sendmsg_eq h hfind complete
    simp only [if_neg hfd]
    rcases hmsg with hmsg | hmsg <;> rw [hmsg]
    · exact Or.inl rfl
    · exact Or.inr rfl

theorem accepted_sendReply (s : State β) (c : ℕ) (msg complete : Bool) :
    (s.sendReply c msg complete).accepted = none ↔ c ∉ s.sockets.keys := by
  rw [← OMap.find?_eq_none]
  unfold State.sendReply
  rcases s.sockets.find? c with _ | sock
  · exact ⟨fun _ => rfl, fun _ => rfl⟩
  · simp only
    split_ifs
    · exact ⟨fun h => (by cases h), fun h => by cases h⟩
    · exact ⟨fun h => (by cases h), fun h => by cases h⟩
    · exact ⟨fun h => (by cases h), fun h => by cases h⟩

/-- The reply is written unless the client is gone or `sendmsg` fails. -/
theorem wrote_sendReply (h : Inv s) (c : ℕ) (complete : Bool) :
    (s.sendReply c true complete).wrote = none ↔
      (s.sendReply c true complete).accepted = none ∨ complete = false := by
  unfold State.sendReply
  rcases hfind : s.sockets.find? c with _ | sock
  · exact ⟨fun _ => Or.inl rfl, fun _ => rfl⟩
  · obtain ⟨hfd, hopen⟩ := h.leads_find? hfind
    simp only [if_neg (not_lt.mpr hfd), if_true]
    cases complete with
    | true => simp [State.sendmsg, hopen]
    | false => simp [State.sendmsg]

/-- What the log of the server says about the reply to a call is what happens to it here: it goes
out, or finds its client gone, or is lost. -/
theorem reply_logged (h : Inv s) {p : Pending} {outcome : Outcome β} {complete : Bool}
    (hstep : step env s (.server (.done p outcome complete)) = some t) :
    ∃ r x, t.server.log = s.server.log ++ [.answered p.n r] ∧ t.sends = s.sends ++ [x] ∧
      (r = .gone ↔ x.accepted = none) ∧ (r = .failed ↔ x.accepted ≠ none ∧ x.wrote = none) := by
  simp only [step, registers, Bool.false_eq_true, if_false] at hstep
  obtain ⟨server, hserver, rfl⟩ := Option.map_eq_some_iff.mp hstep
  simp only [Server.step] at hserver
  split_ifs at hserver
  cases hserver
  obtain ⟨r, hlog, hr⟩ := ServerSteps.handleResponse_eq env
    { s.server with pending := s.server.pending.erase p } p outcome complete
  rw [hlog]
  have hanswers : answersNow s.server
      (({ s.server with pending := s.server.pending.erase p } : Server.State β).note
        (.answered p.n r)) = true := by
    simp [answersNow, Server.State.note, isAnswer]
  have hgone : r = .gone ↔ (s.sendReply p.clientId true complete).accepted = none := by
    rw [accepted_sendReply, h.keys]
    exact hr.gone
  refine ⟨r, s.sendReply p.clientId true complete, ?_, ?_, hgone, ?_⟩
  · simp only [replying, hanswers, if_true]
    rfl
  · simp only [replying, hanswers, if_true, completes]
    rfl
  · rw [hr.failed, wrote_sendReply h]
    have hiff : ServerSteps.Connected { s.server with pending := s.server.pending.erase p }
        p.clientId ↔ (s.sendReply p.clientId true complete).accepted ≠ none := by
      rw [Ne, ← hgone, hr.gone, not_not]
    rw [hiff]
    constructor
    · rintro ⟨hc, rfl⟩
      exact ⟨hc, Or.inr rfl⟩
    · rintro ⟨hc, hnone | hcomplete⟩
      · exact absurd hnone hc
      · exact ⟨hc, hcomplete⟩

/-- A `sendEvent` that gets to its section finds its id. -/
def Finds (s : State β) (a : Act ρ β) : Prop :=
  ∀ c complete, a = .send (.event c) complete → c ∈ s.server.clients.keys

instance (s : State β) : ∀ a : Act ρ β, Decidable (Finds s a)
  | .send (.event c) _ =>
    decidable_of_iff (c ∈ s.server.clients.keys)
      ⟨fun h _ _ heq => by cases heq; exact h, fun h => h c _ rfl⟩
  | .send (.reply ..) _ => isTrue fun _ _ h => by cases h
  | .accept .. => isTrue fun _ _ h => by cases h
  | .emplace .. => isTrue fun _ _ h => by cases h
  | .server .. => isTrue fun _ _ h => by cases h
  | .build .. => isTrue fun _ _ h => by cases h

/-- One call more has ended. -/
theorem all_snoc {P : Sent → Prop} {l : List Sent} (hl : ∀ x ∈ l, P x) (x : Sent) :
    (∀ y ∈ l ++ [x], P y) ↔ P x := by
  constructor
  · exact fun h => h x (List.mem_append_right _ (List.mem_singleton_self _))
  · intro hx y hy
    rcases List.mem_append.mp hy with hy | hy
    · exact hl y hy
    · exact List.mem_singleton.mp hy ▸ hx

theorem moved_sends (s : State β) (a : Action ρ β) : (s.moved a).sends = s.sends := by
  unfold State.moved
  split
  · split
    · split <;> rfl
    · rfl
  · split <;> rfl
  · rfl

/-- **One step.** -/
theorem isolated_step_iff (h : Inv s) (hs : ∀ x ∈ s.sends, Isolated x) {a : Act ρ β}
    (hstep : step env s a = some t) : (∀ x ∈ t.sends, Isolated x) ↔ Finds s a := by
  -- the steps that are no `send` end calls as they should, if any
  have hother : (∀ c complete, a ≠ .send (.event c) complete) →
      (t.sends = s.sends ∨ ∃ x, t.sends = s.sends ++ [x] ∧ Isolated x) →
      ((∀ x ∈ t.sends, Isolated x) ↔ Finds s a) := by
    rintro ha hsends
    have hall : ∀ x ∈ t.sends, Isolated x := by
      rcases hsends with hsends | ⟨x, hsends, hx⟩
      · rw [hsends]
        exact hs
      · rw [hsends]
        exact (all_snoc hs x).mpr hx
    exact ⟨fun _ c complete heq => absurd heq (ha c complete), fun _ => hall⟩
  cases a with
  | accept cb added fd =>
    refine hother (fun _ _ heq => by cases heq) (Or.inl ?_)
    obtain ⟨-, server, -, rfl⟩ := accept_eq hstep
    cases added <;> rfl
  | emplace c cb sock =>
    refine hother (fun _ _ heq => by cases heq) (Or.inl ?_)
    simp only [step] at hstep
    split_ifs at hstep
    obtain ⟨server, -, rfl⟩ := Option.map_eq_some_iff.mp hstep
    rfl
  | server a =>
    refine hother (fun _ _ heq => by cases heq) ?_
    simp only [step] at hstep
    split_ifs at hstep with hreg
    obtain ⟨server, hserver, rfl⟩ := Option.map_eq_some_iff.mp hstep
    have hmoved := inv_moved h (Bool.eq_false_iff.mpr hreg) hserver
    rcases hc : replying s.server a with _ | c
    · exact Or.inl (moved_sends s a)
    · by_cases hanswers : answersNow s.server server
      · simp only [if_pos hanswers]
        refine Or.inr ⟨_, ?_, isolated_sendReply hmoved c true (completes a)⟩
        exact congrArg (· ++ _) (moved_sends s a)
      · simp only [if_neg hanswers]
        exact Or.inl (moved_sends s a)
  | build call built =>
    refine hother (fun _ _ heq => by cases heq) ?_
    simp only [step] at hstep
    split at hstep <;> cases hstep
    · next c =>
      refine Or.inr ⟨_, rfl, ?_⟩
      unfold Isolated
      rcases s.sockets.find? c with _ | sock
      · exact ⟨rfl, rfl⟩
      · exact Or.inl rfl
    · exact Or.inl rfl
  | send call complete =>
    simp only [step] at hstep
    split_ifs at hstep
    cases hstep
    have hinv : Inv { s with calls := s.calls.erase call } := h.of_eq rfl rfl rfl rfl rfl
    refine (all_snoc hs _).trans ?_
    cases call with
    | event c =>
      refine (isolated_sendEvent_iff hinv c complete).trans ⟨fun hc c' _ heq => ?_, fun hf => ?_⟩
      · cases heq
        exact hc
      · exact hf c complete rfl
    | reply c msg =>
      refine ⟨fun _ _ _ heq => (by cases heq), fun _ => ?_⟩
      exact isolated_sendReply hinv c msg complete

end Sends

/-- **When sending is isolated from disconnection.** -/
theorem isolated_iff {env : Env ρ β} {as : List (Act ρ β)} {u : State β}
    (hrun : Run (step env) (fun _ _ => True) init as u) :
    (∀ pre post t, as = pre ++ post → Run (step env) (fun _ _ => True) init pre t →
        ∀ x ∈ t.sends, Isolated x) ↔
      ∀ a t, Occurs (step env) (fun _ _ => True) init as a t → Finds t a :=
  Run.always_iff Inv (fun t => ∀ x ∈ t.sends, Isolated x) Finds inv_init
    (fun _ _ _ hs hstep => inv_step hs hstep) (fun _ h => by cases h)
    (fun _ _ _ hinv hs hstep => isolated_step_iff hinv hs hstep) hrun

/-- A client comes, gets an event, and is disconnected; the next one gets its descriptor, and a
reply to the first goes nowhere. -/
def reused : List (Act Bool Unit) :=
  [.accept true true 7, .emplace 10000 true ⟨7, 0⟩, .build (.event 10000) true,
    .build (.reply 10000 true) true, .send (.event 10000) true,
    .server (.disconnectClient 10000), .server (.poll []), .server .endEvents,
    .server .sweepNext, .server .closeSocket, .server .notify,
    .accept true true 7, .emplace 10001 true ⟨7, 1⟩, .send (.reply 10000 true) true]

theorem isolated_reused : ∃ u, Run (step ServerCalls.plainEnv) (fun _ _ => True) init reused u ∧
    u.sends = [⟨.event 10000, some 0, some 0, .returned true⟩,
      ⟨.reply 10000 true, none, none, .done⟩] ∧ ∀ x ∈ u.sends, Isolated x := by
  obtain ⟨u, hrun, hsends⟩ : ∃ u, Run (step ServerCalls.plainEnv) Finds init reused u ∧
      u.sends = [⟨.event 10000, some 0, some 0, .returned true⟩,
        ⟨.reply 10000 true, none, none, .done⟩] :=
    Run.exists_of_runsIf (·.sends) _ (by decide) fun _ _ hb => hb
  have hbase : Run (step ServerCalls.plainEnv) (fun _ _ => True) init reused u :=
    hrun.mono fun _ _ _ => trivial
  refine ⟨u, hbase, hsends, ?_⟩
  exact (isolated_iff hbase).mpr (fun _ _ h => hrun.occurs_ok h) reused [] u
    (List.append_nil _).symm hbase

/-- An event for a client that has been removed reads through the end of the map. -/
theorem event_after_removal : ¬ ∀ (as : List (Act Bool Unit)) u,
    Run (step ServerCalls.plainEnv) (fun _ _ => True) init as u → ∀ x ∈ u.sends, Isolated x := by
  intro hall
  obtain ⟨u, hrun, hsends⟩ : ∃ u, Run (step ServerCalls.plainEnv) (fun _ _ => True) init
      [.accept true true 7, .emplace 10000 true ⟨7, 0⟩, .build (.event 10000) true,
        .server (.disconnectClient 10000), .server (.poll []),
        .server .endEvents, .server .sweepNext, .send (.event 10000) true] u ∧
      u.sends = [⟨.event 10000, none, none, .undefined⟩] :=
    Run.exists_of_runs (·.sends) _ (by decide) fun _ _ hb => hb
  have hiso := hall _ u hrun _ (hsends ▸ List.mem_singleton_self _)
  cases hiso.2

end Rialto.Ipc.Sending
