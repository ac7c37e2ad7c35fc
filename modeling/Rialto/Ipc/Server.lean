import Rialto.Ipc.FileDescriptors
import Rialto.Lib.OrdMap
import Rialto.Lib.Runs

/-! # The IPC server

`ServerImpl` reads calls from the sockets of its clients and hands them to the services that the
clients have exported. One thread calls `process`: it handles a batch of socket events, and at the
end shuts down the clients that were condemned by `disconnectClient`, which any thread may call at
any time, method handlers and callbacks included. The steps are the sections of the code under
`m_clientsLock`, so other threads come in between.

The library behind the messages is a parameter (`Env`): how the bytes of a request parse, and how
long a reply gets. Calls are numbered as they are read, and `log` records what happens to calls and
clients, the oldest entry first. -/

namespace Rialto.Ipc.Server

open Rialto.Lib.OrdMap Rialto.Lib.Runs Rialto.Ipc.FileDescriptors

variable {ρ β : Type*}

/-! ## Messages -/

/-- `transport::MethodCall`. -/
structure MethodCall (ρ : Type*) where
  serialId : ℕ
  serviceName : String
  methodName : String
  requestMessage : ρ

/-- A `MethodDescriptor`: the option `no_reply`, and `ParseFromString` of its request type. -/
structure Method (ρ β : Type*) where
  noReply : Bool
  parse : ρ → Option (Message β)

/-- What the message library provides. `method` is `FindMethodByName` in a service; the sizes are
`ByteSizeLong` of a reply and of an error. -/
structure Env (ρ β : Type*) where
  method : String → String → Option (Method ρ β)
  replySize : ℕ → Message β → ℕ
  errorSize : ℕ → String → ℕ

/-- A message to the client: a reply with its descriptors, or an error. -/
inductive Reply (β : Type*)
  | reply (replyId : ℕ) (replyMessage : Message β) (fds : List ℤ)
  | error (replyId : ℕ) (errorReason : String)

/-- The call a message answers. -/
def Reply.replyId : Reply β → ℕ
  | .reply replyId _ _ => replyId
  | .error replyId _ => replyId

/-- What the read loop gets from `recvmsg`. `other` stands for what parses to no call: invalid data,
monitor requests and unknown messages. -/
inductive Received (ρ : Type*)
  | wouldBlock
  | error
  | closed
  | truncated
  | call (call : MethodCall ρ) (fds : List ℤ)
  | other

/-- An event from `epoll_wait`: the wake event, one of a listening socket, one of a client socket
with `EPOLLERR` and `EPOLLIN`. -/
inductive Event
  | wake
  | listening
  | client (clientId : ℕ) (err : Bool) (input : Bool)
  deriving DecidableEq, Repr

/-! ## State -/

/-- Where the thread in `process` is. -/
inductive Phase
  | idle
  | events (rest : List Event)
  | failing (clientId : ℕ) (rest : List Event)
  | reading (clientId : ℕ) (rest : List Event)
  | sweeping (theCondemned : List ℕ)
  | closing (clientId : ℕ) (disconnectedCb : Bool) (theCondemned : List ℕ)
  | notifying (clientId : ℕ) (disconnectedCb : Bool) (theCondemned : List ℕ)
  deriving DecidableEq, Repr

/-- What became of an answer: `sendmsg` took it, its client was not in `m_clients` any more, or
`sendmsg` failed, which is logged and no more. -/
inductive Delivery (β : Type*)
  | sent (msg : Reply β)
  | gone
  | failed

/-- What happened. A client is `notified` when its `disconnectedCb`, if it has one, has run. -/
inductive Entry (β : Type*)
  | accepted (clientId : ℕ) (disconnectedCb : Bool)
  | condemned (clientId : ℕ)
  | swept
  | removed (clientId : ℕ)
  | closed (clientId : ℕ)
  | notified (clientId : ℕ) (disconnectedCb : Bool)
  | invoked (n clientId : ℕ)
  | answered (n : ℕ) (delivery : Delivery β)

/-- A call in the hands of its service: the closure with its controller. -/
structure Pending where
  n : ℕ
  clientId : ℕ
  serialId : ℕ
  deriving DecidableEq, Repr

/-- The server. `adding` are the connections that have an id and are not in `m_clients` yet, with
whether they come with a `disconnectedCb`; `exported` is `m_services` of all clients. -/
structure State (β : Type*) where
  clientIdCounter : ℕ
  adding : List (ℕ × Bool)
  clients : OMap ℕ Bool
  condemnedClients : OMap ℕ Unit
  exported : List (ℕ × String)
  pending : List Pending
  phase : Phase
  nextCall : ℕ
  log : List (Entry β)

def firstClientId : ℕ := 10000

/-- The number of values of a `uint64_t`. -/
abbrev w64 : ℕ := 18446744073709551616

def init : State β where
  clientIdCounter := firstClientId
  adding := []
  clients := OMap.empty
  condemnedClients := OMap.empty
  exported := []
  pending := []
  phase := .idle
  nextCall := 0
  log := []

/-- Append to the log. -/
def State.note (s : State β) (e : Entry β) : State β := { s with log := s.log ++ [e] }

/-! ## Answers -/

def maxMessageLen : ℕ := 128 * 1024

def populateErrorReply (env : Env ρ β) (serialId : ℕ) (reason : String) : Reply β :=
  if maxMessageLen < env.errorSize serialId reason then .error serialId "Error message truncated"
  else .error serialId reason

def populateReply (env : Env ρ β) (serialId : ℕ) (response : Message β) : Reply β :=
  if maxMessageLen < env.replySize serialId response then
    populateErrorReply env serialId "Internal error - reply message to large"
  else .reply serialId response (getResponseFileDescriptors response).1

/-- `sendReply`, for the answer to call `n`: `complete` is whether `sendmsg` takes all of it. -/
def sendReply (s : State β) (n clientId : ℕ) (msg : Reply β) (complete : Bool) : State β :=
  if (s.clients.find? clientId).isNone then s.note (.answered n .gone)
  else if complete then s.note (.answered n (.sent msg))
  else s.note (.answered n .failed)

/-- `vsnprintf` into `char reason[512]`. -/
def truncateReason (reason : String) : String := String.ofList (reason.toList.take 511)

def sendErrorReply (env : Env ρ β) (s : State β) (n clientId serialId : ℕ) (reason : String)
    (complete : Bool) : State β :=
  sendReply s n clientId (populateErrorReply env serialId (truncateReason reason)) complete

/-- How the service finished a call: `SetFailed` on the controller, or a response. -/
inductive Outcome (β : Type*)
  | failed (failureReason : String)
  | response (response : Message β)

/-- `handleResponse`, run by the closure of a call. -/
def handleResponse (env : Env ρ β) (s : State β) (p : Pending) (outcome : Outcome β)
    (complete : Bool) : State β :=
  let message := match outcome with
    | .response response => populateReply env p.serialId response
    | .failed failureReason => populateErrorReply env p.serialId failureReason
  sendReply s p.n p.clientId message complete

/-- `processMethodCall`, for call number `n`. -/
def processMethodCall (env : Env ρ β) (s : State β) (n clientId : ℕ) (call : MethodCall ρ)
    (fds : List ℤ) (complete : Bool) : State β :=
  if (clientId, call.serviceName) ∉ s.exported then
    sendErrorReply env s n clientId call.serialId ("Unknown service '" ++ call.serviceName ++ "'")
      complete
  else
    match env.method call.serviceName call.methodName with
    | none =>
      sendErrorReply env s n clientId call.serialId ("Unknown method '" ++ call.methodName ++ "'")
        complete
    | some method =>
      match method.parse call.requestMessage with
      | none => s
      | some request =>
        match addRequestFileDescriptors request fds with
        | none => s
        | some _ =>
          if method.noReply then s.note (.invoked n clientId)
          else
            { s.note (.invoked n clientId) with
              pending := s.pending ++ [⟨n, clientId, call.serialId⟩] }

/-! ## Steps -/

/-- `disconnectClient`. -/
def disconnectClient (s : State β) (clientId : ℕ) : State β :=
  { s.note (.condemned clientId) with
    condemnedClients := s.condemnedClients.emplace clientId () }

/-- The first section of `processClientSocket`: what the thread does about an event. -/
def processEvent (s : State β) (rest : List Event) : Event → Phase
  | .wake => .events rest
  | .listening => .events rest
  | .client clientId err input =>
    if (s.clients.find? clientId).isNone then .events rest
    else if (s.condemnedClients.find? clientId).isSome then .events rest
    else if err then .failing clientId rest
    else if input then .reading clientId rest
    else .events rest

/-- One round of the read loop of `processClientSocket`. -/
def processReceived (env : Env ρ β) (s : State β) (clientId : ℕ) (rest : List Event)
    (complete : Bool) : Received ρ → State β
  | .wouldBlock => { s with phase := .events rest }
  | .error => { disconnectClient s clientId with phase := .events rest }
  | .closed => { disconnectClient s clientId with phase := .events rest }
  | .truncated => s
  | .other => s
  | .call call fds =>
    { processMethodCall env s s.nextCall clientId call (readMessageFds fds serverFdLimit)
        complete with
      nextCall := s.nextCall + 1 }

/-- The steps. A connection gets its id in `takeId`, from the loop for an accepted connection or
from any thread for `addClient`, and is added to `m_clients` in `emplaceClient`; `disconnectClient`
needs the object of a client that has been added. `complete` is whether `sendmsg` takes the answer
that the step sends, if it sends one. -/
inductive Action (ρ β : Type*)
  | takeId (disconnectedCb epollAdded : Bool)
  | emplaceClient (clientId : ℕ) (disconnectedCb : Bool)
  | exportService (clientId : ℕ) (serviceName : String)
  | disconnectClient (clientId : ℕ)
  | poll (events : List Event)
  | nextEvent
  | socketError
  | receive (r : Received ρ) (complete : Bool)
  | endEvents
  | sweepNext
  | closeSocket
  | notify
  | done (p : Pending) (outcome : Outcome β) (complete : Bool)

/-- The client was added to `m_clients` at some time. -/
def Entry.isAccepted (clientId : ℕ) : Entry β → Bool
  | .accepted c _ => c == clientId
  | _ => false

def step (env : Env ρ β) (s : State β) : Action ρ β → Option (State β)
  | .takeId disconnectedCb epollAdded =>
    some { s with
      clientIdCounter := (s.clientIdCounter + 1) % w64
      adding := if epollAdded then s.adding ++ [(s.clientIdCounter, disconnectedCb)]
        else s.adding }
  | .emplaceClient clientId disconnectedCb =>
    if (clientId, disconnectedCb) ∈ s.adding then
      some { s.note (.accepted clientId disconnectedCb) with
        adding := s.adding.erase (clientId, disconnectedCb)
        clients := s.clients.emplace clientId disconnectedCb }
    else none
  | .exportService clientId serviceName =>
    some { s with exported := s.exported ++ [(clientId, serviceName)] }
  | .disconnectClient clientId =>
    if s.log.any (Entry.isAccepted clientId) then some (disconnectClient s clientId) else none
  | .poll events =>
    match s.phase with
    | .idle => some { s with phase := .events events }
    | _ => none
  | .nextEvent =>
    match s.phase with
    | .events (e :: rest) => some { s with phase := processEvent s rest e }
    | _ => none
  | .socketError =>
    match s.phase with
    | .failing clientId rest => some { disconnectClient s clientId with phase := .events rest }
    | _ => none
  | .receive r complete =>
    match s.phase with
    | .reading clientId rest => some (processReceived env s clientId rest complete r)
    | _ => none
  | .endEvents =>
    match s.phase with
    | .events [] =>
      if s.condemnedClients.entries = [] then some { s.note .swept with phase := .idle }
      else
        some { s.note .swept with
          condemnedClients := OMap.empty
          phase := .sweeping s.condemnedClients.keys }
    | _ => none
  | .sweepNext =>
    match s.phase with
    | .sweeping [] => some { s with phase := .idle }
    | .sweeping (clientId :: theCondemned) =>
      match s.clients.find? clientId with
      | none => some { s with phase := .sweeping theCondemned }
      | some disconnectedCb =>
        some { s.note (.removed clientId) with
          clients := s.clients.erase clientId
          phase := .closing clientId disconnectedCb theCondemned }
    | _ => none
  | .closeSocket =>
    match s.phase with
    | .closing clientId disconnectedCb theCondemned =>
      some { s.note (.closed clientId) with
        phase := .notifying clientId disconnectedCb theCondemned }
    | _ => none
  | .notify =>
    match s.phase with
    | .notifying clientId disconnectedCb theCondemned =>
      some { s.note (.notified clientId disconnectedCb) with phase := .sweeping theCondemned }
    | _ => none
  | .done p outcome complete =>
    if p ∈ s.pending then
      some (handleResponse env { s with pending := s.pending.erase p } p outcome complete)
    else none

end Rialto.Ipc.Server
