import Mathlib.Data.Finset.Erase
import Mathlib.Data.Finset.Insert
import Rialto.Lib.OrdMap
import Rialto.Lib.Runs

/-! # The shared memory of the client

`RialtoControl` maps the shared memory for the application and unmaps it again; before it does the
latter it takes the address away and notifies the registered clients. The clients fetch the address
when they write and hold a lock of their own until they are done: a `MediaPipeline` in `addSegment`,
a `WebAudioPlayer` in `writeBuffer`.

A step is a section of code under a lock, or a part of such a section where it calls into another
object. The state changes of `RialtoControl` follow one after the other. An address is the number of
its mapping, so that a mapping at an address that was used before counts as a new one. -/

namespace Rialto.Client.SharedMemory

open Rialto.Lib.OrdMap

inductive ApplicationState
  | unknown
  | inactive
  | running
  deriving DecidableEq, Repr

/-! ## Clients -/

inductive Kind
  | mediaPipeline
  | webAudioPlayer
  deriving DecidableEq, Repr

/-- The call that holds the lock of a client: before it asks for the address, while it copies to an
address, and after that. -/
inductive Access
  | free
  | entered (needDataRequestId : ℕ)
  | writing (shmBuffer : ℕ)
  | written
  deriving DecidableEq, Repr

/-- A registered `ISharedMemoryManagerClient`. The requests of a `MediaPipeline` come with the
address in the frame writer that was made for them. -/
structure ManagerClient where
  kind : Kind
  needDataRequestMap : OMap ℕ (Option ℕ)
  access : Access

def ManagerClient.fresh (kind : Kind) : ManagerClient := ⟨kind, OMap.empty, .free⟩

/-! ## RialtoControl -/

/-- How far `termSharedMemory` is, with the address it has read and the application state that is
set after it: the address is taken away, the clients are being notified under the lock on their
list, and the memory is to be unmapped. -/
inductive Control
  | idle
  | invalidated (shmBuffer : Option ℕ) (next : ApplicationState)
  | notifying (shmBuffer : Option ℕ) (rest : List ℕ) (next : ApplicationState)
  | unmapping (shmBuffer : Option ℕ) (next : ApplicationState)
  deriving DecidableEq, Repr

/-- `RialtoControl` with its clients, and the mappings there are. -/
structure State where
  currentState : ApplicationState
  shmFd : ℤ
  shmBuffer : Option ℕ
  shmBufferLen : ℕ
  clientVec : OMap ℕ ManagerClient
  control : Control
  mapped : Finset ℕ
  nextMapping : ℕ

def init : State := ⟨.inactive, -1, none, 0, OMap.empty, .idle, ∅, 0⟩

/-- What `getSharedMemory` returns, with the descriptor and the length, and whether the memory can
be mapped. -/
structure Outcome where
  getSharedMemory : Option (ℤ × ℕ)
  mmap : Bool
  deriving DecidableEq, Repr

def initSharedMemory (s : State) (o : Outcome) : Bool × State :=
  match o.getSharedMemory with
  | none => (false, s)
  | some (fd, len) =>
    if fd = -1 ∨ len = 0 then (false, { s with shmFd := fd, shmBufferLen := len })
    else if o.mmap then
      (true, { s with
        shmFd := fd
        shmBufferLen := len
        shmBuffer := some s.nextMapping
        mapped := insert s.nextMapping s.mapped
        nextMapping := s.nextMapping + 1 })
    else (false, { s with shmFd := -1, shmBuffer := none, shmBufferLen := 0 })

/-- The first section of `termSharedMemory`. -/
def termSharedMemory (s : State) (next : ApplicationState) : State :=
  { s with shmBuffer := none, control := .invalidated s.shmBuffer next }

/-- `setApplicationState`, up to the first section of `termSharedMemory`. -/
def setApplicationState (s : State) (state : ApplicationState) (o : Outcome) : State :=
  if s.currentState = .unknown then s
  else if s.currentState = state then s
  else
    match state with
    | .running =>
      match initSharedMemory s o with
      | (true, s) => { s with currentState := .running }
      | (false, s) => s
    | .inactive => termSharedMemory s .inactive
    | .unknown => s

/-- The destructor, `term`. -/
def term (s : State) : State :=
  if s.currentState = .running then termSharedMemory s .unknown
  else { s with currentState := .unknown }

def setClient (s : State) (c : ℕ) (client : ManagerClient) : State :=
  { s with clientVec := s.clientVec.insert c client }

/-- `notifyBufferTerm` of the client: a `MediaPipeline` takes its lock and clears the map, a
`WebAudioPlayer` does nothing. -/
def notifyBufferTerm (s : State) (c : ℕ) (client : ManagerClient) : Option State :=
  match client.kind with
  | .mediaPipeline =>
    if client.access = .free then
      some (setClient s c { client with needDataRequestMap := OMap.empty })
    else none
  | .webAudioPlayer => some s

/-- The last section of `termSharedMemory`; `unmapped` is whether `munmap` succeeds. -/
def unmap (s : State) (shmBuffer : Option ℕ) (next : ApplicationState) (unmapped : Bool) : State :=
  if s.shmFd = -1 then { s with control := .idle, currentState := next }
  else
    { s with
      mapped := if unmapped then
        match shmBuffer with
        | some p => s.mapped.erase p
        | none => s.mapped
        else s.mapped
      shmFd := -1
      shmBufferLen := 0
      control := .idle
      currentState := next }

/-! ## Writing -/

/-- `getSharedMemoryBuffer` and what follows it in the section of the client: `addSegment` goes on
with the frame writer of the request, which it makes if there is none (`created`). -/
def fetch (s : State) (c : ℕ) (client : ManagerClient) (needDataRequestId : ℕ)
    (created : Bool) : State :=
  match s.shmBuffer with
  | none => setClient s c { client with access := .free }
  | some p =>
    match client.kind with
    | .webAudioPlayer => setClient s c { client with access := .writing p }
    | .mediaPipeline =>
      match client.needDataRequestMap.find? needDataRequestId with
      | some (some q) => setClient s c { client with access := .writing q }
      | some none =>
        if created then
          setClient s c { client with
            needDataRequestMap := client.needDataRequestMap.insert needDataRequestId (some p)
            access := .writing p }
        else setClient s c { client with access := .free }
      | none => setClient s c { client with access := .free }

/-! ## Steps -/

/-- The steps. `needData`, `drop` and `dropAll` are the changes that the other calls of a
`MediaPipeline` make to its map. -/
inductive Act
  | setApplicationState (state : ApplicationState) (o : Outcome)
  | destructor
  | lockClients
  | notifyClient
  | unlockClients
  | unmap (unmapped : Bool)
  | registerClient (c : ℕ) (kind : Kind)
  | unregisterClient (c : ℕ)
  | needData (c needDataRequestId : ℕ)
  | drop (c needDataRequestId : ℕ)
  | dropAll (c : ℕ)
  | addSegment (c needDataRequestId : ℕ)
  | writeBuffer (c : ℕ)
  | fetch (c : ℕ) (created : Bool)
  | copy (c : ℕ)
  | copied (c : ℕ)
  | unlock (c : ℕ)
  deriving DecidableEq, Repr

/-- Whether the lock on the list of clients is held. -/
def Control.holdsClients : Control → Bool
  | .notifying .. => true
  | _ => false

/-- A step of a registered client. -/
def onClient (s : State) (c : ℕ) (f : ManagerClient → Option State) : Option State :=
  match s.clientVec.find? c with
  | some client => f client
  | none => none

/-- A step of a `MediaPipeline` that takes its lock. -/
def onPipeline (s : State) (c : ℕ) (f : ManagerClient → Option ManagerClient) : Option State :=
  onClient s c fun client =>
    if client.kind = .mediaPipeline ∧ client.access = .free then (f client).map (setClient s c)
    else none

def stepControl (s : State) : Act → Option State
  | .setApplicationState state o =>
    if s.control = .idle then some (setApplicationState s state o) else none
  | .destructor => if s.control = .idle then some (term s) else none
  | .lockClients =>
    match s.control with
    | .invalidated p next => some { s with control := .notifying p s.clientVec.keys next }
    | _ => none
  | .notifyClient =>
    match s.control with
    | .notifying p (c :: rest) next =>
      onClient s c fun client =>
        notifyBufferTerm { s with control := .notifying p rest next } c client
    | _ => none
  | .unlockClients =>
    match s.control with
    | .notifying p [] next => some { s with control := .unmapping p next }
    | _ => none
  | .unmap unmapped =>
    match s.control with
    | .unmapping p next => some (unmap s p next unmapped)
    | _ => none
  | _ => none

def stepClient (s : State) : Act → Option State
  | .registerClient c kind =>
    if s.control.holdsClients then none
    else some { s with clientVec := s.clientVec.emplace c (ManagerClient.fresh kind) }
  | .unregisterClient c =>
    if s.control.holdsClients then none
    else onClient s c fun client =>
      if client.access = .free then some { s with clientVec := s.clientVec.erase c } else none
  | .needData c id => onPipeline s c fun client =>
    some { client with needDataRequestMap := client.needDataRequestMap.insert id none }
  | .drop c id => onPipeline s c fun client =>
    some { client with needDataRequestMap := client.needDataRequestMap.erase id }
  | .dropAll c => onPipeline s c fun client =>
    some { client with needDataRequestMap := OMap.empty }
  | .addSegment c id => onPipeline s c fun client =>
    if (client.needDataRequestMap.find? id).isSome then some { client with access := .entered id }
    else none
  | .writeBuffer c => onClient s c fun client =>
    if client.kind = .webAudioPlayer ∧ client.access = .free then
      some (setClient s c { client with access := .entered 0 })
    else none
  | .fetch c created => onClient s c fun client =>
    match client.access with
    | .entered id => some (fetch s c client id created)
    | _ => none
  | .copy c => onClient s c fun client =>
    match client.access with
    | .writing _ => some s
    | _ => none
  | .copied c => onClient s c fun client =>
    match client.access with
    | .writing _ => some (setClient s c { client with access := .written })
    | _ => none
  | .unlock c => onClient s c fun client =>
    if client.access = .written then some (setClient s c { client with access := .free }) else none
  | _ => none

def step (s : State) (a : Act) : Option State :=
  match stepControl s a with
  | some s' => some s'
  | none => stepClient s a

end Rialto.Client.SharedMemory
