import Mathlib.Order.Nat
import Mathlib.Tactic.Set
import Rialto.Lib.OrdMap
import Rialto.Lib.Runs
import Rialto.Lib.Word

/-! # The client's IPC channel

`ChannelImpl` with its outstanding method calls, its timerfd and its socket. A call goes through
`CallMethod` (before and after `m_lock` is taken), waits in `m_methodCalls`, is taken out of the map
by a reply, an error or a timeout, and is completed by the thread that took it out after that thread
has dropped the lock. Each of these is an action of its own, so that any number of threads
interleave.

* `updateTimeoutTimer`, `processTimeoutEvent`, `processServerMessage`, `process`: the functions of
  the channel, on the state under the lock and the calls taken out of the map;
* `step`: the channel with its callers, its server, its clock and its event loop;
* `process_run`: a call of `process` is a run of `step`. -/

namespace Rialto.Ipc.ClientChannel

open Rialto.Lib.OrdMap Rialto.Lib.Runs Rialto.Lib.Word

/-! ## Method calls and their completion -/

/-- `ChannelImpl::MethodCall`. The deadline is an instant of the steady clock in nanoseconds; the
controller and the closure are pointers that may be null. -/
structure MethodCall where
  timeoutDeadline : ℕ
  controller : Bool
  closure : Bool
  deriving DecidableEq

/-- What a message from the server is, once it has been read from the socket. Whether the reply
parses as the response type and whether its file descriptors match is found out only when the call
is completed. -/
inductive MessageFromServer
  | reply (replyId : ℕ) (parses fdsMatch : Bool)
  | error (replyId : ℕ) (errorReason : String)
  | event
  | invalid
  deriving DecidableEq

/-- The reply id of a message that has one. -/
def MessageFromServer.replyId? : MessageFromServer → Option ℕ
  | .reply n _ _ => some n
  | .error n _ => some n
  | .event => none
  | .invalid => none

/-- How a call that has been taken out of the map is completed: by the reply of the message with the
given number, or with an error. -/
inductive Outcome
  | reply (message : ℕ) (parses fdsMatch : Bool)
  | error (reason : String)
  deriving DecidableEq

/-- A call taken out of the map by a thread that has not completed it yet. -/
structure Completion where
  serialId : ℕ
  call : MethodCall
  outcome : Outcome
  deriving DecidableEq

/-- What becomes visible to the callers: writes to a response object, `complete`,
`completeWithError`, and the closure run at once for a call without a reply. -/
inductive Event
  | responseWritten (serialId message : ℕ)
  | complete (serialId : ℕ) (call : MethodCall)
  | completeWithError (serialId : ℕ) (call : MethodCall) (reason : String)
  | doneAtSend (serialId : ℕ) (call : MethodCall)
  deriving DecidableEq

/-- The call that an event completes. -/
def Event.completes : Event → Option ℕ
  | .responseWritten _ _ => none
  | .complete n _ => some n
  | .completeWithError n _ _ => some n
  | .doneAtSend n _ => some n

/-- Does the event run the closure of the call? -/
def Event.runsClosure (n : ℕ) : Event → Bool
  | .responseWritten _ _ => false
  | .complete m call => m = n && call.closure
  | .completeWithError m call _ => m = n && call.closure
  | .doneAtSend m call => m = n && call.closure

/-- Does the event mark the controller of the call as failed? -/
def Event.marksFailed (n : ℕ) : Event → Bool
  | .completeWithError m call _ => m = n && call.controller
  | _ => false

/-- The number of times the closure of a call has been run. -/
def closureRuns (n : ℕ) (log : List Event) : ℕ := log.countP (Event.runsClosure n)

/-- What the thread that took the call out of the map does after dropping the lock. -/
def Completion.effects (d : Completion) : List Event :=
  match d.outcome with
  | .reply message parses fdsMatch =>
    .responseWritten d.serialId message ::
      if !parses then [.completeWithError d.serialId d.call "Failed to parse reply message"]
      else if !fdsMatch then
        [.completeWithError d.serialId d.call "Mismatched file descriptors in message"]
      else [.complete d.serialId d.call]
  | .error reason => [.completeWithError d.serialId d.call reason]

/-! ## The channel -/

/-- A `CallMethod` before it takes `m_lock`. -/
structure Calling where
  serialId : ℕ
  call : MethodCall
  noReplyExpected : Bool
  deriving DecidableEq

/-- The channel. `sock` says that `m_sock` is open, `timerFd` is the instant for which the timerfd
is armed or at which it expired unread; `begun` and `received` count the calls and the messages. -/
structure ChannelImpl where
  now : ℕ
  sock : Bool
  timerFd : Option ℕ
  serialCounter : ℕ
  methodCalls : OMap ℕ MethodCall
  calling : List Calling
  completing : List Completion
  destroyed : Bool
  begun : ℕ
  received : ℕ
  log : List Event
  deriving DecidableEq

/-- A channel attached to a socket. -/
def init : ChannelImpl where
  now := 0
  sock := true
  timerFd := none
  serialCounter := 1
  methodCalls := OMap.empty
  calling := []
  completing := []
  destroyed := false
  begun := 0
  received := 0
  log := []

/-- `m_defaultTimeout`, 3000 ms, in nanoseconds. -/
def defaultTimeout : ℕ := 3000 * 1000000

/-- The deadlines of the outstanding calls. -/
def deadlines (calls : OMap ℕ MethodCall) : List ℕ := calls.entries.map fun e => e.2.timeoutDeadline

/-- The `itimerspec` value for a remaining duration in nanoseconds: the duration is cut to
microseconds, the seconds are taken from it, and the nanoseconds are its remainder by 1000. -/
def timerValue (remaining : ℕ) : ℕ :=
  let duration := remaining / 1000
  if duration = 0 then 1000 else duration / 1000000 * 1000000000 + duration % 1000 * 1000

/-- `timerfd_settime` with a relative value; zero disarms. -/
def settime (now value : ℕ) : Option ℕ := if value = 0 then none else some (now + value)

/-- `updateTimeoutTimer`. -/
def updateTimeoutTimer (c : ChannelImpl) : ChannelImpl :=
  match (deadlines c.methodCalls).min? with
  | none => { c with timerFd := none }
  | some nextTimeout => { c with timerFd := settime c.now (timerValue (nextTimeout - c.now)) }

/-- The timerfd has an unread expiration. -/
def readable (c : ChannelImpl) : Bool :=
  match c.timerFd with
  | none => false
  | some t => t ≤ c.now

/-- Has the deadline of a call passed? -/
def expired (c : ChannelImpl) (e : ℕ × MethodCall) : Bool := e.2.timeoutDeadline ≤ c.now

/-- `processTimeoutEvent` up to the point where it drops the lock: the new state and the calls it
goes on to complete. -/
def processTimeoutEvent (c : ChannelImpl) : ChannelImpl × List Completion :=
  if !readable c then (c, [])
  else
    let timedOuts := c.methodCalls.entries.filter (expired c)
    let c' := { c with timerFd := none, methodCalls := c.methodCalls.eraseIf (expired c) }
    (if timedOuts.isEmpty then c' else updateTimeoutTimer c',
      timedOuts.map fun e => ⟨e.1, e.2, .error "Timed out"⟩)

/-- The common part of `processReplyFromServer` and `processErrorFromServer`: take the call out of
the map and update the timer. -/
def takeCall (c : ChannelImpl) (serialId : ℕ) (outcome : Outcome) : ChannelImpl × List Completion :=
  match c.methodCalls.find? serialId with
  | none => (c, [])
  | some call =>
    (updateTimeoutTimer { c with methodCalls := c.methodCalls.erase serialId },
      [⟨serialId, call, outcome⟩])

/-- `processReplyFromServer`. -/
def processReplyFromServer (c : ChannelImpl) (replyId : ℕ) (parses fdsMatch : Bool) :
    ChannelImpl × List Completion :=
  takeCall c replyId (.reply c.received parses fdsMatch)

/-- `processErrorFromServer`. -/
def processErrorFromServer (c : ChannelImpl) (replyId : ℕ) (errorReason : String) :
    ChannelImpl × List Completion :=
  takeCall c replyId (.error errorReason)

/-- `processServerMessage`. Events go to their handlers and do not touch the calls. -/
def processServerMessage (c : ChannelImpl) : MessageFromServer → ChannelImpl × List Completion
  | .reply replyId parses fdsMatch => processReplyFromServer c replyId parses fdsMatch
  | .error replyId errorReason => processErrorFromServer c replyId errorReason
  | .event => (c, [])
  | .invalid => (c, [])

/-- `disconnectNoLock`. -/
def disconnectNoLock (c : ChannelImpl) : ChannelImpl := { c with sock := false }

/-- `termChannel`. -/
def termChannel (c : ChannelImpl) : ChannelImpl :=
  { disconnectNoLock c with
    timerFd := none
    methodCalls := OMap.empty
    destroyed := true
    log := c.log ++
      c.methodCalls.entries.map fun e => .completeWithError e.1 e.2 "Channel destructed" }

/-- The calls taken out of the map are handed to the thread that completes them. -/
def startCompleting (r : ChannelImpl × List Completion) : ChannelImpl :=
  { r.1 with completing := r.2 ++ r.1.completing }

/-- One message has been processed up to the point where the lock is dropped. -/
def receive (c : ChannelImpl) (m : MessageFromServer) : ChannelImpl :=
  let c' := startCompleting (processServerMessage c m)
  { c' with received := c'.received + 1 }

/-! ## The event loop -/

/-- One `recvmsg` of `processSocketEvent` that did not say `EWOULDBLOCK`: a message, or a read error
or the end of the connection. -/
inductive SocketRead
  | message (m : MessageFromServer)
  | closed
  deriving DecidableEq

/-- Complete the calls that were taken out of the map. -/
def completeAll (r : ChannelImpl × List Completion) : ChannelImpl :=
  { r.1 with log := r.1.log ++ r.2.flatMap Completion.effects }

/-- `processSocketEvent` on everything that can be read. -/
def processSocketEvent (c : ChannelImpl) : List SocketRead → ChannelImpl × Bool
  | [] => (c, true)
  | .closed :: _ => (disconnectNoLock c, false)
  | .message m :: reads =>
    let c' := completeAll (processServerMessage c m)
    processSocketEvent { c' with received := c'.received + 1 } reads

/-- `process`. -/
def process (c : ChannelImpl) (reads : List SocketRead) : ChannelImpl × Bool :=
  if !c.sock then (c, false)
  else
    let timeoutEvent := readable c
    match processSocketEvent c reads with
    | (c', false) => (c', false)
    | (c', true) =>
      let c'' := if timeoutEvent then completeAll (processTimeoutEvent c') else c'
      (c'', c''.sock)

/-! ## The channel with its surroundings -/

/-- What can happen next. `callMethod` is the part of `CallMethod` before the lock, `tooBig` and
`noCmsgHeader` its two early exits, and `send` the part under the lock, with what `sendmsg` said;
`message` and `timeout` run until the lock is dropped, and `finish` completes one call that was
taken out of the map. -/
inductive Action
  | advance (ns : ℕ)
  | callMethod (controller closure noReplyExpected : Bool)
  | tooBig (serialId : ℕ)
  | noCmsgHeader (serialId : ℕ)
  | send (serialId : ℕ) (sent : Bool)
  | message (m : MessageFromServer)
  | timeout
  | finish (d : Completion)
  | disconnect
  | socketClosed
  | destroy
  deriving DecidableEq

/-- `CallMethod` up to the serial id. -/
def beginCall (c : ChannelImpl) (controller closure noReplyExpected : Bool) : ChannelImpl :=
  { c with
    serialCounter := (c.serialCounter + 1) % 2 ^ 64
    begun := c.begun + 1
    calling := ⟨c.serialCounter, ⟨c.now + defaultTimeout, controller, closure⟩, noReplyExpected⟩ ::
      c.calling }

/-- A `CallMethod` that ends with the given event. -/
def endCall (c : ChannelImpl) (k : Calling) (e : Event) : ChannelImpl :=
  { c with calling := c.calling.erase k, log := c.log ++ [e] }

/-- `CallMethod` from the lock on. -/
def sendCall (c : ChannelImpl) (k : Calling) (sent : Bool) : ChannelImpl :=
  if !c.sock then endCall c k (.completeWithError k.serialId k.call "Not connected")
  else if !sent then endCall c k (.completeWithError k.serialId k.call "Failed to send message")
  else if k.noReplyExpected then endCall c k (.doneAtSend k.serialId k.call)
  else
    updateTimeoutTimer { c with
      calling := c.calling.erase k
      methodCalls := c.methodCalls.emplace k.serialId k.call }

/-- The `CallMethod` with a serial id. -/
def findCalling (c : ChannelImpl) (serialId : ℕ) : Option Calling :=
  c.calling.find? fun k => k.serialId = serialId

/-- One action. Nothing happens to a channel that has been destroyed, and a channel is destroyed
only when no thread is inside it. -/
def step (c : ChannelImpl) (a : Action) : Option ChannelImpl :=
  if c.destroyed then none
  else match a with
    | .advance ns => some { c with now := c.now + ns }
    | .callMethod controller closure noReplyExpected =>
      some (beginCall c controller closure noReplyExpected)
    | .tooBig serialId => (findCalling c serialId).map fun k =>
      endCall c k (.completeWithError k.serialId k.call "Method call to big")
    | .noCmsgHeader serialId => (findCalling c serialId).map fun k =>
      endCall c k (.completeWithError k.serialId k.call "Internal error")
    | .send serialId sent => (findCalling c serialId).map fun k => sendCall c k sent
    | .message m => some (receive c m)
    | .timeout => some (startCompleting (processTimeoutEvent c))
    | .finish d => if d ∈ c.completing then
        some { c with completing := c.completing.erase d, log := c.log ++ d.effects }
      else none
    | .disconnect => some (disconnectNoLock c)
    | .socketClosed => some (disconnectNoLock c)
    | .destroy => if c.calling = [] ∧ c.completing = [] then some (termChannel c) else none

/-! ## What a step can do -/

/-- The cases of `step`, with their guards. -/
inductive Step (c : ChannelImpl) : Action → ChannelImpl → Prop
  | advance (ns : ℕ) : Step c (.advance ns) { c with now := c.now + ns }
  | callMethod (x y z : Bool) : Step c (.callMethod x y z) (beginCall c x y z)
  | tooBig {k : Calling} (hk : k ∈ c.calling) : Step c (.tooBig k.serialId)
      (endCall c k (.completeWithError k.serialId k.call "Method call to big"))
  | noCmsgHeader {k : Calling} (hk : k ∈ c.calling) : Step c (.noCmsgHeader k.serialId)
      (endCall c k (.completeWithError k.serialId k.call "Internal error"))
  | send {k : Calling} (hk : k ∈ c.calling) (sent : Bool) :
      Step c (.send k.serialId sent) (sendCall c k sent)
  | message (m : MessageFromServer) : Step c (.message m) (receive c m)
  | timeout : Step c .timeout (startCompleting (processTimeoutEvent c))
  | finish {d : Completion} (hd : d ∈ c.completing) : Step c (.finish d)
      { c with completing := c.completing.erase d, log := c.log ++ d.effects }
  | disconnect : Step c .disconnect (disconnectNoLock c)
  | socketClosed : Step c .socketClosed (disconnectNoLock c)
  | destroy (hcalling : c.calling = []) (hcompleting : c.completing = []) :
      Step c .destroy (termChannel c)

theorem mem_of_findCalling {c : ChannelImpl} {n : ℕ} {k : Calling} (h : findCalling c n = some k) :
    k ∈ c.calling ∧ k.serialId = n := by
  unfold findCalling at h
  have hk := List.find?_some h
  exact ⟨List.mem_of_find?_eq_some h, by simpa using hk⟩

theorem Step.of_step {c c' : ChannelImpl} {a : Action} (h : step c a = some c') : Step c a c' := by
  unfold step at h
  by_cases hd : c.destroyed = true
  · simp [hd] at h
  rw [if_neg hd] at h
  cases a with
  | advance ns => cases h; exact .advance ns
  | callMethod x y z => cases h; exact .callMethod x y z
  | tooBig n =>
    obtain ⟨k, hk, rfl⟩ := Option.map_eq_some_iff.mp h
    obtain ⟨hmem, rfl⟩ := mem_of_findCalling hk
    exact .tooBig hmem
  | noCmsgHeader n =>
    obtain ⟨k, hk, rfl⟩ := Option.map_eq_some_iff.mp h
    obtain ⟨hmem, rfl⟩ := mem_of_findCalling hk
    exact .noCmsgHeader hmem
  | send n sent =>
    obtain ⟨k, hk, rfl⟩ := Option.map_eq_some_iff.mp h
    obtain ⟨hmem, rfl⟩ := mem_of_findCalling hk
    exact .send hmem sent
  | message m => cases h; exact .message m
  | timeout => cases h; exact .timeout
  | finish d =>
    dsimp only at h
    split_ifs at h with hmem
    cases h
    exact .finish hmem
  | disconnect => cases h; exact .disconnect
  | socketClosed => cases h; exact .socketClosed
  | destroy =>
    dsimp only at h
    split_ifs at h with hidle
    cases h
    exact .destroy hidle.1 hidle.2

/-! ## `process` is a run -/

section process

variable {c : ChannelImpl}

theorem updateTimeoutTimer_eq (c : ChannelImpl) :
    updateTimeoutTimer c = { c with timerFd := (updateTimeoutTimer c).timerFd } := by
  unfold updateTimeoutTimer
  split <;> rfl

theorem takeCall_of_find? {n : ℕ} {outcome : Outcome} {call : MethodCall}
    (h : c.methodCalls.find? n = some call) : takeCall c n outcome =
      (updateTimeoutTimer { c with methodCalls := c.methodCalls.erase n },
        [⟨n, call, outcome⟩]) := by
  unfold takeCall
  rw [h]

theorem takeCall_of_notMem {n : ℕ} {outcome : Outcome} (h : n ∉ c.methodCalls.keys) :
    takeCall c n outcome = (c, []) := by
  unfold takeCall
  rw [OMap.find?_eq_none.mpr h]

/-- `CallMethod` under the lock leaves the clock, the socket, the counters and the completing
threads alone. -/
theorem sendCall_frame (c : ChannelImpl) (k : Calling) (sent : Bool) :
    sendCall c k sent = { c with
      timerFd := (sendCall c k sent).timerFd
      methodCalls := (sendCall c k sent).methodCalls
      calling := c.calling.erase k
      log := (sendCall c k sent).log } := by
  unfold sendCall
  split_ifs
  · rfl
  · rfl
  · rfl
  · rw [updateTimeoutTimer_eq]

/-- Taking calls out of the map changes the map and the timer only. -/
theorem processServerMessage_frame (c : ChannelImpl) (m : MessageFromServer) :
    (processServerMessage c m).1 = { c with
      timerFd := (processServerMessage c m).1.timerFd
      methodCalls := (processServerMessage c m).1.methodCalls } := by
  have htake : ∀ n o, (takeCall c n o).1 = { c with
      timerFd := (takeCall c n o).1.timerFd
      methodCalls := (takeCall c n o).1.methodCalls } := by
    intro n o
    rcases h : c.methodCalls.find? n with _ | call
    · rw [takeCall_of_notMem (OMap.find?_eq_none.mp h)]
    · rw [takeCall_of_find? h, updateTimeoutTimer_eq]
  cases m with
  | reply n p f => exact htake n _
  | error n r => exact htake n _
  | event => rfl
  | invalid => rfl

theorem processTimeoutEvent_frame (c : ChannelImpl) :
    (processTimeoutEvent c).1 = { c with
      timerFd := (processTimeoutEvent c).1.timerFd
      methodCalls := (processTimeoutEvent c).1.methodCalls } := by
  unfold processTimeoutEvent
  split_ifs with h
  · rfl
  · dsimp only
    split_ifs
    · rfl
    · rw [updateTimeoutTimer_eq]

/-- Receiving a message changes the map, the timer, the completing threads and the count. -/
theorem receive_frame (c : ChannelImpl) (m : MessageFromServer) :
    receive c m = { c with
      timerFd := (processServerMessage c m).1.timerFd
      methodCalls := (processServerMessage c m).1.methodCalls
      completing := (processServerMessage c m).2 ++ c.completing
      received := c.received + 1 } := by
  unfold receive startCompleting
  rw [processServerMessage_frame]

theorem timeout_frame (c : ChannelImpl) :
    startCompleting (processTimeoutEvent c) = { c with
      timerFd := (processTimeoutEvent c).1.timerFd
      methodCalls := (processTimeoutEvent c).1.methodCalls
      completing := (processTimeoutEvent c).2 ++ c.completing } := by
  unfold startCompleting
  rw [processTimeoutEvent_frame]

theorem processTimeoutEvent_of_not_readable (h : ¬readable c = true) :
    processTimeoutEvent c = (c, []) := by
  simp [processTimeoutEvent, h]

/-- What `processTimeoutEvent` takes out of the map. -/
theorem processTimeoutEvent_of_readable (h : readable c = true) :
    (processTimeoutEvent c).1.methodCalls = c.methodCalls.eraseIf (expired c) ∧
      (processTimeoutEvent c).2 = (c.methodCalls.entries.filter (expired c)).map fun e =>
        ⟨e.1, e.2, .error "Timed out"⟩ := by
  unfold processTimeoutEvent
  rw [if_neg (by simp [h])]
  refine ⟨?_, rfl⟩
  dsimp only
  split_ifs
  · rfl
  · rw [updateTimeoutTimer_eq]

/-- The calls just taken out of the map are completed one after the other. -/
theorem finish_run : ∀ (ds : List Completion) (c : ChannelImpl), c.destroyed = false →
    Run step (fun _ _ => True) { c with completing := ds ++ c.completing } (ds.map Action.finish)
      { c with log := c.log ++ ds.flatMap Completion.effects }
  | [], c, _ => by simpa using Run.nil c
  | d :: ds, c, hd => by
    have hstep : step { c with completing := d :: ds ++ c.completing } (.finish d) =
        some { c with completing := ds ++ c.completing, log := c.log ++ d.effects } := by
      simp [step, hd]
    refine Run.cons trivial hstep ?_
    have ih := finish_run ds { c with log := c.log ++ d.effects } hd
    simpa [List.append_assoc] using ih

theorem processSocketEvent_run : ∀ (reads : List SocketRead) (c : ChannelImpl),
    c.destroyed = false → ∃ as, Run step (fun _ _ => True) c as (processSocketEvent c reads).1
  | [], c, _ => ⟨[], Run.nil c⟩
  | .closed :: _, c, hd => ⟨[.socketClosed], Run.cons trivial (by simp [step, hd]; rfl) (Run.nil _)⟩
  | .message m :: reads, c, hd => by
    have hf := processServerMessage_frame c m
    set r := processServerMessage c m with hr
    have hd' : r.1.destroyed = false := by rw [hf]; exact hd
    have hstep : step c (.message m) = some (receive c m) := by simp [step, hd]
    have hfin := finish_run r.2 { r.1 with received := r.1.received + 1 } hd'
    obtain ⟨as, has⟩ := processSocketEvent_run reads
      { completeAll r with received := r.1.received + 1 } hd'
    exact ⟨.message m :: (r.2.map Action.finish ++ as), Run.cons trivial hstep (hfin.append has)⟩

theorem processSocketEvent_destroyed : ∀ (reads : List SocketRead) (c : ChannelImpl),
    (processSocketEvent c reads).1.destroyed = c.destroyed
  | [], c => rfl
  | .closed :: _, c => rfl
  | .message m :: reads, c => by
    have hf := congrArg ChannelImpl.destroyed (processServerMessage_frame c m)
    unfold processSocketEvent
    rw [processSocketEvent_destroyed reads]
    exact hf

/-- **A call of `process` is a run of the channel.** -/
theorem process_run (c : ChannelImpl) (reads : List SocketRead) (hd : c.destroyed = false) :
    ∃ as, Run step (fun _ _ => True) c as (process c reads).1 := by
  obtain ⟨as, has⟩ := processSocketEvent_run reads c hd
  have hd' := (processSocketEvent_destroyed reads c).trans hd
  unfold process
  split_ifs with hs
  · exact ⟨[], Run.nil c⟩
  · rcases hp : processSocketEvent c reads with ⟨c', ok⟩
    rw [hp] at has hd'
    dsimp only at has hd'
    cases ok with
    | false => exact ⟨as, has⟩
    | true =>
      dsimp only
      split_ifs with ht
      · have hstep : step c' .timeout = some (startCompleting (processTimeoutEvent c')) := by
          simp [step, hd']
        have hd'' : (processTimeoutEvent c').1.destroyed = false := by
          rw [processTimeoutEvent_frame]; exact hd'
        have hfin := finish_run (processTimeoutEvent c').2 (processTimeoutEvent c').1 hd''
        exact ⟨_, has.append (Run.cons trivial hstep hfin)⟩
      · exact ⟨as, has⟩

/-- A disconnected channel processes nothing. -/
theorem process_of_closed (hs : c.sock = false) (reads : List SocketRead) :
    process c reads = (c, false) := by
  simp [process, hs]

end process

end Rialto.Ipc.ClientChannel
