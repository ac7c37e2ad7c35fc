import Rialto.Ipc.ClientChannel

/-! # The timeout timer

The timerfd should fire no later than the earliest deadline of the outstanding calls. Two slips work
against it. `updateTimeoutTimer` keeps the whole seconds and the microseconds below a millisecond of
the remaining time and drops the milliseconds between, so that the timer fires up to a second early,
or is disarmed when nothing but milliseconds remain. And `processTimeoutEvent` sets the timer again
only when a call has expired, so that an early expiration is the last one.

A third way past a timeout is in `process`, which reads the socket first: an answer found there sets
the timer anew, and the expiration that the other overdue calls were waiting for is gone.

* `timesOut_iff`: what a call of `process` may read from the socket while it times a call out;
* `armed_update`, `armed_step`: what setting the timer, and what one step, does to the timer;
* `timeouts_kept_iff`: the timer is right and `process` times out in every state of a run exactly
  when no step of it meets one of the two slips and nothing read comes between.
  `early_expiration_disarms`: runs in which it is not so. -/

namespace Rialto.Ipc.Timeouts

open Rialto.Lib.OrdMap Rialto.Lib.Runs Rialto.Ipc.ClientChannel

variable {c c' : ChannelImpl} {a : Action} {as : List Action}

/-! ## What the timer is for -/

/-- A call of `process` that reads the given messages from the socket removes the call and completes
it with the text "Timed out". -/
def TimesOut (c : ChannelImpl) (reads : List SocketRead) (n : ℕ) (call : MethodCall) : Prop :=
  n ∉ (process c reads).1.methodCalls.keys ∧ ∃ done, (process c reads).1.log = c.log ++ done ∧
    .completeWithError n call "Timed out" ∈ done

/-- While the channel is connected, the timerfd is readable or armed for an instant not later than
the deadline of any outstanding call, up to the microsecond that `updateTimeoutTimer` waits at
least; and from that instant on, at or after the deadline, `process` times the call out, where
`reads t` is what it then reads from the socket. -/
def TimeoutsKept (reads : ℕ → List SocketRead) (c : ChannelImpl) : Prop :=
  c.sock = true → ∀ n call, (n, call) ∈ c.methodCalls.entries →
    ∃ t, c.timerFd = some t ∧ t ≤ max call.timeoutDeadline (c.now + 1000) ∧
      ∀ later, c.now ≤ later → t ≤ later → call.timeoutDeadline ≤ later →
        TimesOut { c with now := later } (reads later) n call

/-- The part of `TimeoutsKept` that is about the timer. -/
def Armed (c : ChannelImpl) : Prop :=
  c.sock = true → ∀ e ∈ c.methodCalls.entries,
    ∃ t, c.timerFd = some t ∧ t ≤ max e.2.timeoutDeadline (c.now + 1000)

/-! ## A timeout and the socket

`process` reads the socket first. An answer to an outstanding call found there makes
`updateTimeoutTimer` set the timer anew, so that its expiration is gone before `processTimeoutEvent`
looks for it; and at the end of the connection `process` returns at once. -/

/-- The read is a message that answers none of the outstanding calls. -/
def Passes (calls : OMap ℕ MethodCall) (r : SocketRead) : Prop :=
  ∃ m, r = .message m ∧ ∀ k ∈ m.replyId?, k ∉ calls.keys

/-- The server itself answers the call with an error of that text. -/
def SaysTimedOut (n : ℕ) (reads : List SocketRead) : Prop :=
  ∃ pre post, reads = pre ++ .message (.error n "Timed out") :: post ∧
    ∀ r ∈ pre, ∃ m, r = .message m ∧ m.replyId? ≠ some n

/-- Nothing that `process` reads from the socket keeps it from timing the call out. -/
def Undisturbed (calls : OMap ℕ MethodCall) (n : ℕ) (reads : List SocketRead) : Prop :=
  (∀ r ∈ reads, Passes calls r) ∨ SaysTimedOut n reads

/-- The channel after one message of the socket, its call completed. -/
def afterMessage (c : ChannelImpl) (m : MessageFromServer) : ChannelImpl :=
  { completeAll (processServerMessage c m) with
    received := (completeAll (processServerMessage c m)).received + 1 }

theorem processSocketEvent_message (m : MessageFromServer) (reads : List SocketRead) :
    processSocketEvent c (.message m :: reads) = processSocketEvent (afterMessage c m) reads := rfl

theorem afterMessage_of_passes {m : MessageFromServer}
    (h : ∀ k ∈ m.replyId?, k ∉ c.methodCalls.keys) :
    afterMessage c m = { c with received := c.received + 1 } := by
  have htake : processServerMessage c m = (c, []) := by
    cases m with
    | reply n p f => exact takeCall_of_notMem (h n rfl)
    | error n r => exact takeCall_of_notMem (h n rfl)
    | event => rfl
    | invalid => rfl
  simp [afterMessage, htake, completeAll]

/-- A timer that has just been set has not expired. -/
theorem not_readable_update (c : ChannelImpl) : readable (updateTimeoutTimer c) = false := by
  unfold updateTimeoutTimer
  rcases (deadlines c.methodCalls).min? with _ | next
  · rfl
  · dsimp only [readable, settime]
    split_ifs with h
    · rfl
    · exact decide_eq_false (by omega)

/-- The message answers the outstanding call `k`: the call is gone, the timer is set anew, and the
call is completed with the outcome `o`. -/
structure Answered (c : ChannelImpl) (m : MessageFromServer) (k : ℕ) (call : MethodCall)
    (o : Outcome) : Prop where
  replyId : m.replyId? = some k
  mem : (k, call) ∈ c.methodCalls.entries
  timedOut : o = .error "Timed out" ↔ m = .error k "Timed out"
  methodCalls : (afterMessage c m).methodCalls = c.methodCalls.erase k
  log : (afterMessage c m).log = c.log ++ (Completion.mk k call o).effects
  timer : readable (afterMessage c m) = false

/-- **One message.** It answers no outstanding call and changes nothing but the count, or it answers
one. -/
theorem afterMessage_cases (c : ChannelImpl) (m : MessageFromServer) :
    (∀ k ∈ m.replyId?, k ∉ c.methodCalls.keys) ∨ ∃ k call o, Answered c m k call o := by
  by_cases hk : ∀ k ∈ m.replyId?, k ∉ c.methodCalls.keys
  · exact Or.inl hk
  · push Not at hk
    obtain ⟨k, hk, hmem⟩ := hk
    obtain ⟨call, hcall⟩ := OMap.mem_keys.mp hmem
    have htake : ∀ o : Outcome, takeCall c k o = _ := fun o =>
      takeCall_of_find? (OMap.find?_eq_some.mpr hcall)
    refine Or.inr ⟨k, call, ?_⟩
    cases m with
    | reply n p f =>
      cases hk
      have hafter : processServerMessage c (.reply k p f) = _ := htake (.reply c.received p f)
      refine ⟨.reply c.received p f, rfl, hcall, by simp, ?_, ?_, ?_⟩
      · rw [afterMessage, hafter, updateTimeoutTimer_eq]; rfl
      · rw [afterMessage, hafter, updateTimeoutTimer_eq]; simp [completeAll]
      · rw [afterMessage, hafter]; exact not_readable_update _
    | error n r =>
      cases hk
      have hafter : processServerMessage c (.error k r) = _ := htake (.error r)
      refine ⟨.error r, rfl, hcall, by simp, ?_, ?_, ?_⟩
      · rw [afterMessage, hafter, updateTimeoutTimer_eq]; rfl
      · rw [afterMessage, hafter, updateTimeoutTimer_eq]; simp [completeAll]
      · rw [afterMessage, hafter]; exact not_readable_update _
    | event => cases hk
    | invalid => cases hk

/-- A completion says "Timed out" of its own call only, and only when that is its outcome. -/
theorem timedOut_mem_effects {n k : ℕ} {call call' : MethodCall} {o : Outcome} :
    .completeWithError n call "Timed out" ∈ (Completion.mk k call' o).effects ↔
      n = k ∧ call = call' ∧ o = .error "Timed out" := by
  cases o with
  | reply m p f =>
    unfold Completion.effects
    cases p <;> cases f <;> simp
  | error r => simp [Completion.effects, eq_comm]

theorem processSocketEvent_of_passes : ∀ (reads : List SocketRead) (c : ChannelImpl),
    (∀ r ∈ reads, Passes c.methodCalls r) →
    processSocketEvent c reads = ({ c with received := c.received + reads.length }, true)
  | [], c, _ => rfl
  | .closed :: _, c, h => by
    obtain ⟨m, hm, -⟩ := h .closed (by simp)
    cases hm
  | .message m :: reads, c, h => by
    obtain ⟨m', hm, hk⟩ := h (.message m) (by simp)
    cases hm
    have ih := processSocketEvent_of_passes reads { c with received := c.received + 1 }
      fun r hr => h r (by simp [hr])
    rw [processSocketEvent_message, afterMessage_of_passes hk, ih, List.length_cons,
      Nat.add_right_comm, Nat.add_assoc]

/-- A timer that is not readable does not become so while the socket is read. -/
theorem not_readable_processSocketEvent : ∀ (reads : List SocketRead) (c : ChannelImpl),
    readable c = false → readable (processSocketEvent c reads).1 = false
  | [], _, hr => hr
  | .closed :: _, _, hr => hr
  | .message m :: reads, c, hr => by
    refine not_readable_processSocketEvent reads (afterMessage c m) ?_
    rcases afterMessage_cases c m with hk | ⟨k, call, o, h⟩
    · rw [afterMessage_of_passes hk]
      exact hr
    · exact h.timer

/-- When not all that is read passes, the connection is closed or the expiration is gone. -/
theorem expiration_gone : ∀ (reads : List SocketRead) (c : ChannelImpl),
    ¬(∀ r ∈ reads, Passes c.methodCalls r) → (processSocketEvent c reads).2 = true →
    readable (processSocketEvent c reads).1 = false
  | [], c, h, _ => absurd (by simp) h
  | .closed :: _, c, _, hok => by cases hok
  | .message m :: reads, c, hnot, hok => by
    rw [processSocketEvent_message] at hok ⊢
    rcases afterMessage_cases c m with hk | ⟨k, call, o, h⟩
    · refine expiration_gone reads _ (fun hall => hnot ?_) hok
      rw [afterMessage_of_passes hk] at hall
      exact List.forall_mem_cons.mpr ⟨⟨m, rfl, hk⟩, hall⟩
    · exact not_readable_processSocketEvent reads _ h.timer

/-- A call that is not outstanding is not completed. -/
theorem socket_of_notMem {n : ℕ} : ∀ (reads : List SocketRead) (c : ChannelImpl),
    n ∉ c.methodCalls.keys → n ∉ (processSocketEvent c reads).1.methodCalls.keys ∧
      ∃ done, (processSocketEvent c reads).1.log = c.log ++ done ∧
        ∀ call, .completeWithError n call "Timed out" ∉ done
  | [], c, hn => ⟨hn, [], by simp [processSocketEvent], by simp⟩
  | .closed :: _, c, hn => ⟨hn, [], by simp [processSocketEvent, disconnectNoLock], by simp⟩
  | .message m :: reads, c, hn => by
    rw [processSocketEvent_message]
    rcases afterMessage_cases c m with hk | ⟨k, call, o, h⟩
    · rw [afterMessage_of_passes hk]
      exact socket_of_notMem reads { c with received := c.received + 1 } hn
    · have hne : n ≠ k := by
        rintro rfl
        exact hn (OMap.mem_keys.mpr ⟨call, h.mem⟩)
      have hn' : n ∉ (afterMessage c m).methodCalls.keys := by
        rw [h.methodCalls]
        exact fun hmem => hn (OMap.mem_keys_erase.mp hmem).1
      obtain ⟨hkeys, done, hlog, hdone⟩ := socket_of_notMem reads _ hn'
      refine ⟨hkeys, (Completion.mk k call o).effects ++ done, ?_, fun call' hmem => ?_⟩
      · rw [hlog, h.log, List.append_assoc]
      · rcases List.mem_append.mp hmem with hmem | hmem
        · exact hne (timedOut_mem_effects.mp hmem).1
        · exact hdone call' hmem

/-! Whether the server says "Timed out" is found out read by read. -/

theorem saysTimedOut_nil {n : ℕ} : ¬SaysTimedOut n [] := by
  rintro ⟨pre, post, h, -⟩
  simp at h

theorem saysTimedOut_closed {n : ℕ} {reads : List SocketRead} :
    ¬SaysTimedOut n (.closed :: reads) := by
  rintro ⟨_ | ⟨r, pre⟩, post, h, hpre⟩
  · cases h
  · cases h
    obtain ⟨m, hm, -⟩ := hpre .closed (by simp)
    cases hm

theorem saysTimedOut_answer {n : ℕ} {m : MessageFromServer} {reads : List SocketRead}
    (hm : m.replyId? = some n) :
    SaysTimedOut n (.message m :: reads) ↔ m = .error n "Timed out" := by
  constructor
  · rintro ⟨_ | ⟨r, pre⟩, post, h, hpre⟩
    · cases h
      rfl
    · cases h
      obtain ⟨m', hm', hne⟩ := hpre (.message m) (by simp)
      cases hm'
      exact absurd hm hne
  · rintro rfl
    exact ⟨[], reads, rfl, by simp⟩

theorem saysTimedOut_other {n : ℕ} {m : MessageFromServer} {reads : List SocketRead}
    (hm : m.replyId? ≠ some n) :
    SaysTimedOut n (.message m :: reads) ↔ SaysTimedOut n reads := by
  constructor
  · rintro ⟨_ | ⟨r, pre⟩, post, h, hpre⟩
    · cases h
      exact absurd rfl hm
    · cases h
      exact ⟨pre, post, rfl, fun r hr => hpre r (by simp [hr])⟩
  · rintro ⟨pre, post, rfl, hpre⟩
    exact ⟨.message m :: pre, post, rfl, List.forall_mem_cons.mpr ⟨⟨m, rfl, hm⟩, hpre⟩⟩

/-- **What the socket alone does to an outstanding call.** It completes the call with "Timed out"
exactly when the server says so. -/
theorem socket_timedOut_iff {n : ℕ} {call : MethodCall} : ∀ (reads : List SocketRead)
    (c : ChannelImpl), (n, call) ∈ c.methodCalls.entries →
    ∃ done, (processSocketEvent c reads).1.log = c.log ++ done ∧
      (.completeWithError n call "Timed out" ∈ done ↔ SaysTimedOut n reads) ∧
      (SaysTimedOut n reads → n ∉ (processSocketEvent c reads).1.methodCalls.keys)
  | [], c, _ => ⟨[], by simp [processSocketEvent], by simp [saysTimedOut_nil],
      fun h => absurd h saysTimedOut_nil⟩
  | .closed :: reads, c, _ => ⟨[], by simp [processSocketEvent, disconnectNoLock],
      by simp [saysTimedOut_closed], fun h => absurd h saysTimedOut_closed⟩
  | .message m :: reads, c, hn => by
    rw [processSocketEvent_message]
    rcases afterMessage_cases c m with hk | ⟨k, call', o, h⟩
    · have hmn : m.replyId? ≠ some n := fun heq => hk n heq (OMap.mem_keys.mpr ⟨call, hn⟩)
      rw [afterMessage_of_passes hk, saysTimedOut_other hmn]
      exact socket_timedOut_iff reads { c with received := c.received + 1 } hn
    · by_cases hne : n = k
      · subst hne
        cases OMap.eq_of_mem hn h.mem
        have hn' : n ∉ (afterMessage c m).methodCalls.keys := by
          rw [h.methodCalls]
          exact fun hmem => (OMap.mem_keys_erase.mp hmem).2 rfl
        obtain ⟨hkeys, done, hlog, hdone⟩ := socket_of_notMem reads _ hn'
        refine ⟨(Completion.mk n call o).effects ++ done, ?_, ?_, fun _ => hkeys⟩
        · rw [hlog, h.log, List.append_assoc]
        · rw [saysTimedOut_answer h.replyId, List.mem_append, timedOut_mem_effects, ← h.timedOut]
          simp [hdone call]
      · have hmn : m.replyId? ≠ some n := by
          rw [h.replyId]
          exact fun heq => hne (Option.some.inj heq).symm
        have hn' : (n, call) ∈ (afterMessage c m).methodCalls.entries := by
          rw [h.methodCalls]
          exact OMap.mem_erase.mpr ⟨hn, hne⟩
        rw [saysTimedOut_other hmn]
        obtain ⟨done, hlog, hdone, hkeys⟩ := socket_timedOut_iff reads _ hn'
        refine ⟨(Completion.mk k call' o).effects ++ done, ?_, ?_, hkeys⟩
        · rw [hlog, h.log, List.append_assoc]
        · rw [List.mem_append, timedOut_mem_effects, hdone]
          simp [hne]

/-- What `process` does after the socket: nothing, or it times calls out. -/
theorem process_eq (hs : c.sock = true) (reads : List SocketRead) :
    (process c reads).1 = if (processSocketEvent c reads).2 = true ∧ readable c = true then
        completeAll (processTimeoutEvent (processSocketEvent c reads).1)
      else (processSocketEvent c reads).1 := by
  unfold process
  rcases processSocketEvent c reads with ⟨c', ok⟩
  cases ok <;> simp [hs]

/-- With the timer readable, the overdue calls are timed out when everything that is read passes. -/
theorem timesOut_of_passes {n : ℕ} {call : MethodCall} {reads : List SocketRead}
    (hs : c.sock = true) (hr : readable c = true) (hn : (n, call) ∈ c.methodCalls.entries)
    (hd : call.timeoutDeadline ≤ c.now) (hpass : ∀ r ∈ reads, Passes c.methodCalls r) :
    TimesOut c reads n call := by
  set c' : ChannelImpl := { c with received := c.received + reads.length } with hc'
  have hp : (process c reads).1 = completeAll (processTimeoutEvent c') := by
    rw [process_eq hs, processSocketEvent_of_passes reads c hpass, if_pos ⟨rfl, hr⟩]
  have hr' : readable c' = true := hr
  obtain ⟨hcalls, htaken⟩ := processTimeoutEvent_of_readable hr'
  have hlog : (processTimeoutEvent c').1.log = c.log := by rw [processTimeoutEvent_frame]
  have hexp : expired c' (n, call) = true := by simp [expired, hc', hd]
  unfold TimesOut
  rw [hp]
  constructor
  · intro hk
    obtain ⟨v, hv⟩ := OMap.mem_keys.mp hk
    simp only [completeAll, hcalls, OMap.mem_eraseIf] at hv
    cases OMap.eq_of_mem hn hv.1
    rw [hexp] at hv
    exact absurd hv.2 (by simp)
  · refine ⟨(processTimeoutEvent c').2.flatMap Completion.effects, by simp [completeAll, hlog], ?_⟩
    rw [htaken]
    simp only [List.mem_flatMap, List.mem_map]
    refine ⟨⟨n, call, .error "Timed out"⟩, ⟨(n, call), ?_, rfl⟩, ?_⟩
    · exact List.mem_filter.mpr ⟨hn, hexp⟩
    · exact List.mem_singleton_self _

/-- **When an overdue call is timed out.** With the timer readable, `process` times a call whose
deadline has passed out exactly when nothing that it reads from the socket comes between. -/
theorem timesOut_iff {n : ℕ} {call : MethodCall} {reads : List SocketRead} (hs : c.sock = true)
    (hr : readable c = true) (hn : (n, call) ∈ c.methodCalls.entries)
    (hd : call.timeoutDeadline ≤ c.now) :
    TimesOut c reads n call ↔ Undisturbed c.methodCalls n reads := by
  by_cases hpass : ∀ r ∈ reads, Passes c.methodCalls r
  · exact iff_of_true (timesOut_of_passes hs hr hn hd hpass) (Or.inl hpass)
  obtain ⟨done, hlog, hdone, hkeys⟩ := socket_timedOut_iff reads c hn
  -- the timeout event takes nothing out of the map: only what the socket did counts
  have hp : (process c reads).1.log = (processSocketEvent c reads).1.log ∧
      (process c reads).1.methodCalls = (processSocketEvent c reads).1.methodCalls := by
    rw [process_eq hs]
    split_ifs with hok
    · have hgone := expiration_gone reads c hpass hok.1
      rw [processTimeoutEvent_of_not_readable (by simp [hgone])]
      simp [completeAll]
    · exact ⟨rfl, rfl⟩
  have hor : Undisturbed c.methodCalls n reads ↔ SaysTimedOut n reads := by
    simp [Undisturbed, hpass]
  rw [hor, TimesOut, hp.1, hp.2, hlog]
  constructor
  · rintro ⟨-, done', heq, hmem⟩
    exact hdone.mp (List.append_cancel_left heq ▸ hmem)
  · exact fun h => ⟨hkeys h, done, rfl, hdone.mpr h⟩

/-- Whenever an outstanding call is overdue and the timer has expired, nothing that `process` then
reads from the socket keeps it from timing the call out. -/
def Unhindered (reads : ℕ → List SocketRead) (c : ChannelImpl) : Prop :=
  c.sock = true → ∀ e ∈ c.methodCalls.entries, ∀ later, c.now ≤ later →
    readable { c with now := later } = true → e.2.timeoutDeadline ≤ later →
    Undisturbed c.methodCalls e.1 (reads later)

theorem timeoutsKept_iff {reads : ℕ → List SocketRead} :
    TimeoutsKept reads c ↔ Armed c ∧ Unhindered reads c := by
  constructor
  · refine fun h => ⟨fun hs e he => ?_, fun hs e he later hnow hr hd => ?_⟩
    · obtain ⟨t, ht, hle, -⟩ := h hs e.1 e.2 he
      exact ⟨t, ht, hle⟩
    · obtain ⟨t, ht, -, hout⟩ := h hs e.1 e.2 he
      have hlater : t ≤ later := by simpa [readable, ht] using hr
      exact (timesOut_iff (c := { c with now := later }) hs hr he hd).mp (hout later hnow hlater hd)
  · rintro ⟨h, hun⟩ hs n call he
    obtain ⟨t, ht, hle⟩ := h hs (n, call) he
    refine ⟨t, ht, hle, fun later hnow hlater hd => ?_⟩
    have hr : readable { c with now := later } = true := by simp [readable, ht, hlater]
    exact (timesOut_iff (c := { c with now := later }) hs hr he hd).mpr
      (hun hs (n, call) he later hnow hr hd)

/-! ## Setting the timer -/

/-- The remaining time, in whole microseconds, from which `updateTimeoutTimer` computes a value
other than zero: none, a second or more, or not a whole number of milliseconds. -/
def Sets (now next : ℕ) : Prop :=
  (next - now) / 1000 = 0 ∨ 1000000 ≤ (next - now) / 1000 ∨ (next - now) / 1000 % 1000 ≠ 0

instance (now next : ℕ) : Decidable (Sets now next) := inferInstanceAs (Decidable (_ ∨ _ ∨ _))

theorem timerValue_pos_iff {now next : ℕ} : 0 < timerValue (next - now) ↔ Sets now next := by
  unfold timerValue Sets
  dsimp only
  split_ifs <;> omega

/-- The timer is never set for later than the deadline, or a microsecond. -/
theorem timerValue_le (remaining : ℕ) : timerValue remaining ≤ max remaining 1000 := by
  unfold timerValue
  dsimp only
  split_ifs <;> omega

/-- The next deadline of the given calls, if there is one, is one for which the timer is set. -/
def SetsFor (now : ℕ) (calls : OMap ℕ MethodCall) : Prop :=
  ∀ next ∈ (deadlines calls).min?, Sets now next

instance (now : ℕ) (calls : OMap ℕ MethodCall) : Decidable (SetsFor now calls) :=
  inferInstanceAs (Decidable (∀ next ∈ (deadlines calls).min?, Sets now next))

/-- **What `updateTimeoutTimer` achieves.** -/
theorem armed_update (c : ChannelImpl) :
    Armed (updateTimeoutTimer c) ↔ (c.sock = true → SetsFor c.now c.methodCalls) := by
  rcases hmin : (deadlines c.methodCalls).min? with _ | next
  · have hempty : c.methodCalls.entries = [] := by
      simpa [deadlines] using List.min?_eq_none_iff.mp hmin
    have hsets : SetsFor c.now c.methodCalls := by simp [SetsFor, hmin]
    refine ⟨fun _ _ => hsets, fun _ _ e he => ?_⟩
    rw [updateTimeoutTimer_eq] at he
    rw [hempty] at he
    cases he
  · have hupd : updateTimeoutTimer c =
        { c with timerFd := settime c.now (timerValue (next - c.now)) } := by
      simp [updateTimeoutTimer, hmin]
    have hsets : SetsFor c.now c.methodCalls ↔ 0 < timerValue (next - c.now) := by
      rw [timerValue_pos_iff]
      simp [SetsFor, hmin]
    obtain ⟨hmem, hle⟩ := List.min?_eq_some_iff.mp hmin
    obtain ⟨e, he, hnext⟩ := List.mem_map.mp hmem
    rw [hsets, hupd]
    constructor
    · intro h hs
      obtain ⟨t, ht, -⟩ := h hs e he
      unfold settime at ht
      split_ifs at ht
      omega
    · intro h hs e' he'
      have hpos := h hs
      have hval := timerValue_le (next - c.now)
      have hle' := hle _ (List.mem_map_of_mem (f := fun e => e.2.timeoutDeadline) he')
      refine ⟨c.now + timerValue (next - c.now), if_neg (by omega), ?_⟩
      dsimp only at hle' ⊢
      omega

/-! ## One step -/

/-- The step meets neither slip: where it sets the timer with calls left over, the remaining time is
one for which the timer is set; and it reads an expiration of the timer with calls outstanding only
when the deadline of one of them has passed. -/
def Meets (c : ChannelImpl) (a : Action) : Prop :=
  c.sock = true → match a with
    | .send n sent => ∀ k ∈ findCalling c n, sent = true → k.noReplyExpected = false →
        SetsFor c.now (c.methodCalls.emplace k.serialId k.call)
    | .message m => ∀ n ∈ m.replyId?, n ∈ c.methodCalls.keys →
        SetsFor c.now (c.methodCalls.erase n)
    | .timeout => readable c = true →
        (c.methodCalls.entries = [] ∨ ∃ e ∈ c.methodCalls.entries, e.2.timeoutDeadline ≤ c.now) ∧
          SetsFor c.now (c.methodCalls.eraseIf (expired c))
    | _ => True

instance (c : ChannelImpl) : (a : Action) → Decidable (Meets c a)
  | .send n sent => inferInstanceAs (Decidable (c.sock = true → ∀ k ∈ findCalling c n,
      sent = true → k.noReplyExpected = false → SetsFor _ _))
  | .message m => inferInstanceAs (Decidable (c.sock = true → ∀ n ∈ m.replyId?,
      n ∈ c.methodCalls.keys → SetsFor _ _))
  | .timeout => inferInstanceAs (Decidable (c.sock = true → readable c = true →
      (c.methodCalls.entries = [] ∨ ∃ e ∈ c.methodCalls.entries, e.2.timeoutDeadline ≤ c.now) ∧
        SetsFor _ _))
  | .advance _ | .callMethod _ _ _ | .tooBig _ | .noCmsgHeader _ | .finish _ | .disconnect
  | .socketClosed | .destroy => inferInstanceAs (Decidable (c.sock = true → True))

/-- The timer depends on four fields only. -/
theorem armed_congr (hs : c'.sock = c.sock) (hn : c'.now = c.now) (ht : c'.timerFd = c.timerFd)
    (hm : c'.methodCalls = c.methodCalls) : Armed c' ↔ Armed c := by
  unfold Armed
  rw [hs, hn, ht, hm]

theorem armed_takeCall (hc : Armed c) (n : ℕ) (o : Outcome) :
    Armed (startCompleting (takeCall c n o)) ↔
      (c.sock = true → n ∈ c.methodCalls.keys → SetsFor c.now (c.methodCalls.erase n)) := by
  rcases h : c.methodCalls.find? n with _ | call
  · have hn := OMap.find?_eq_none.mp h
    rw [takeCall_of_notMem hn]
    exact ⟨fun _ _ hk => absurd hk hn, fun _ => hc⟩
  · have hn : n ∈ c.methodCalls.keys := OMap.mem_keys.mpr ⟨call, OMap.find?_eq_some.mp h⟩
    rw [takeCall_of_find? h]
    refine Iff.trans (armed_congr rfl rfl rfl rfl) ((armed_update _).trans ?_)
    exact ⟨fun h hs _ => h hs, fun h hs => h hs hn⟩

theorem armed_receive (hc : Armed c) (m : MessageFromServer) :
    Armed (receive c m) ↔ Meets c (.message m) := by
  have hcongr : Armed (receive c m) ↔ Armed (startCompleting (processServerMessage c m)) :=
    armed_congr rfl rfl rfl rfl
  refine hcongr.trans ?_
  cases m with
  | reply n p f =>
    refine (armed_takeCall hc n _).trans ?_
    simp [Meets, MessageFromServer.replyId?]
  | error n r =>
    refine (armed_takeCall hc n _).trans ?_
    simp [Meets, MessageFromServer.replyId?]
  | event => exact iff_of_true hc (by simp [Meets, MessageFromServer.replyId?])
  | invalid => exact iff_of_true hc (by simp [Meets, MessageFromServer.replyId?])

theorem armed_timeout (hc : Armed c) :
    Armed (startCompleting (processTimeoutEvent c)) ↔ Meets c .timeout := by
  by_cases hr : readable c = true
  swap
  · rw [processTimeoutEvent_of_not_readable hr]
    exact ⟨fun _ _ h => absurd h hr, fun _ => hc⟩
  have hcongr : Armed (startCompleting (processTimeoutEvent c)) ↔ Armed (processTimeoutEvent c).1 :=
    armed_congr rfl rfl rfl rfl
  rw [hcongr]
  unfold processTimeoutEvent
  rw [if_neg (by simp [hr])]
  dsimp only
  by_cases hnone : c.methodCalls.entries.filter (expired c) = []
  · have hkeep : ∀ e ∈ c.methodCalls.entries, expired c e = false := by
      simpa [List.filter_eq_nil_iff] using hnone
    have hsame : (c.methodCalls.eraseIf (expired c)).entries = c.methodCalls.entries := by
      refine List.filter_eq_self.mpr fun e he => ?_
      rw [hkeep e he]
      rfl
    rw [hnone, if_pos (by rfl)]
    constructor
    · intro h hs _
      have hempty : c.methodCalls.entries = [] := by
        refine List.eq_nil_iff_forall_not_mem.mpr fun e he => ?_
        obtain ⟨t, ht, -⟩ := h hs e (hsame ▸ he)
        cases ht
      refine ⟨Or.inl hempty, ?_⟩
      simp [SetsFor, deadlines, hsame, hempty]
    · intro h hs e he
      obtain ⟨hempty | ⟨e', he', hd⟩, -⟩ := h hs hr
      · rw [hsame, hempty] at he
        cases he
      · have := hkeep e' he'
        simp [expired, hd] at this
  · rw [if_neg (by simpa [List.isEmpty_iff] using hnone)]
    refine (armed_update _).trans ⟨fun h hs _ => ⟨Or.inr ?_, h hs⟩, fun h hs => (h hs hr).2⟩
    obtain ⟨e, he⟩ := List.exists_mem_of_ne_nil _ hnone
    obtain ⟨he, hexp⟩ := List.mem_filter.mp he
    exact ⟨e, he, by simpa [expired] using hexp⟩

theorem armed_send (hc : Armed c) {n : ℕ} {k : Calling} (hk : findCalling c n = some k)
    (sent : Bool) : Armed (sendCall c k sent) ↔ Meets c (.send n sent) := by
  unfold sendCall Meets
  simp only [hk, Option.mem_some_iff, forall_eq']
  split_ifs with h1 h2 h3
  · refine (armed_congr (c := c) rfl rfl rfl rfl).trans ⟨fun _ hs => ?_, fun _ => hc⟩
    simp [hs] at h1
  · refine (armed_congr (c := c) rfl rfl rfl rfl).trans ⟨fun _ _ hsent => ?_, fun _ => hc⟩
    simp [hsent] at h2
  · refine (armed_congr (c := c) rfl rfl rfl rfl).trans ⟨fun _ _ _ hno => ?_, fun _ => hc⟩
    simp [hno] at h3
  · refine (armed_update _).trans ⟨fun h hs _ _ => h hs, fun h hs => h hs ?_ ?_⟩
    · simpa using h2
    · simpa using h3

/-- **One step.** From a state with the timer set right, a step keeps it right exactly when it meets
neither slip. -/
theorem armed_step (hc : Armed c) (h : step c a = some c') : Armed c' ↔ Meets c a := by
  have hrefl : Armed c → (Armed c ↔ c.sock = true → True) := fun h => by simp [h]
  unfold step at h
  by_cases hd : c.destroyed = true
  · simp [hd] at h
  rw [if_neg hd] at h
  cases a with
  | advance ns =>
    cases h
    refine iff_of_true (fun hs e he => ?_) fun _ => trivial
    obtain ⟨t, ht, hle⟩ := hc hs e he
    refine ⟨t, ht, ?_⟩
    dsimp only
    omega
  | callMethod x y z => cases h; exact hrefl hc
  | tooBig n => obtain ⟨k, -, rfl⟩ := Option.map_eq_some_iff.mp h; exact hrefl hc
  | noCmsgHeader n => obtain ⟨k, -, rfl⟩ := Option.map_eq_some_iff.mp h; exact hrefl hc
  | send n sent =>
    obtain ⟨k, hk, rfl⟩ := Option.map_eq_some_iff.mp h
    exact armed_send hc hk sent
  | message m => cases h; exact armed_receive hc m
  | timeout => cases h; exact armed_timeout hc
  | finish d =>
    dsimp only at h
    split_ifs at h
    cases h
    exact hrefl hc
  | disconnect => cases h; exact iff_of_true (fun hs => by cases hs) fun _ => trivial
  | socketClosed => cases h; exact iff_of_true (fun hs => by cases hs) fun _ => trivial
  | destroy =>
    dsimp only at h
    split_ifs at h
    cases h
    exact iff_of_true (fun hs => by cases hs) fun _ => trivial

/-! ## Along a run -/

/-- In every state a run goes through the timer is right for the outstanding calls, if and only if
no step of the run meets one of the two slips. -/
theorem armed_iff (h : Run step (fun _ _ => True) init as c) :
    (∀ pre post mid, as = pre ++ post → Run step (fun _ _ => True) init pre mid → Armed mid) ↔
      Run step Meets init as c := by
  refine Run.history (P := fun as c => (∀ pre post mid, as = pre ++ post →
    Run step (fun _ _ => True) init pre mid → Armed mid) ↔ Run step Meets init as c) ?_ ?_ h
  · refine iff_of_true ?_ (Run.nil _)
    intro pre post mid heq hrun
    obtain ⟨rfl, rfl⟩ := List.append_eq_nil_iff.mp heq.symm
    cases hrun
    intro _ e he
    cases he
  · intro as t a u hrun ih _ hstep
    constructor
    · intro hall
      have hprev := ih.mp fun pre post mid heq => hall pre (post ++ [a]) mid (by simp [heq])
      have ht := hall as [a] t rfl hrun
      have hu := hall (as ++ [a]) [] u (by simp)
        (hrun.append (Run.cons trivial hstep (Run.nil u)))
      exact hprev.append (Run.cons ((armed_step ht hstep).mp hu) hstep (Run.nil u))
    · intro hmeets pre post mid heq hpre
      obtain ⟨t', hrun', hok, hstep'⟩ := hmeets.snoc_inv
      cases hrun.unique (hrun'.mono fun _ _ _ => trivial)
      have hall := ih.mpr hrun'
      rcases List.eq_nil_or_concat post with rfl | ⟨post', b, rfl⟩
      · rw [List.append_nil] at heq
        subst heq
        cases hpre.unique (hrun.append (Run.cons trivial hstep (Run.nil u)))
        have ht := hall as [] t (by simp) hrun
        exact (armed_step ht hstep).mpr hok
      · rw [List.concat_eq_append, ← List.append_assoc] at heq
        obtain ⟨rfl, -⟩ := List.append_inj' heq rfl
        exact hall pre post' mid rfl hpre

/-- **When timeouts work.** In every state a run goes through the timer is right and `process` times
the overdue calls out, whatever it reads from the socket there, if and only if no step of the run
meets one of the two slips and nothing read comes between an overdue call and its timeout. -/
theorem timeouts_kept_iff (reads : List Action → ℕ → List SocketRead)
    (h : Run step (fun _ _ => True) init as c) :
    (∀ pre post mid, as = pre ++ post → Run step (fun _ _ => True) init pre mid →
      TimeoutsKept (reads pre) mid) ↔
    Run step Meets init as c ∧ ∀ pre post mid, as = pre ++ post →
      Run step (fun _ _ => True) init pre mid → Unhindered (reads pre) mid := by
  rw [← armed_iff h]
  constructor
  · intro hall
    exact ⟨fun pre post mid heq hrun => (timeoutsKept_iff.mp (hall pre post mid heq hrun)).1,
      fun pre post mid heq hrun => (timeoutsKept_iff.mp (hall pre post mid heq hrun)).2⟩
  · rintro ⟨harmed, hun⟩ pre post mid heq hrun
    exact timeoutsKept_iff.mpr ⟨harmed pre post mid heq hrun, hun pre post mid heq hrun⟩

/-- One call, sent a microsecond after its deadline was computed. The timer is set for two seconds
and 999 microseconds, a second before the deadline. -/
def earlyExpiration : List Action :=
  [.callMethod true true false, .advance 1000, .send 1 true, .advance 2000999000, .timeout]

/-- Two calls sent at once, and the time of their deadline. -/
def bothOverdue : List Action :=
  [.callMethod true true false, .send 1 true, .callMethod true true false, .send 2 true,
    .advance 3000000000]

/-- After the early expiration the call is pending and the timer is disarmed. And where no step
meets a slip, the reply to one of two overdue calls keeps the other from being timed out by the
`process` that reads it. -/
theorem early_expiration_disarms :
    (∃ c, Run step (fun _ _ => True) init earlyExpiration c ∧ c.sock = true ∧
      c.methodCalls.keys = [1] ∧ c.timerFd = none ∧ ∀ reads, ¬TimeoutsKept reads c) ∧
    ∃ c, Run step Meets init bothOverdue c ∧ c.sock = true ∧ c.methodCalls.keys = [1, 2] ∧
      (process c [.message (.reply 1 true true)]).1.methodCalls.keys = [2] ∧
      ¬TimeoutsKept (fun _ => [.message (.reply 1 true true)]) c := by
  constructor
  · refine Run.exists_of_runs (fun c => (c.sock, c.methodCalls.entries, c.timerFd))
      (true, [(1, ⟨3000000000, true, true⟩)], none) (by decide) fun c _ hview => ?_
    simp only [Prod.mk.injEq] at hview
    obtain ⟨hs, hm, ht⟩ := hview
    refine ⟨hs, by simp [OMap.keys, hm], ht, fun reads h => ?_⟩
    obtain ⟨t, ht', -⟩ := h hs 1 ⟨3000000000, true, true⟩ (by rw [hm]; simp)
    rw [ht] at ht'
    cases ht'
  · refine Run.exists_of_runsIf (fun c => (c.sock, c.methodCalls.entries, c.timerFd, c.now,
        (process c [.message (.reply 1 true true)]).1.methodCalls.keys))
      (true, [(1, ⟨3000000000, true, true⟩), (2, ⟨3000000000, true, true⟩)], some 3000000000,
        3000000000, [2]) (by decide +kernel) fun c _ hview => ?_
    simp only [Prod.mk.injEq] at hview
    obtain ⟨hs, hm, ht, hnow, hkeys⟩ := hview
    refine ⟨hs, by simp [OMap.keys, hm], hkeys, fun h => ?_⟩
    obtain ⟨t, ht', -, hout⟩ := h hs 2 ⟨3000000000, true, true⟩ (by rw [hm]; simp)
    rw [ht] at ht'
    cases ht'
    have hgone := (hout c.now le_rfl (by omega) (by dsimp only; omega)).1
    have hself : { c with now := c.now } = c := rfl
    rw [hself, hkeys] at hgone
    simp at hgone

/-- A call whose timer is read only after the deadline, with nothing on the socket. -/
theorem timeouts_kept_late : ∃ c, Run step (fun _ _ => True) init
    [.callMethod true true false, .send 1 true, .advance 3000000000, .timeout] c ∧
    ∀ pre post mid, [.callMethod true true false, .send 1 true, .advance 3000000000, .timeout] =
      pre ++ post → Run step (fun _ _ => True) init pre mid → TimeoutsKept (fun _ => []) mid := by
  obtain ⟨c, hc⟩ : ∃ c, runsIf step Meets init
      [.callMethod true true false, .send 1 true, .advance 3000000000, .timeout] = some c :=
    Option.isSome_iff_exists.mp (by decide +kernel)
  have hrun := Run.of_runsIf hc
  refine ⟨c, hrun.mono fun _ _ _ => trivial, (timeouts_kept_iff (fun _ _ => [])
    (hrun.mono fun _ _ _ => trivial)).mpr ⟨hrun, ?_⟩⟩
  exact fun _ _ _ _ _ _ _ _ _ _ _ _ => Or.inl (by simp)

end Rialto.Ipc.Timeouts
