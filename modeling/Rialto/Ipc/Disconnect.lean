import Rialto.Ipc.Calls

/-! # Disconnection

When the socket goes, `wait` and `process` return false and the event loop stops: no reply and no
timeout is processed any more. `termChannel` completes the outstanding calls with an error;
`disconnectNoLock`, which closes the socket on every other path, does not.

* `holds_step`, `begun_of_holds`: the call that is passed around is the one that was begun;
* `idle_of_run`: once the socket has been closed with no call outstanding, none is outstanding
  again;
* `disconnect_completes`: along every run that closes the socket only with no call outstanding, when
  the event loop has stopped every caller is released and none takes an unanswered call for a
  successful one. `disconnect_strands_call`: closing it with a call outstanding. -/

namespace Rialto.Ipc.Disconnect

open Rialto.Lib.OrdMap Rialto.Lib.Runs Rialto.Ipc.ClientChannel Rialto.Ipc.Places Rialto.Ipc.Calls

variable {c c' : ChannelImpl} {a : Action} {as : List Action}

/-! ## Callers that wait -/

/-- `BlockingClosureSemaphore::wait` returns once the closure has been run. -/
def semaphoreWaitReturns (c : ChannelImpl) (n : ℕ) : Prop := 0 < closureRuns n c.log

/-- `BlockingClosurePoll::wait` leaves its loop after a `process` that returned false, or once the
closure has been run. -/
def pollWaitReturns (c : ChannelImpl) (reads : List SocketRead) (n : ℕ) : Prop :=
  (process c reads).2 = false ∨ 0 < closureRuns n (process c reads).1.log

/-- The call was completed by its reply. -/
def Answered (n : ℕ) (log : List Event) : Prop := ∃ call, .complete n call ∈ log

/-- The controller of the call says that it failed. -/
def Failed (n : ℕ) (log : List Event) : Prop := ∃ e ∈ log, e.marksFailed n = true

/-! ## The call that was begun -/

/-- The call and its serial id, in an event that completes it. -/
def record : Event → Option (ℕ × MethodCall)
  | .responseWritten _ _ => none
  | .complete n call => some (n, call)
  | .completeWithError n call _ => some (n, call)
  | .doneAtSend n call => some (n, call)

/-- The call is somewhere in the channel under the given serial id. -/
def Holds (c : ChannelImpl) (n : ℕ) (call : MethodCall) : Prop :=
  (∃ k ∈ c.calling, k.serialId = n ∧ k.call = call) ∨ (n, call) ∈ c.methodCalls.entries ∨
    (∃ d ∈ c.completing, d.serialId = n ∧ d.call = call) ∨ ∃ e ∈ c.log, record e = some (n, call)

theorem record_effects {d : Completion} {e : Event} {n : ℕ} {call : MethodCall}
    (he : e ∈ d.effects) (hr : record e = some (n, call)) : d.serialId = n ∧ d.call = call := by
  obtain ⟨m, p, f, -, rfl⟩ | ⟨m, -, rfl⟩ | ⟨r, rfl⟩ := mem_effects he
  · cases hr
  · cases hr; exact ⟨rfl, rfl⟩
  · cases hr; exact ⟨rfl, rfl⟩

theorem holds_endCall {k : Calling} {e : Event} {n : ℕ} {call : MethodCall} (hk : k ∈ c.calling)
    (he : record e = some (k.serialId, k.call)) (h : Holds (endCall c k e) n call) :
    Holds c n call := by
  rcases h with ⟨k', hk', hn⟩ | h | h | ⟨e', he', hr⟩
  · exact Or.inl ⟨k', List.mem_of_mem_erase hk', hn⟩
  · exact Or.inr (Or.inl h)
  · exact Or.inr (Or.inr (Or.inl h))
  · rcases List.mem_append.mp he' with he' | he'
    · exact Or.inr (Or.inr (Or.inr ⟨e', he', hr⟩))
    · obtain rfl := List.mem_singleton.mp he'
      rw [he] at hr
      cases hr
      exact Or.inl ⟨k, hk, rfl, rfl⟩

theorem holds_taken {n : ℕ} {call : MethodCall} {r : ChannelImpl × List Completion}
    (hcalling : r.1.calling = c.calling) (hcompleting : r.1.completing = c.completing)
    (hlog : r.1.log = c.log) (hsub : ∀ e ∈ r.1.methodCalls.entries, e ∈ c.methodCalls.entries)
    (htaken : ∀ d ∈ r.2, (d.serialId, d.call) ∈ c.methodCalls.entries)
    (h : Holds (startCompleting r) n call) : Holds c n call := by
  unfold Holds startCompleting at h
  dsimp only at h
  rw [hcalling, hcompleting, hlog] at h
  rcases h with h | h | ⟨d, hd, rfl, rfl⟩ | h
  · exact Or.inl h
  · exact Or.inr (Or.inl (hsub _ h))
  · rcases List.mem_append.mp hd with hd | hd
    · exact Or.inr (Or.inl (htaken d hd))
    · exact Or.inr (Or.inr (Or.inl ⟨d, hd, rfl, rfl⟩))
  · exact Or.inr (Or.inr (Or.inr h))

/-- A step begins a call, or passes on those that are there. -/
theorem holds_step (h : step c a = some c') {n : ℕ} {call : MethodCall} (hc : Holds c' n call) :
    Holds c n call ∨
      ∃ z, a = .callMethod call.controller call.closure z ∧ n = c.serialCounter := by
  have htake : ∀ m o, Holds (startCompleting (takeCall c m o)) n call → Holds c n call := by
    intro m o
    rcases hf : c.methodCalls.find? m with _ | call'
    · rw [takeCall_of_notMem (OMap.find?_eq_none.mp hf)]
      exact id
    · rw [takeCall_of_find? hf, updateTimeoutTimer_eq]
      refine holds_taken rfl rfl rfl (fun e he => (OMap.mem_erase.mp he).1) ?_
      intro d hd
      obtain rfl := List.mem_singleton.mp hd
      exact OMap.find?_eq_some.mp hf
  cases Step.of_step h with
  | callMethod x y z =>
    rcases hc with ⟨k, hk, rfl, rfl⟩ | hc
    · rcases List.mem_cons.mp hk with rfl | hk
      · exact Or.inr ⟨z, rfl, rfl⟩
      · exact Or.inl (Or.inl ⟨k, hk, rfl, rfl⟩)
    · exact Or.inl (Or.inr hc)
  | tooBig hk => exact Or.inl (holds_endCall hk rfl hc)
  | noCmsgHeader hk => exact Or.inl (holds_endCall hk rfl hc)
  | @send k hk sent =>
    unfold sendCall at hc
    split_ifs at hc
    · exact Or.inl (holds_endCall hk rfl hc)
    · exact Or.inl (holds_endCall hk rfl hc)
    · exact Or.inl (holds_endCall hk rfl hc)
    · rw [updateTimeoutTimer_eq] at hc
      rcases hc with ⟨k', hk', hn⟩ | hc | hc
      · exact Or.inl (Or.inl ⟨k', List.mem_of_mem_erase hk', hn⟩)
      · rcases OMap.mem_of_mem_emplace hc with hc | hc
        · cases hc
          exact Or.inl (Or.inl ⟨k, hk, rfl, rfl⟩)
        · exact Or.inl (Or.inr (Or.inl hc))
      · exact Or.inl (Or.inr (Or.inr hc))
  | message m =>
    cases m with
    | reply m p f => exact Or.inl (htake m _ hc)
    | error m r => exact Or.inl (htake m _ hc)
    | event => exact Or.inl hc
    | invalid => exact Or.inl hc
  | timeout =>
    by_cases hr : readable c = true
    · obtain ⟨hcalls, htaken⟩ := processTimeoutEvent_of_readable hr
      have hf := processTimeoutEvent_frame c
      refine Or.inl (holds_taken (by rw [hf]) (by rw [hf]) (by rw [hf]) ?_ ?_ hc)
      · intro e he
        rw [hcalls] at he
        exact (OMap.mem_eraseIf.mp he).1
      · intro d hd
        rw [htaken] at hd
        obtain ⟨e, he, rfl⟩ := List.mem_map.mp hd
        exact List.mem_of_mem_filter he
    · rw [processTimeoutEvent_of_not_readable hr] at hc
      exact Or.inl hc
  | @finish d hd =>
    rcases hc with hc | hc | ⟨d', hd', hn⟩ | ⟨e, he, hr⟩
    · exact Or.inl (Or.inl hc)
    · exact Or.inl (Or.inr (Or.inl hc))
    · exact Or.inl (Or.inr (Or.inr (Or.inl ⟨d', List.mem_of_mem_erase hd', hn⟩)))
    · rcases List.mem_append.mp he with he | he
      · exact Or.inl (Or.inr (Or.inr (Or.inr ⟨e, he, hr⟩)))
      · exact Or.inl (Or.inr (Or.inr (Or.inl ⟨d, hd, record_effects he hr⟩)))
  | destroy _ _ =>
    rcases hc with hc | hc | hc | ⟨e, he, hr⟩
    · exact Or.inl (Or.inl hc)
    · cases hc
    · exact Or.inl (Or.inr (Or.inr (Or.inl hc)))
    · rcases List.mem_append.mp he with he | he
      · exact Or.inl (Or.inr (Or.inr (Or.inr ⟨e, he, hr⟩)))
      · obtain ⟨e', he', rfl⟩ := List.mem_map.mp he
        cases hr
        exact Or.inl (Or.inr (Or.inl he'))
  | _ => exact Or.inl hc

/-- The `CallMethod` with the given arguments got the serial id `n`. -/
def BegunAs (as : List Action) (n : ℕ) (controller closure noReplyExpected : Bool) : Prop :=
  ∃ mid,
    Occurs step (fun _ _ => True) init as (.callMethod controller closure noReplyExpected) mid ∧
    mid.serialCounter = n

theorem begun_of_holds (h : Run step (fun _ _ => True) init as c) : ∀ {n call}, Holds c n call →
    ∃ z, BegunAs as n call.controller call.closure z := by
  refine Run.history (P := fun as c => ∀ {n call}, Holds c n call →
    ∃ z, BegunAs as n call.controller call.closure z) ?_ ?_ h
  · rintro n call (⟨k, hk, -⟩ | hk | ⟨k, hk, -⟩ | ⟨k, hk, -⟩) <;> cases hk
  · intro as t a u hrun ih _ hstep n call hu
    rcases holds_step hstep hu with ht | ⟨z, rfl, rfl⟩
    · obtain ⟨z, mid, hocc, hn⟩ := ih ht
      exact ⟨z, mid, hocc.snoc a, hn⟩
    · exact ⟨z, t, Occurs.last hrun _, rfl⟩

/-- A serial id belongs to one call. -/
theorem BegunAs.unique (hrun : Run step (fun _ _ => True) init as c) (hb : c.begun < 2 ^ 64) {n : ℕ}
    {x y z x' y' z' : Bool} (h : BegunAs as n x y z) (h' : BegunAs as n x' y' z') :
    x = x' ∧ y = y' ∧ z = z' := by
  have counter : ∀ {x y z mid}, Occurs step (fun _ _ => True) init as (.callMethod x y z) mid →
      mid.begun + 1 ≤ c.begun ∧ mid.serialCounter = 1 + mid.begun := by
    intro x y z mid hocc
    obtain ⟨t, bs, -, hstep, hrest⟩ := hocc.rest hrun
    have hle := begun_le_of_run hrest
    have ht : t.begun = mid.begun + 1 := by
      cases Step.of_step hstep
      rfl
    obtain ⟨pre, post, -, hpre⟩ := hocc
    have howned := owned_of_run hpre (by omega)
    exact ⟨by omega, by rw [howned.1, Nat.mod_eq_of_lt (by omega)]⟩
  have later : ∀ {x y z t t' t₁ bs}, step t (.callMethod x y z) = some t₁ →
      Run step (fun _ _ => True) t₁ bs t' → t.begun < t'.begun := by
    intro x y z t t' t₁ bs hstep hrest
    have hle := begun_le_of_run hrest
    have ht₁ : t₁.begun = t.begun + 1 := by
      cases Step.of_step hstep
      rfl
    omega
  obtain ⟨mid, hocc, hn⟩ := h
  obtain ⟨mid', hocc', hn'⟩ := h'
  obtain ⟨-, hc⟩ := counter hocc
  obtain ⟨-, hc'⟩ := counter hocc'
  rcases Occurs.compare hrun hocc hocc' with ⟨ha, -⟩ | ⟨t₁, bs, hs, hr⟩ | ⟨t₁, bs, hs, hr⟩
  · cases ha
    exact ⟨rfl, rfl, rfl⟩
  · have := later hs hr
    omega
  · have := later hs hr
    omega

/-! ## Closing the socket -/

/-- The socket is closed only when no call is outstanding. -/
def ClosesIdle (c : ChannelImpl) (a : Action) : Prop :=
  c.sock = true → a = .disconnect ∨ a = .socketClosed → c.methodCalls.entries = []

instance (c : ChannelImpl) (a : Action) : Decidable (ClosesIdle c a) :=
  inferInstanceAs (Decidable (c.sock = true → _ → _))

/-- No call is outstanding on a closed socket. -/
def Idle (c : ChannelImpl) : Prop := c.sock = false → c.methodCalls.entries = []

theorem idle_step (hc : Idle c) (hok : ClosesIdle c a) (h : step c a = some c') : Idle c' := by
  have hclose : a = .disconnect ∨ a = .socketClosed → Idle (disconnectNoLock c) := by
    intro ha _
    rcases hs : c.sock with _ | _
    · exact hc hs
    · exact hok hs ha
  cases Step.of_step h with
  | @send k hk sent =>
    intro hs
    rw [sendCall_frame] at hs
    have hs : c.sock = false := hs
    simp only [sendCall, hs]
    exact hc hs
  | message m =>
    intro hs
    rw [receive_frame] at hs
    have hnone : ∀ n, m.replyId? = some n → n ∉ c.methodCalls.keys := by
      intro n _ hn
      simp [OMap.keys, hc hs] at hn
    rw [receive_of_not_pending hnone]
    exact hc hs
  | timeout =>
    intro hs
    rw [timeout_frame] at hs
    by_cases hr : readable c = true
    · simp [startCompleting, (processTimeoutEvent_of_readable hr).1, OMap.eraseIf, hc hs]
    · rw [processTimeoutEvent_of_not_readable hr]
      exact hc hs
  | disconnect => exact hclose (Or.inl rfl)
  | socketClosed => exact hclose (Or.inr rfl)
  | destroy _ _ => exact fun _ => rfl
  | _ => exact hc

theorem idle_of_run (h : Run step ClosesIdle init as c) : Idle c :=
  h.invariant Idle (fun _ _ _ hs hok hstep => idle_step hs hok hstep) fun hs => by cases hs

/-- A call that is nowhere else has been completed. -/
theorem completed_of_nowhere (hc : Owned c) {n : ℕ} (hn : 1 ≤ n ∧ n ≤ c.begun)
    (hcalling : n ∉ c.calling.map Calling.serialId) (hidle : c.methodCalls.entries = [])
    (hcompleting : c.completing = []) : ∃ e ∈ c.log, e.completes = some n := by
  have hone := hc.2 n
  rw [if_pos hn] at hone
  simp only [tally, gone, OMap.keys, hidle, hcompleting, List.map_nil, List.count_nil,
    List.count_eq_zero_of_not_mem hcalling, Nat.zero_add] at hone
  have hmem : n ∈ c.log.filterMap Event.completes :=
    List.count_pos_iff.mp (by unfold completions at hone; omega)
  obtain ⟨e, he, hn⟩ := List.mem_filterMap.mp hmem
  exact ⟨e, he, hn⟩

/-- **Disconnection completes the calls.** Along every run with fewer than 2^64 calls that closes
the socket only when no call is outstanding: when the socket is closed and no thread is inside
`process` any more, the map is empty, and every caller whose `CallMethod` has returned is released,
whichever closure it waits on, and does not take an unanswered call for a successful one. -/
theorem disconnect_completes (hrun : Run step ClosesIdle init as c) (hb : c.begun < 2 ^ 64)
    (hs : c.sock = false) (hstopped : c.completing = []) :
    c.methodCalls.entries = [] ∧ ∀ n controller closure noReplyExpected,
      BegunAs as n controller closure noReplyExpected → n ∉ c.calling.map Calling.serialId →
      (∀ reads, pollWaitReturns c reads n) ∧ (closure = true → semaphoreWaitReturns c n) ∧
      (controller = true → noReplyExpected = false → Answered n c.log ∨ Failed n c.log) := by
  have hrun' : Run step (fun _ _ => True) init as c := hrun.mono fun _ _ _ => trivial
  have hidle := idle_of_run hrun hs
  have hc := owned_of_run hrun' hb
  refine ⟨hidle, fun n x y z hbegun hcalling => ⟨fun reads => ?_, ?_⟩⟩
  · exact Or.inl (by rw [process_of_closed hs])
  have hn : 1 ≤ n ∧ n ≤ c.begun := by
    obtain ⟨mid, hocc, rfl⟩ := hbegun
    obtain ⟨t, bs, -, hstep, hrest⟩ := hocc.rest hrun'
    have hle := begun_le_of_run hrest
    have ht : t.begun = mid.begun + 1 := by
      cases Step.of_step hstep
      rfl
    obtain ⟨pre, post, -, hpre⟩ := hocc
    have howned := owned_of_run hpre (by omega)
    rw [howned.1, Nat.mod_eq_of_lt (by omega)]
    omega
  obtain ⟨e, he, hcomp⟩ := completed_of_nowhere hc hn hcalling hidle hstopped
  have hrec : ∀ {call}, record e = some (n, call) → call.controller = x ∧ call.closure = y := by
    intro call hr
    obtain ⟨z', hb'⟩ := begun_of_holds hrun' (Or.inr (Or.inr (Or.inr ⟨e, he, hr⟩)))
    obtain ⟨h1, h2, -⟩ := BegunAs.unique hrun' hb hb' hbegun
    exact ⟨h1, h2⟩
  have hpos : e.runsClosure n = true → semaphoreWaitReturns c n := fun h =>
    List.countP_pos_iff.mpr ⟨e, he, h⟩
  cases e with
  | responseWritten m k => cases hcomp
  | complete m call =>
    cases hcomp
    obtain ⟨-, hy⟩ := hrec rfl
    exact ⟨fun hcl => hpos (by simp [Event.runsClosure, hy, hcl]), fun _ _ => Or.inl ⟨call, he⟩⟩
  | completeWithError m call r =>
    cases hcomp
    obtain ⟨hx, hy⟩ := hrec rfl
    refine ⟨fun hcl => hpos (by simp [Event.runsClosure, hy, hcl]), fun hct _ => Or.inr ⟨_, he, ?_⟩⟩
    simp [Event.marksFailed, hx, hct]
  | doneAtSend m call =>
    cases hcomp
    obtain ⟨-, hy⟩ := hrec rfl
    refine ⟨fun hcl => hpos (by simp [Event.runsClosure, hy, hcl]), fun _ hz => ?_⟩
    obtain ⟨x', y', mid, hocc, hserial⟩ := (explained_of_run hrun').doneAtSend n call he
    obtain ⟨-, -, hz'⟩ := BegunAs.unique hrun' hb ⟨mid, hocc, hserial⟩ hbegun
    rw [hz] at hz'
    cases hz'

/-- A call that was answered before the server closed the connection, and one begun after that. -/
theorem disconnect_completes_answered : ∃ c, Run step ClosesIdle init
    [.callMethod true true false, .send 1 true, .message (.reply 1 true true), .socketClosed,
      .callMethod true true false, .finish ⟨1, ⟨3000000000, true, true⟩, .reply 0 true true⟩,
      .send 2 true] c ∧ c.methodCalls.entries = [] := by
  refine Run.exists_of_runsIf (fun c => (c.begun, c.sock, c.completing)) (2, false, [])
    (by decide) fun c hrun hview => ?_
  simp only [Prod.mk.injEq] at hview
  obtain ⟨h1, h2, h3⟩ := hview
  exact (disconnect_completes hrun (by omega) h2 h3).1

/-- Closing the socket with a call outstanding leaves the call in the map: the caller on a semaphore
is never released, and the one that polls returns from a call that neither was answered nor
failed. -/
theorem disconnect_strands_call : ∃ c, Run step (fun _ _ => True) init
    [.callMethod true true false, .send 1 true, .disconnect] c ∧ c.sock = false ∧
    c.completing = [] ∧ c.calling = [] ∧ c.methodCalls.keys = [1] ∧ ¬semaphoreWaitReturns c 1 ∧
    (∀ reads, pollWaitReturns c reads 1) ∧ ¬Answered 1 c.log ∧ ¬Failed 1 c.log := by
  refine Run.exists_of_runs
    (fun c => (c.sock, c.completing, c.calling, c.methodCalls.keys, c.log))
    (false, [], [], [1], []) rfl fun c _ hview => ?_
  simp only [Prod.mk.injEq] at hview
  obtain ⟨h1, h2, h3, h4, h5⟩ := hview
  refine ⟨h1, h2, h3, h4, ?_, fun reads => Or.inl ?_, ?_, ?_⟩
  · simp [semaphoreWaitReturns, h5, closureRuns]
  · rw [process_of_closed h1]
  · rintro ⟨call, h⟩
    rw [h5] at h
    cases h
  · rintro ⟨e, h, -⟩
    rw [h5] at h
    cases h

end Rialto.Ipc.Disconnect
