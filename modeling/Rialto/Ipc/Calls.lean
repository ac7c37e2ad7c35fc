import Rialto.Ipc.Places

/-! # Replies are matched to calls

Since only the last place of a call runs its closure, and since a message moves a call only out of
the map, the count of its places carries the matching of replies to calls.

* `TakenBy`, `Explained`: the message that takes a call out of the map, and what explains the log;
* `calls_matched`: closures run at most once, a call succeeds only by the first message with its own
  id that finds it pending, no other message writes its response, and a message whose id is not
  pending changes nothing. `no_reply_succeeds_unanswered`: a call that expects no reply succeeds
  without one. -/

namespace Rialto.Ipc.Calls

open Rialto.Lib.OrdMap Rialto.Lib.Runs Rialto.Ipc.ClientChannel Rialto.Ipc.Places

variable {c c' : ChannelImpl} {a : Action} {as : List Action}

/-! ## Which message completes a call -/

/-- The message is received in `mid`, along the actions `as`, and has the id of a pending call. -/
def TakenBy (as : List Action) (n : ℕ) (m : MessageFromServer) (mid : ChannelImpl) : Prop :=
  Occurs step (fun _ _ => True) init as (.message m) mid ∧ m.replyId? = some n ∧
    n ∈ mid.methodCalls.keys

/-- The call is one of a method that expects no reply. -/
def NoReply (as : List Action) (n : ℕ) : Prop :=
  ∃ x y mid, Occurs step (fun _ _ => True) init as (.callMethod x y true) mid ∧
    mid.serialCounter = n

/-- The call ended without an error. -/
def Succeeded (n : ℕ) (log : List Event) : Prop :=
  ∃ call, .complete n call ∈ log ∨ .doneAtSend n call ∈ log

theorem TakenBy.snoc {n : ℕ} {m : MessageFromServer} {mid : ChannelImpl} (h : TakenBy as n m mid)
    (a : Action) : TakenBy (as ++ [a]) n m mid :=
  ⟨h.1.snoc a, h.2⟩

theorem NoReply.snoc {n : ℕ} (h : NoReply as n) (a : Action) : NoReply (as ++ [a]) n := by
  obtain ⟨x, y, mid, hocc, hn⟩ := h
  exact ⟨x, y, mid, hocc.snoc a, hn⟩

/-- A message with the id of a pending call takes it out of the map. -/
theorem gone_receive {n : ℕ} {m : MessageFromServer} (hid : m.replyId? = some n)
    (hn : n ∈ c.methodCalls.keys) : 0 < gone (receive c m) n := by
  obtain ⟨call, hcall⟩ := OMap.mem_keys.mp hn
  have htake : ∀ o, 0 < gone (startCompleting (takeCall c n o)) n := by
    intro o
    rw [takeCall_of_find? (OMap.find?_eq_some.mpr hcall)]
    simp only [gone, startCompleting, List.singleton_append, List.map_cons, List.count_cons_self]
    omega
  cases m with
  | reply k p f => cases hid; exact htake _
  | error k r => cases hid; exact htake _
  | event => cases hid
  | invalid => cases hid

/-- A call is taken by at most one message. -/
theorem TakenBy.unique (hrun : Run step (fun _ _ => True) init as c) (hb : c.begun < 2 ^ 64) {n : ℕ}
    {m m' : MessageFromServer} {mid mid' : ChannelImpl} (h : TakenBy as n m mid)
    (h' : TakenBy as n m' mid') : m = m' ∧ mid = mid' := by
  have later : ∀ {k k' t t' t₁ bs}, TakenBy as n k t → TakenBy as n k' t' →
      step t (.message k) = some t₁ → Run step (fun _ _ => True) t₁ bs t' → False := by
    intro k k' t t' t₁ bs hk hk' hstep hrest
    obtain ⟨u, us, -, hu, hus⟩ := hk'.1.rest hrun
    have hle := begun_le_of_run (Run.cons trivial hu hus)
    obtain ⟨pre, post, -, hpre⟩ := hk'.1
    have howned := owned_of_run hpre (by omega)
    have ht₁ : t₁ = receive t k := by
      cases Step.of_step hstep
      rfl
    have hgone := gone_receive hk.2.1 hk.2.2
    have hle' := gone_le_of_run n hrest
    rw [ht₁] at hle'
    exact notMem_keys_of_gone howned (lt_of_lt_of_le hgone hle') hk'.2.2
  rcases Occurs.compare hrun h.1 h'.1 with
    ⟨ha, ht⟩ | ⟨t₁, bs, hstep, hrest⟩ | ⟨t₁, bs, hstep, hrest⟩
  · cases ha
    exact ⟨rfl, ht⟩
  · exact absurd hrest fun hrest => later h h' hstep hrest
  · exact absurd hrest fun hrest => later h' h hstep hrest

/-- Where the threads that complete calls get their work from. -/
theorem completing_of_step (h : step c a = some c') {d : Completion} (hd : d ∈ c'.completing) :
    d ∈ c.completing ∨ (∃ reason, d.outcome = .error reason) ∨
      ∃ p f, a = .message (.reply d.serialId p f) ∧ d.outcome = .reply c.received p f ∧
        d.serialId ∈ c.methodCalls.keys := by
  have htake : ∀ {n o}, d ∈ (takeCall c n o).2 →
      d.serialId = n ∧ d.outcome = o ∧ n ∈ c.methodCalls.keys := by
    intro n o hmem
    rcases hf : c.methodCalls.find? n with _ | call
    · rw [takeCall_of_notMem (OMap.find?_eq_none.mp hf)] at hmem
      cases hmem
    · rw [takeCall_of_find? hf, List.mem_singleton] at hmem
      subst hmem
      exact ⟨rfl, rfl, OMap.mem_keys.mpr ⟨call, OMap.find?_eq_some.mp hf⟩⟩
  cases Step.of_step h with
  | send hk sent => rw [sendCall_frame] at hd; exact Or.inl hd
  | message m =>
    rw [receive_frame] at hd
    rcases List.mem_append.mp hd with hd | hd
    · cases m with
      | reply n p f =>
        obtain ⟨rfl, ho, hn⟩ := htake hd
        exact Or.inr (Or.inr ⟨p, f, rfl, ho, hn⟩)
      | error n r => exact Or.inr (Or.inl ⟨r, (htake hd).2.1⟩)
      | event => cases hd
      | invalid => cases hd
    · exact Or.inl hd
  | timeout =>
    rw [timeout_frame] at hd
    rcases List.mem_append.mp hd with hd | hd
    · by_cases hr : readable c = true
      · rw [(processTimeoutEvent_of_readable hr).2] at hd
        obtain ⟨e, -, rfl⟩ := List.mem_map.mp hd
        exact Or.inr (Or.inl ⟨_, rfl⟩)
      · rw [processTimeoutEvent_of_not_readable hr] at hd
        cases hd
    · exact Or.inl hd
  | finish hd' => exact Or.inl (List.mem_of_mem_erase hd)
  | _ => exact Or.inl hd

/-- Where the entries of the log come from. -/
theorem log_of_step (h : step c a = some c') {e : Event} (he : e ∈ c'.log) :
    e ∈ c.log ∨ (∃ d ∈ c.completing, e ∈ d.effects) ∨
      (∃ n call reason, e = .completeWithError n call reason) ∨
      ∃ k ∈ c.calling, k.noReplyExpected = true ∧ e = .doneAtSend k.serialId k.call := by
  have hend : ∀ {l : List Event} {e'}, e ∈ l ++ [e'] → e ∈ l ∨ e = e' := by
    intro l e' he
    simpa using he
  cases Step.of_step h with
  | tooBig hk => exact (hend he).imp_right fun he => Or.inr (Or.inl ⟨_, _, _, he⟩)
  | noCmsgHeader hk => exact (hend he).imp_right fun he => Or.inr (Or.inl ⟨_, _, _, he⟩)
  | @send k hk sent =>
    unfold sendCall at he
    split_ifs at he with h1 h2 h3
    · exact (hend he).imp_right fun he => Or.inr (Or.inl ⟨_, _, _, he⟩)
    · exact (hend he).imp_right fun he => Or.inr (Or.inl ⟨_, _, _, he⟩)
    · exact (hend he).imp_right fun he => Or.inr (Or.inr ⟨k, hk, h3, he⟩)
    · rw [updateTimeoutTimer_eq] at he
      exact Or.inl he
  | message m => rw [receive_frame] at he; exact Or.inl he
  | timeout => rw [timeout_frame] at he; exact Or.inl he
  | finish hd =>
    exact (List.mem_append.mp he).imp_right fun he => Or.inl ⟨_, hd, he⟩
  | destroy _ _ =>
    rcases List.mem_append.mp he with he | he
    · exact Or.inl he
    · obtain ⟨e', -, rfl⟩ := List.mem_map.mp he
      exact Or.inr (Or.inr (Or.inl ⟨_, _, _, rfl⟩))
  | _ => exact Or.inl he

/-- The threads in `CallMethod` began their calls. -/
theorem calling_of_step (h : step c a = some c') {k : Calling} (hk : k ∈ c'.calling) :
    k ∈ c.calling ∨
      ∃ x y, a = .callMethod x y k.noReplyExpected ∧ k.serialId = c.serialCounter := by
  cases Step.of_step h with
  | callMethod x y z =>
    rcases List.mem_cons.mp hk with rfl | hk
    · exact Or.inr ⟨x, y, rfl, rfl⟩
    · exact Or.inl hk
  | tooBig hk' => exact Or.inl (List.mem_of_mem_erase hk)
  | noCmsgHeader hk' => exact Or.inl (List.mem_of_mem_erase hk)
  | send hk' sent =>
    rw [sendCall_frame] at hk
    exact Or.inl (List.mem_of_mem_erase hk)
  | message m => rw [receive_frame] at hk; exact Or.inl hk
  | timeout => rw [timeout_frame] at hk; exact Or.inl hk
  | _ => exact Or.inl hk

/-- What the history says about the state. -/
structure Explained (as : List Action) (c : ChannelImpl) : Prop where
  calling : ∀ k ∈ c.calling, k.noReplyExpected = true → NoReply as k.serialId
  completing : ∀ d ∈ c.completing, ∀ m p f, d.outcome = .reply m p f →
    ∃ mid, TakenBy as d.serialId (.reply d.serialId p f) mid ∧ mid.received = m
  written : ∀ n m, .responseWritten n m ∈ c.log →
    ∃ p f mid, TakenBy as n (.reply n p f) mid ∧ mid.received = m
  complete : ∀ n call, .complete n call ∈ c.log → ∃ mid, TakenBy as n (.reply n true true) mid
  doneAtSend : ∀ n call, .doneAtSend n call ∈ c.log → NoReply as n

/-- What completing a call can write to the log. -/
theorem mem_effects {d : Completion} {e : Event} (h : e ∈ d.effects) :
    (∃ m p f, d.outcome = .reply m p f ∧ e = .responseWritten d.serialId m) ∨
      (∃ m, d.outcome = .reply m true true ∧ e = .complete d.serialId d.call) ∨
      ∃ reason, e = .completeWithError d.serialId d.call reason := by
  unfold Completion.effects at h
  rcases ho : d.outcome with ⟨m, p, f⟩ | r
  · rw [ho] at h
    rcases List.mem_cons.mp h with h | h
    · exact Or.inl ⟨m, p, f, rfl, h⟩
    · cases p with
      | false => exact Or.inr (Or.inr ⟨_, List.mem_singleton.mp h⟩)
      | true =>
        cases f with
        | false => exact Or.inr (Or.inr ⟨_, List.mem_singleton.mp h⟩)
        | true => exact Or.inr (Or.inl ⟨m, rfl, List.mem_singleton.mp h⟩)
  · rw [ho] at h
    exact Or.inr (Or.inr ⟨r, List.mem_singleton.mp h⟩)

theorem explained_init : Explained [] init := by
  constructor <;> intros <;> simp_all [init]

theorem explained_step {u : ChannelImpl} (hrun : Run step (fun _ _ => True) init as c)
    (hc : Explained as c) (h : step c a = some u) : Explained (as ++ [a]) u := by
  have hocc := Occurs.last hrun a
  constructor
  · intro k hk hno
    rcases calling_of_step h hk with hk | ⟨x, y, rfl, hs⟩
    · exact (hc.calling k hk hno).snoc a
    · rw [hno] at hocc
      rw [hs, hno]
      exact ⟨x, y, c, hocc, rfl⟩
  · intro d hd m p f ho
    rcases completing_of_step h hd with hd | ⟨r, hr⟩ | ⟨p', f', rfl, ho', hn⟩
    · obtain ⟨mid, ht, hm⟩ := hc.completing d hd m p f ho
      exact ⟨mid, ht.snoc a, hm⟩
    · rw [hr] at ho
      cases ho
    · rw [ho'] at ho
      cases ho
      exact ⟨c, ⟨hocc, rfl, hn⟩, rfl⟩
  · intro n m he
    rcases log_of_step h he with he | ⟨d, hd, he⟩ | ⟨n', call, r, he⟩ | ⟨k, -, -, he⟩
    · obtain ⟨p, f, mid, ht, hm⟩ := hc.written n m he
      exact ⟨p, f, mid, ht.snoc a, hm⟩
    · obtain ⟨m', p, f, ho, he⟩ | ⟨m', -, he⟩ | ⟨r, he⟩ := mem_effects he <;> cases he
      obtain ⟨mid, ht, hm⟩ := hc.completing d hd m p f ho
      exact ⟨p, f, mid, ht.snoc a, hm⟩
    · cases he
    · cases he
  · intro n call he
    rcases log_of_step h he with he | ⟨d, hd, he⟩ | ⟨n', call', r, he⟩ | ⟨k, -, -, he⟩
    · obtain ⟨mid, ht⟩ := hc.complete n call he
      exact ⟨mid, ht.snoc a⟩
    · obtain ⟨m, p, f, -, he⟩ | ⟨m, ho, he⟩ | ⟨r, he⟩ := mem_effects he <;> cases he
      obtain ⟨mid, ht, -⟩ := hc.completing d hd m true true ho
      exact ⟨mid, ht.snoc a⟩
    · cases he
    · cases he
  · intro n call he
    rcases log_of_step h he with he | ⟨d, hd, he⟩ | ⟨n', call', r, he⟩ | ⟨k, hk, hno, he⟩
    · exact (hc.doneAtSend n call he).snoc a
    · obtain ⟨m, p, f, -, he⟩ | ⟨m, -, he⟩ | ⟨r, he⟩ := mem_effects he <;> cases he
    · cases he
    · cases he
      exact (hc.calling k hk hno).snoc a

theorem explained_of_run (h : Run step (fun _ _ => True) init as c) : Explained as c :=
  Run.history explained_init (fun _ _ _ _ hrun hc _ hstep => explained_step hrun hc hstep) h

/-! ## The matching of replies to calls -/

theorem closureRuns_le_completions (n : ℕ) : ∀ log, closureRuns n log ≤ completions n log
  | [] => le_rfl
  | e :: log => by
    have ih := closureRuns_le_completions n log
    have hcons : closureRuns n (e :: log) = closureRuns n log + closureRuns n [e] := by
      simp only [closureRuns, List.countP_cons, List.countP_nil, Nat.zero_add]
    have hcons' : completions n (e :: log) = completions n [e] + completions n log :=
      completions_append n [e] log
    have hone : closureRuns n [e] ≤ completions n [e] := by
      cases e <;> simp [closureRuns, completions, Event.runsClosure, Event.completes,
        List.countP_cons, List.count_cons]
      all_goals split_ifs <;> simp_all
    omega

theorem closureRuns_le_one (hc : Owned c) (n : ℕ) : closureRuns n c.log ≤ 1 := by
  have hle := closureRuns_le_completions n c.log
  have hone := hc.2 n
  unfold tally gone at hone
  split_ifs at hone <;> omega

/-- A message without the id of a pending call changes nothing but the count of messages. -/
theorem receive_of_not_pending {m : MessageFromServer}
    (h : ∀ n, m.replyId? = some n → n ∉ c.methodCalls.keys) :
    receive c m = { c with received := c.received + 1 } := by
  have hnone : processServerMessage c m = (c, []) := by
    cases m with
    | reply n p f => exact takeCall_of_notMem (h n rfl)
    | error n r => exact takeCall_of_notMem (h n rfl)
    | event => rfl
    | invalid => rfl
  unfold receive startCompleting
  rw [hnone]
  rfl

/-- **Replies are matched to calls.** Along every run of the channel with fewer than 2^64 calls: a
closure is run at most once; a call that expects a reply succeeds only by the one message with its
id that found it pending, a reply that parses and whose file descriptors match, and no other message
writes its response; no message but the one that found the call pending writes a response at all;
and a message whose id is not pending leaves the calls alone. -/
theorem calls_matched (hrun : Run step (fun _ _ => True) init as c) (hb : c.begun < 2 ^ 64) :
    (∀ n, closureRuns n c.log ≤ 1) ∧
    (∀ n, Succeeded n c.log → ¬NoReply as n → ∃ mid, TakenBy as n (.reply n true true) mid ∧
      (∀ m' mid', TakenBy as n m' mid' → m' = .reply n true true ∧ mid' = mid) ∧
      ∀ k, .responseWritten n k ∈ c.log → k = mid.received) ∧
    (∀ n k, .responseWritten n k ∈ c.log → ∃ p f mid, TakenBy as n (.reply n p f) mid ∧
      (∀ m' mid', TakenBy as n m' mid' → m' = .reply n p f ∧ mid' = mid) ∧ k = mid.received) ∧
    ∀ m mid, Occurs step (fun _ _ => True) init as (.message m) mid →
      (∀ n, m.replyId? = some n → n ∉ mid.methodCalls.keys) →
      receive mid m = { mid with received := mid.received + 1 } := by
  have hc := owned_of_run hrun hb
  have hex := explained_of_run hrun
  refine ⟨closureRuns_le_one hc, ?_, ?_, fun m mid _ h => receive_of_not_pending h⟩
  · intro n hs hno
    obtain ⟨call, hs | hs⟩ := hs
    · obtain ⟨mid, ht⟩ := hex.complete n call hs
      refine ⟨mid, ht, fun m' mid' h' => TakenBy.unique hrun hb h' ht, fun k hk => ?_⟩
      obtain ⟨p, f, mid', ht', rfl⟩ := hex.written n k hk
      rw [(TakenBy.unique hrun hb ht' ht).2]
    · exact absurd (hex.doneAtSend n call hs) hno
  · intro n k hk
    obtain ⟨p, f, mid, ht, rfl⟩ := hex.written n k hk
    exact ⟨p, f, mid, ht, fun m' mid' h' => TakenBy.unique hrun hb h' ht, rfl⟩

/-- Two calls, the second answered first, with a late duplicate of its reply and an error with an id
nobody has. -/
def crossedReplies : List Action :=
  [.callMethod true true false, .callMethod true true false, .send 1 true, .send 2 true,
    .message (.reply 2 true true), .message (.reply 2 true true), .message (.error 7 "late"),
    .finish ⟨2, ⟨3000000000, true, true⟩, .reply 0 true true⟩, .message (.reply 1 true false),
    .finish ⟨1, ⟨3000000000, true, true⟩, .reply 3 true false⟩]

theorem calls_matched_crossed : ∃ c, runs step init crossedReplies = some c ∧
    Succeeded 2 c.log ∧ ∀ n, closureRuns n c.log ≤ 1 := by
  obtain ⟨c, hc, hview⟩ : ∃ c, runs step init crossedReplies = some c ∧ (c.begun, c.log) =
      (2, [.responseWritten 2 0, .complete 2 ⟨3000000000, true, true⟩, .responseWritten 1 3,
        .completeWithError 1 ⟨3000000000, true, true⟩
          "Mismatched file descriptors in message"]) :=
    Option.map_eq_some_iff.mp (by decide)
  obtain ⟨hbegun, hlog⟩ := Prod.mk.inj hview
  refine ⟨c, hc, ⟨⟨3000000000, true, true⟩, Or.inl (by rw [hlog]; simp)⟩, ?_⟩
  exact (calls_matched (Run.of_runs hc) (by omega)).1

/-- A call of a method that expects no reply succeeds without any message. -/
theorem no_reply_succeeds_unanswered : ∃ as c, Run step (fun _ _ => True) init as c ∧
    c.begun < 2 ^ 64 ∧ Succeeded 1 c.log ∧ closureRuns 1 c.log = 1 ∧
    ∀ m mid, ¬TakenBy as 1 m mid := by
  refine ⟨[.callMethod true true true, .send 1 true], Run.exists_of_runs
    (fun c => (c.begun, c.log)) (1, [.doneAtSend 1 ⟨3000000000, true, true⟩]) (by decide)
    fun c _ hview => ?_⟩
  obtain ⟨hbegun, hlog⟩ := Prod.mk.inj hview
  refine ⟨by omega, ⟨_, Or.inr (by rw [hlog]; exact List.mem_singleton_self _)⟩,
    by rw [hlog]; decide, ?_⟩
  rintro m mid ⟨⟨pre, post, has, -⟩, -, -⟩
  have hmem : Action.message m ∈ [.callMethod true true true, .send 1 true] := by
    rw [has]
    simp
  simp at hmem

end Rialto.Ipc.Calls
