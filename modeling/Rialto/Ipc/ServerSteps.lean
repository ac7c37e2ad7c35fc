import Rialto.Ipc.Server

/-! # What the steps of the IPC server do to a call

A call that was read is in the log with its invocation and its answers, and its closure is in
`pending`.

* `processMethodCall_cases`, `handleResponse_eq`: what reading a call and running a closure do.
* `step_effect`: what a step does to a call that it does not read, which is nothing but running its
  closure. -/

namespace Rialto.Ipc.ServerSteps

open Rialto.Lib.OrdMap Rialto.Ipc.FileDescriptors Rialto.Ipc.Server

variable {ρ β : Type*}

/-! ## What has happened to a call -/

/-- How often the service was invoked for call `n`. -/
def invocations (n : ℕ) (log : List (Entry β)) : ℕ :=
  log.countP fun e => match e with
    | .invoked m _ => m == n
    | _ => false

/-- What became of the answers to call `n`. -/
def answers (n : ℕ) (log : List (Entry β)) : List (Delivery β) :=
  log.filterMap fun e => match e with
    | .answered m delivery => if m = n then some delivery else none
    | _ => none

/-- The closure of call `n`, if it has not run. -/
def pendingOf (n : ℕ) (s : State β) : List Pending := s.pending.filter fun p => p.n == n

/-- The client is in `m_clients`. -/
def Connected (s : State β) (c : ℕ) : Prop := c ∈ s.clients.keys

/-- The client is in `m_clients` or was removed from it. -/
def Known (s : State β) (c : ℕ) : Prop := Connected s c ∨ Entry.removed c ∈ s.log

/-- An entry that says nothing about a call. -/
def Entry.Neutral : Entry β → Prop
  | .invoked _ _ => False
  | .answered _ _ => False
  | _ => True

theorem invocations_append (n : ℕ) (l l' : List (Entry β)) :
    invocations n (l ++ l') = invocations n l + invocations n l' := List.countP_append

theorem answers_append (n : ℕ) (l l' : List (Entry β)) :
    answers n (l ++ l') = answers n l ++ answers n l' := List.filterMap_append

@[simp] theorem invocations_invoked (n m c : ℕ) :
    invocations n [(.invoked m c : Entry β)] = if m = n then 1 else 0 := by
  by_cases h : m = n <;> simp [invocations, h]

@[simp] theorem invocations_answered (n m : ℕ) (r : Delivery β) :
    invocations n [(.answered m r : Entry β)] = 0 := rfl

@[simp] theorem answers_invoked (n m c : ℕ) : answers n [(.invoked m c : Entry β)] = [] := rfl

@[simp] theorem answers_answered (n m : ℕ) (r : Delivery β) :
    answers n [(.answered m r : Entry β)] = if m = n then [r] else [] := by
  by_cases h : m = n <;> simp [answers, h]

theorem neutral_counts {e : Entry β} (h : Entry.Neutral e) (n : ℕ) :
    invocations n [e] = 0 ∧ answers n [e] = [] := by
  cases e <;> first | exact ⟨rfl, rfl⟩ | exact h.elim

theorem isNone_find? {s : State β} {c : ℕ} : (s.clients.find? c).isNone ↔ ¬ Connected s c := by
  rw [Option.isNone_iff_eq_none, OMap.find?_eq_none]
  rfl

/-! ## Steps -/

/-- What every step keeps. -/
structure Later (s s' : State β) : Prop where
  nextCall : s.nextCall ≤ s'.nextCall
  log : ∀ e ∈ s.log, e ∈ s'.log
  known : ∀ c, Known s c → Known s' c

/-- A step leaves what has happened to call `n` alone. -/
structure Untouched (n : ℕ) (s s' : State β) : Prop where
  invocations : invocations n s'.log = invocations n s.log
  pendingOf : pendingOf n s' = pendingOf n s
  answers : answers n s'.log = answers n s.log

/-- What becomes of the answer that the closure `p` sends: it has the id of the call, and is lost
when the client is there and `sendmsg` does not take it. -/
structure Sends (p : Pending) (complete : Bool) (s : State β) (r : Delivery β) : Prop where
  replyId : ∀ msg, r = .sent msg → msg.replyId = p.serialId
  gone : r = .gone ↔ ¬ Connected s p.clientId
  failed : r = .failed ↔ Connected s p.clientId ∧ complete = false

/-- A step runs the closure `p` of call `n`, whose answer becomes `r`. -/
structure RunsClosure (n : ℕ) (p : Pending) (complete : Bool) (r : Delivery β) (s s' : State β) :
    Prop where
  mem : p ∈ ServerSteps.pendingOf n s
  invocations : invocations n s'.log = ServerSteps.invocations n s.log
  pendingOf : pendingOf n s' = (ServerSteps.pendingOf n s).erase p
  answers : answers n s'.log = ServerSteps.answers n s.log ++ [r]
  sends : Sends p complete s r

theorem later_of {s s' : State β} (hnext : s.nextCall ≤ s'.nextCall)
    (hclients : s'.clients = s.clients) (hlog : ∀ e ∈ s.log, e ∈ s'.log) : Later s s' := by
  refine ⟨hnext, hlog, ?_⟩
  rintro c (h | h)
  · refine Or.inl ?_
    rw [Connected, hclients]
    exact h
  · exact Or.inr (hlog _ h)

/-- What a step may do as far as call `n` is concerned. -/
def Effect (n : ℕ) (a : Action ρ β) (s s' : State β) : Prop :=
  Later s s' ∧ (Untouched n s s' ∨
    ∃ p outcome complete r, a = .done p outcome complete ∧ RunsClosure n p complete r s s')

/-- A step that writes nothing to the log. -/
theorem effect_silent {n : ℕ} {a : Action ρ β} {s s' : State β} (hnext : s.nextCall ≤ s'.nextCall)
    (hclients : s'.clients = s.clients) (hpending : s'.pending = s.pending)
    (hlog : s'.log = s.log) : Effect n a s s' := by
  refine ⟨later_of hnext hclients ?_, Or.inl ⟨by rw [hlog], ?_, by rw [hlog]⟩⟩
  · rw [hlog]
    exact fun _ h => h
  · rw [pendingOf, hpending]
    rfl

theorem untouched_note {n : ℕ} {s s' : State β} {e : Entry β} (he : Entry.Neutral e)
    (hpending : s'.pending = s.pending) (hlog : s'.log = s.log ++ [e]) : Untouched n s s' := by
  obtain ⟨hinv, hans⟩ := neutral_counts he n
  refine ⟨?_, ?_, ?_⟩
  · rw [hlog, invocations_append, hinv, Nat.add_zero]
  · rw [pendingOf, hpending]
    rfl
  · rw [hlog, answers_append, hans, List.append_nil]

/-- A step that writes an entry about no call. -/
theorem effect_note {n : ℕ} {a : Action ρ β} {s s' : State β} {e : Entry β}
    (he : Entry.Neutral e) (hnext : s.nextCall ≤ s'.nextCall) (hclients : s'.clients = s.clients)
    (hpending : s'.pending = s.pending) (hlog : s'.log = s.log ++ [e]) : Effect n a s s' := by
  refine ⟨later_of hnext hclients ?_, Or.inl (untouched_note he hpending hlog)⟩
  rw [hlog]
  exact fun _ h => List.mem_append_left _ h

/-- The state after an answer is the one before with one entry more. -/
theorem sendReply_eq (s : State β) (n c : ℕ) (msg : Reply β) (complete : Bool) :
    ∃ r, sendReply s n c msg complete = s.note (.answered n r) ∧
      (∀ msg', r = .sent msg' → msg' = msg) ∧ (r = .gone ↔ ¬ Connected s c) ∧
      (r = .failed ↔ Connected s c ∧ complete = false) := by
  unfold sendReply
  by_cases hc : Connected s c
  · rw [if_neg (isNone_find?.not.mpr (not_not_intro hc))]
    cases complete with
    | true => exact ⟨.sent msg, by simp, by simp, by simp [hc], by simp⟩
    | false => exact ⟨.failed, by simp, by simp, by simp [hc], by simp [hc]⟩
  · exact ⟨.gone, if_pos (isNone_find?.mpr hc), by simp, by simp [hc], by simp [hc]⟩

theorem populateErrorReply_eq (env : Env ρ β) (serialId : ℕ) (reason : String) :
    ∃ reason', populateErrorReply env serialId reason = .error serialId reason' := by
  unfold populateErrorReply
  split_ifs
  · exact ⟨_, rfl⟩
  · exact ⟨_, rfl⟩

theorem replyId_populateReply (env : Env ρ β) (serialId : ℕ) (response : Message β) :
    (populateReply env serialId response).replyId = serialId := by
  unfold populateReply
  split_ifs
  · obtain ⟨reason, h⟩ := populateErrorReply_eq env serialId
      "Internal error - reply message to large"
    rw [h]
    rfl
  · rfl

/-- The closure of a call sends one answer. -/
theorem handleResponse_eq (env : Env ρ β) (s : State β) (p : Pending) (outcome : Outcome β)
    (complete : Bool) :
    ∃ r, handleResponse env s p outcome complete = s.note (.answered p.n r) ∧
      Sends p complete s r := by
  obtain ⟨msg, hsend, hid⟩ : ∃ msg : Reply β,
      handleResponse env s p outcome complete = sendReply s p.n p.clientId msg complete ∧
        msg.replyId = p.serialId := by
    cases outcome with
    | response response => exact ⟨_, rfl, replyId_populateReply env p.serialId response⟩
    | failed reason =>
      obtain ⟨reason', h⟩ := populateErrorReply_eq env p.serialId reason
      exact ⟨_, rfl, by simp only [h, Reply.replyId]⟩
  obtain ⟨r, heq, hsent, hgone, hfailed⟩ := sendReply_eq s p.n p.clientId msg complete
  refine ⟨r, hsend.trans heq, ⟨fun msg' h => ?_, hgone, hfailed⟩⟩
  rw [hsent msg' h]
  exact hid

/-- What `processMethodCall` can do with call `m`. -/
theorem processMethodCall_cases (env : Env ρ β) (s : State β) (m c : ℕ) (call : MethodCall ρ)
    (fds : List ℤ) (complete : Bool) :
    (∃ r, processMethodCall env s m c call fds complete = s.note (.answered m r)) ∨
    processMethodCall env s m c call fds complete = s ∨
    processMethodCall env s m c call fds complete = s.note (.invoked m c) ∨
    processMethodCall env s m c call fds complete =
      { s.note (.invoked m c) with pending := s.pending ++ [⟨m, c, call.serialId⟩] } := by
  have refused : ∀ reason, ∃ r, sendErrorReply env s m c call.serialId reason complete =
      s.note (.answered m r) := by
    intro reason
    obtain ⟨r, h, -⟩ := sendReply_eq s m c
      (populateErrorReply env call.serialId (truncateReason reason)) complete
    exact ⟨r, h⟩
  unfold processMethodCall
  by_cases hexported : (c, call.serviceName) ∈ s.exported
  · rw [if_neg (not_not.mpr hexported)]
    cases env.method call.serviceName call.methodName with
    | none => exact Or.inl (refused _)
    | some method =>
      dsimp only
      cases method.parse call.requestMessage with
      | none => exact Or.inr (Or.inl rfl)
      | some request =>
        dsimp only
        cases addRequestFileDescriptors request fds with
        | none => exact Or.inr (Or.inl rfl)
        | some request' =>
          dsimp only
          split_ifs
          · exact Or.inr (Or.inr (Or.inl rfl))
          · exact Or.inr (Or.inr (Or.inr rfl))
  · rw [if_pos hexported]
    exact Or.inl (refused _)

/-- Reading a call leaves the other calls alone. -/
theorem effect_processMethodCall {n m : ℕ} {a : Action ρ β} (hne : m ≠ n) (env : Env ρ β)
    (s : State β) (c : ℕ) (call : MethodCall ρ) (fds : List ℤ) (complete : Bool) (k : ℕ)
    (hk : s.nextCall ≤ k) :
    Effect n a s { processMethodCall env s m c call fds complete with nextCall := k } := by
  have hlog : ∀ e : Entry β, ∀ e' ∈ s.log, e' ∈ s.log ++ [e] := fun _ _ h =>
    List.mem_append_left _ h
  obtain ⟨r, heq⟩ | heq | heq | heq := processMethodCall_cases env s m c call fds complete
  · rw [heq]
    refine ⟨later_of hk rfl (hlog _), Or.inl ⟨?_, rfl, ?_⟩⟩
    · simp [State.note, invocations_append]
    · simp [State.note, answers_append, hne]
  · rw [heq]
    exact effect_silent hk rfl rfl rfl
  · rw [heq]
    refine ⟨later_of hk rfl (hlog _), Or.inl ⟨?_, rfl, ?_⟩⟩
    · simp [State.note, invocations_append, hne]
    · simp [State.note, answers_append]
  · rw [heq]
    refine ⟨later_of hk rfl (hlog _), Or.inl ⟨?_, ?_, ?_⟩⟩
    · simp [State.note, invocations_append, hne]
    · simp [ServerSteps.pendingOf, List.filter_append, hne]
    · simp [State.note, answers_append]

theorem effect_done (env : Env ρ β) (n : ℕ) {s : State β} {p : Pending} (hp : p ∈ s.pending)
    (outcome : Outcome β) (complete : Bool) :
    Effect n (.done p outcome complete : Action ρ β) s
      (handleResponse env { s with pending := s.pending.erase p } p outcome complete) := by
  obtain ⟨r, heq, hsends⟩ :=
    handleResponse_eq env { s with pending := s.pending.erase p } p outcome complete
  rw [heq]
  have hpending : pendingOf n (State.note { s with pending := s.pending.erase p }
      (.answered p.n r)) = (pendingOf n s).erase p := List.erase_filter.symm
  refine ⟨later_of (Nat.le_refl _) rfl fun _ h => List.mem_append_left _ h, ?_⟩
  by_cases hpn : p.n = n
  · refine Or.inr ⟨p, outcome, complete, r, rfl, ?_, ?_, hpending, ?_,
      ⟨hsends.replyId, hsends.gone, hsends.failed⟩⟩
    · exact List.mem_filter.mpr ⟨hp, beq_iff_eq.mpr hpn⟩
    · simp [State.note, invocations_append]
    · simp [State.note, answers_append, hpn]
  · refine Or.inl ⟨?_, ?_, ?_⟩
    · simp [State.note, invocations_append]
    · rw [hpending]
      exact List.erase_of_not_mem (by simp [ServerSteps.pendingOf, hpn])
    · simp [State.note, answers_append, hpn]

/-- **What a step does to a call**: nothing, or it runs the closure. The call is not the one that
the step reads. -/
theorem step_effect {env : Env ρ β} {s s' : State β} {a : Action ρ β}
    (h : step env s a = some s') {n : ℕ} (hn : n < s.nextCall ∨ s'.nextCall ≤ n) :
    Effect n a s s' := by
  cases a with
  | takeId cb added =>
    cases h
    exact effect_silent (Nat.le_refl _) rfl rfl rfl
  | emplaceClient c cb =>
    simp only [step] at h
    split_ifs at h
    cases h
    refine ⟨⟨Nat.le_refl _, fun _ h => List.mem_append_left _ h, ?_⟩,
      Or.inl (untouched_note (e := .accepted c cb) trivial rfl rfl)⟩
    rintro d (hd | hd)
    · obtain ⟨v, hv⟩ := OMap.mem_keys.mp hd
      exact Or.inl (OMap.mem_keys.mpr ⟨v, OMap.subset_emplace hv⟩)
    · exact Or.inr (List.mem_append_left _ hd)
  | exportService c name =>
    cases h
    exact effect_silent (Nat.le_refl _) rfl rfl rfl
  | disconnectClient c =>
    simp only [step] at h
    split_ifs at h
    cases h
    exact effect_note (e := .condemned c) trivial (Nat.le_refl _) rfl rfl rfl
  | poll events =>
    simp only [step] at h
    split at h <;> cases h
    exact effect_silent (Nat.le_refl _) rfl rfl rfl
  | nextEvent =>
    simp only [step] at h
    split at h <;> cases h
    exact effect_silent (Nat.le_refl _) rfl rfl rfl
  | socketError =>
    simp only [step] at h
    split at h <;> cases h
    exact effect_note (e := .condemned _) trivial (Nat.le_refl _) rfl rfl rfl
  | receive r complete =>
    simp only [step] at h
    split at h <;> cases h
    cases r with
    | wouldBlock => exact effect_silent (Nat.le_refl _) rfl rfl rfl
    | error => exact effect_note (e := .condemned _) trivial (Nat.le_refl _) rfl rfl rfl
    | closed => exact effect_note (e := .condemned _) trivial (Nat.le_refl _) rfl rfl rfl
    | truncated => exact effect_silent (Nat.le_refl _) rfl rfl rfl
    | other => exact effect_silent (Nat.le_refl _) rfl rfl rfl
    | call call fds =>
      have hne : s.nextCall ≠ n := by
        rcases hn with hn | hn
        · exact Nat.ne_of_gt hn
        · exact Nat.ne_of_lt hn
      exact effect_processMethodCall hne env s _ call _ complete _ (Nat.le_succ _)
  | endEvents =>
    simp only [step] at h
    split at h
    · split_ifs at h <;> cases h <;>
        exact effect_note (e := .swept) trivial (Nat.le_refl _) rfl rfl rfl
    · cases h
  | sweepNext =>
    simp only [step] at h
    split at h
    · cases h
      exact effect_silent (Nat.le_refl _) rfl rfl rfl
    · next c _ _ =>
      split at h
      · cases h
        exact effect_silent (Nat.le_refl _) rfl rfl rfl
      · cases h
        refine ⟨⟨Nat.le_refl _, fun _ h => List.mem_append_left _ h, ?_⟩,
          Or.inl (untouched_note (e := .removed c) trivial rfl rfl)⟩
        rintro d (hd | hd)
        · by_cases hdc : d = c
          · subst hdc
            exact Or.inr (List.mem_append_right _ (List.mem_singleton_self _))
          · obtain ⟨v, hv⟩ := OMap.mem_keys.mp hd
            exact Or.inl (OMap.mem_keys.mpr ⟨v, OMap.mem_erase.mpr ⟨hv, hdc⟩⟩)
        · exact Or.inr (List.mem_append_left _ hd)
    · cases h
  | closeSocket =>
    simp only [step] at h
    split at h <;> cases h
    exact effect_note (e := .closed _) trivial (Nat.le_refl _) rfl rfl rfl
  | notify =>
    simp only [step] at h
    split at h <;> cases h
    exact effect_note (e := .notified _ _) trivial (Nat.le_refl _) rfl rfl rfl
  | done p outcome complete =>
    simp only [step] at h
    split_ifs at h with hp
    cases h
    exact effect_done env n hp outcome complete

end Rialto.Ipc.ServerSteps
