import Rialto.Ipc.ServerSteps

/-! # Every call read by the server is answered

A call has one fate: it is refused with an error reply, or handed to its service, whose closure then
sends one reply.

A call whose request does not parse, or comes with other descriptors than its fields ask for, has
neither fate: `processMethodCall` logs the failure and sends nothing, although the lookups before it
answer with `sendErrorReply`. And a reply that `sendmsg` does not take, because the socket of the
client is full, is logged and lost. `call_answered_iff` says that these are the only ones. -/

namespace Rialto.Ipc.ServerCalls

open Rialto.Lib.OrdMap Rialto.Lib.Runs Rialto.Ipc.FileDescriptors Rialto.Ipc.Server
  Rialto.Ipc.ServerSteps

variable {ρ β : Type*}

/-! ## The invariant -/

/-- What holds between steps: the client being read from is in `m_clients`, and nothing has happened
to calls that were not read. -/
structure Inv (s : State β) : Prop where
  reading : ∀ c rest, s.phase = .reading c rest → Connected s c
  fresh : ∀ n, s.nextCall ≤ n → invocations n s.log = 0 ∧ pendingOf n s = [] ∧ answers n s.log = []

theorem inv_init : Inv (init : State β) :=
  ⟨fun _ _ h => (nomatch h), fun _ _ => ⟨rfl, rfl, rfl⟩⟩

theorem processMethodCall_phase (env : Env ρ β) (s : State β) (m c : ℕ) (call : MethodCall ρ)
    (fds : List ℤ) (complete : Bool) :
    (processMethodCall env s m c call fds complete).phase = s.phase ∧
      (processMethodCall env s m c call fds complete).clients = s.clients := by
  obtain ⟨r, heq⟩ | heq | heq | heq := processMethodCall_cases env s m c call fds complete <;>
    rw [heq] <;> exact ⟨rfl, rfl⟩

theorem processEvent_reading {s : State β} {rest rest' : List Event} {e : Event} {c : ℕ}
    (h : processEvent s rest e = .reading c rest') : Connected s c := by
  cases e with
  | wake => cases h
  | listening => cases h
  | client d err input =>
    simp only [processEvent] at h
    split_ifs at h with hnone
    cases h
    rw [Option.isNone_iff_eq_none, OMap.find?_eq_none, not_not] at hnone
    exact hnone

theorem step_reading {env : Env ρ β} {s s' : State β} {a : Action ρ β}
    (hs : ∀ c rest, s.phase = .reading c rest → Connected s c) (h : step env s a = some s')
    (c : ℕ) (rest : List Event) (hr : s'.phase = .reading c rest) : Connected s' c := by
  cases a with
  | takeId cb added =>
    cases h
    exact hs c rest hr
  | emplaceClient d cb =>
    simp only [step] at h
    split_ifs at h
    cases h
    obtain ⟨v, hv⟩ := OMap.mem_keys.mp (hs c rest hr)
    exact OMap.mem_keys.mpr ⟨v, OMap.subset_emplace hv⟩
  | exportService d name =>
    cases h
    exact hs c rest hr
  | disconnectClient d =>
    simp only [step] at h
    split_ifs at h
    cases h
    exact hs c rest hr
  | poll events =>
    simp only [step] at h
    split at h <;> cases h
    cases hr
  | nextEvent =>
    simp only [step] at h
    split at h <;> cases h
    exact processEvent_reading (s := s) hr
  | socketError =>
    simp only [step] at h
    split at h <;> cases h
    cases hr
  | receive r complete =>
    simp only [step] at h
    split at h <;> cases h
    cases r with
    | wouldBlock => cases hr
    | error => cases hr
    | closed => cases hr
    | truncated => exact hs c rest hr
    | other => exact hs c rest hr
    | call call fds =>
      obtain ⟨hphase, hclients⟩ := processMethodCall_phase env s s.nextCall _ call
        (readMessageFds fds serverFdLimit) complete
      have hc := hs c rest (hphase ▸ hr)
      unfold Connected
      exact hclients ▸ hc
  | endEvents =>
    simp only [step] at h
    split at h
    · split_ifs at h <;> cases h <;> cases hr
    · cases h
  | sweepNext =>
    simp only [step] at h
    split at h
    · cases h
      cases hr
    · split at h <;> cases h <;> cases hr
    · cases h
  | closeSocket =>
    simp only [step] at h
    split at h <;> cases h
    cases hr
  | notify =>
    simp only [step] at h
    split at h <;> cases h
    cases hr
  | done p outcome complete =>
    simp only [step] at h
    split_ifs at h
    cases h
    obtain ⟨r, heq, -⟩ :=
      handleResponse_eq env { s with pending := s.pending.erase p } p outcome complete
    rw [heq] at hr ⊢
    exact hs c rest hr

theorem step_inv {env : Env ρ β} {s s' : State β} {a : Action ρ β} (hs : Inv s)
    (h : step env s a = some s') : Inv s' := by
  refine ⟨step_reading hs.reading h, fun n hn => ?_⟩
  obtain ⟨hlater, hcase⟩ := step_effect h (Or.inr hn)
  obtain ⟨hinv, hpend, hans⟩ := hs.fresh n (Nat.le_trans hlater.nextCall hn)
  rcases hcase with hu | ⟨p, outcome, complete, r, -, hr⟩
  · exact ⟨hu.invocations.trans hinv, hu.pendingOf.trans hpend, hu.answers.trans hans⟩
  · have := hr.mem
    rw [hpend] at this
    cases this

/-! ## The fate of a call -/

/-- What has become of the answer that the service has sent: it went out with the serial id of the
call, or its client had been removed. -/
def Delivered (s : State β) (c serialId : ℕ) : Delivery β → Prop
  | .sent msg => msg.replyId = serialId
  | .gone => .removed c ∈ s.log
  | .failed => False

/-- **The call is answered.** Its service was invoked once, and when the closure has run it sent one
message with the serial id of the call, unless the client was removed before; or the service was not
invoked and one error with the serial id was sent. -/
def Answered (s : State β) (n c serialId : ℕ) : Prop :=
  (invocations n s.log = 1 ∧
    (pendingOf n s = [⟨n, c, serialId⟩] ∧ answers n s.log = [] ∨
      pendingOf n s = [] ∧ ∃ r, answers n s.log = [r] ∧ Delivered s c serialId r)) ∨
  (invocations n s.log = 0 ∧ ∃ reason, answers n s.log = [.sent (.error serialId reason)])

/-- The request parses, and the descriptors received are those its fields ask for. -/
def Accepted (method : Method ρ β) (call : MethodCall ρ) (fds : List ℤ) : Prop :=
  ∃ request request', method.parse call.requestMessage = some request ∧
    addRequestFileDescriptors request (readMessageFds fds serverFdLimit) = some request'

/-- The step runs the closure of call `n` while its client is there, and `sendmsg` fails. -/
def Loses (n : ℕ) (s : State β) (a : Action ρ β) : Prop :=
  ∃ p outcome, a = .done p outcome false ∧ p.n = n ∧ Connected s p.clientId

/-- A call in the hands of its service, or answered by it. -/
structure InHands (n c serialId : ℕ) (s : State β) : Prop where
  read : n < s.nextCall
  known : Known s c
  invoked : invocations n s.log = 1
  fate : pendingOf n s = [⟨n, c, serialId⟩] ∧ answers n s.log = [] ∨
    pendingOf n s = [] ∧ ∃ r, answers n s.log = [r] ∧ Delivered s c serialId r

/-- A call whose answer was lost. -/
structure Lost (n : ℕ) (s : State β) : Prop where
  read : n < s.nextCall
  invoked : invocations n s.log = 1
  pending : pendingOf n s = []
  answered : answers n s.log = [.failed]

theorem Lost.not_answered {n c serialId : ℕ} {s : State β} (h : Lost n s) :
    ¬ Answered s n c serialId := by
  rintro (⟨-, ⟨hpend, -⟩ | ⟨-, r, hans, hdelivered⟩⟩ | ⟨hinv, -⟩)
  · rw [h.pending] at hpend
    cases hpend
  · rw [h.answered] at hans
    cases hans
    exact hdelivered
  · rw [h.invoked] at hinv
    cases hinv

theorem Delivered.later {s s' : State β} {c serialId : ℕ} {r : Delivery β}
    (h : Delivered s c serialId r) (hlater : Later s s') : Delivered s' c serialId r := by
  cases r with
  | sent msg => exact h
  | gone => exact hlater.log _ h
  | failed => exact h

/-- The closure of a call answers it. -/
theorem closure_touches {env : Env ρ β} {s s' : State β} {p : Pending} {outcome : Outcome β}
    {complete : Bool} (h : step env s (.done p outcome complete) = some s') :
    ¬ Untouched p.n s s' := by
  intro hu
  simp only [step] at h
  split_ifs at h
  cases h
  obtain ⟨r, heq, -⟩ :=
    handleResponse_eq env { s with pending := s.pending.erase p } p outcome complete
  have hans := hu.answers
  rw [heq] at hans
  simp [State.note, answers_append] at hans

/-- A step leaves the call in the hands of its service, or answers it, or loses the answer. -/
theorem step_inHands {env : Env ρ β} {s s' : State β} {a : Action ρ β} {n c serialId : ℕ}
    (hs : InHands n c serialId s) (h : step env s a = some s') :
    InHands n c serialId s' ∧ ¬ Loses n s a ∨ Lost n s' ∧ Loses n s a := by
  obtain ⟨hlater, hcase⟩ := step_effect h (Or.inl hs.read)
  have hknown := hlater.known c hs.known
  have hread := Nat.lt_of_lt_of_le hs.read hlater.nextCall
  rcases hcase with hu | ⟨p, outcome, complete, r, rfl, hr⟩
  · refine Or.inl ⟨⟨hread, hknown, hu.invocations.trans hs.invoked, ?_⟩, ?_⟩
    · rw [hu.pendingOf, hu.answers]
      rcases hs.fate with hpend | ⟨hpend, r, hans, hdelivered⟩
      · exact Or.inl hpend
      · exact Or.inr ⟨hpend, r, hans, hdelivered.later hlater⟩
    · rintro ⟨p, outcome, rfl, rfl, -⟩
      exact closure_touches h hu
  · have hmem := hr.mem
    rcases hs.fate with ⟨hpend, hans⟩ | ⟨hpend, -⟩
    · rw [hpend, List.mem_singleton] at hmem
      subst hmem
      have hinv := hr.invocations.trans hs.invoked
      have hnone : pendingOf n s' = [] := by rw [hr.pendingOf, hpend, List.erase_cons_head]
      have hone : answers n s'.log = [r] := by rw [hr.answers, hans, List.nil_append]
      by_cases hfailed : r = .failed
      · obtain ⟨hc, rfl⟩ := hr.sends.failed.mp hfailed
        exact Or.inr ⟨⟨hread, hinv, hnone, hfailed ▸ hone⟩, _, outcome, rfl, rfl, hc⟩
      · refine Or.inl ⟨⟨hread, hknown, hinv, Or.inr ⟨hnone, r, hone, ?_⟩⟩, ?_⟩
        · cases r with
          | sent msg => exact hr.sends.replyId msg rfl
          | gone =>
            rcases hs.known with hc | hc
            · exact absurd hc (hr.sends.gone.mp rfl)
            · exact hlater.log _ hc
          | failed => exact hfailed rfl
        · rintro ⟨p, outcome', heq, -, hc⟩
          cases heq
          exact hfailed (hr.sends.failed.mpr ⟨hc, rfl⟩)
    · rw [hpend] at hmem
      cases hmem

theorem step_lost {env : Env ρ β} {s s' : State β} {a : Action ρ β} {n : ℕ} (hs : Lost n s)
    (h : step env s a = some s') : Lost n s' := by
  obtain ⟨hlater, hcase⟩ := step_effect h (Or.inl hs.read)
  rcases hcase with hu | ⟨p, outcome, complete, r, -, hr⟩
  · exact ⟨Nat.lt_of_lt_of_le hs.read hlater.nextCall, hu.invocations.trans hs.invoked,
      hu.pendingOf.trans hs.pending, hu.answers.trans hs.answered⟩
  · have := hr.mem
    rw [hs.pending] at this
    cases this

/-- A call that was dropped. -/
structure Dropped (n : ℕ) (s : State β) : Prop where
  read : n < s.nextCall
  invoked : invocations n s.log = 0
  pending : pendingOf n s = []
  answered : answers n s.log = []

theorem step_dropped {env : Env ρ β} {s s' : State β} {a : Action ρ β} {n : ℕ}
    (hs : Dropped n s) (h : step env s a = some s') : Dropped n s' := by
  obtain ⟨hlater, hcase⟩ := step_effect h (Or.inl hs.read)
  rcases hcase with hu | ⟨p, outcome, complete, r, -, hr⟩
  · exact ⟨Nat.lt_of_lt_of_le hs.read hlater.nextCall, hu.invocations.trans hs.invoked,
      hu.pendingOf.trans hs.pending, hu.answers.trans hs.answered⟩
  · have := hr.mem
    rw [hs.pending] at this
    cases this

theorem Dropped.not_answered {n c serialId : ℕ} {s : State β} (h : Dropped n s) :
    ¬ Answered s n c serialId := by
  rintro (⟨hinv, -⟩ | ⟨-, reason, hans⟩)
  · rw [h.invoked] at hinv
    cases hinv
  · rw [h.answered] at hans
    cases hans

section Main

variable {env : Env ρ β} {as : List (Action ρ β)} {t u : State β} {c : ℕ} {call : MethodCall ρ}
  {method : Method ρ β}

/-- What reading a call does that names a service and a method with a reply. -/
theorem processReceived_call (rest : List Event) (fds : List ℤ) (complete : Bool)
    (hexported : (c, call.serviceName) ∈ t.exported)
    (hmethod : env.method call.serviceName call.methodName = some method)
    (hreply : method.noReply = false) (ht : Inv t) (hc : Connected t c) :
    (Accepted method call fds → InHands t.nextCall c call.serialId
      (processReceived env t c rest complete (.call call fds))) ∧
    (¬ Accepted method call fds → Dropped t.nextCall
      (processReceived env t c rest complete (.call call fds))) := by
  obtain ⟨hinv, hpend, hans⟩ := ht.fresh t.nextCall (Nat.le_refl _)
  have hlt : t.nextCall < t.nextCall + 1 := Nat.lt_succ_self _
  have hdrop : processMethodCall env t t.nextCall c call (readMessageFds fds serverFdLimit)
      complete = t →
      Dropped t.nextCall (processReceived env t c rest complete (.call call fds)) := by
    intro heq
    simp only [processReceived, heq]
    exact ⟨hlt, hinv, hpend, hans⟩
  refine ⟨?_, fun hno => hdrop ?_⟩
  · rintro ⟨request, request', hparse, hadd⟩
    have hpm : processMethodCall env t t.nextCall c call (readMessageFds fds serverFdLimit)
        complete =
        { t.note (.invoked t.nextCall c) with
          pending := t.pending ++ [⟨t.nextCall, c, call.serialId⟩] } := by
      unfold processMethodCall
      rw [if_neg (not_not_intro hexported), hmethod]
      simp only [hparse, hadd, hreply, Bool.false_eq_true, if_false]
    simp only [processReceived, hpm]
    refine ⟨hlt, Or.inl hc, ?_, Or.inl ⟨?_, ?_⟩⟩
    · simp [State.note, invocations_append, hinv]
    · rw [pendingOf] at hpend
      simp [pendingOf, List.filter_append, hpend]
    · simp [State.note, answers_append, hans]
  · unfold processMethodCall
    rw [if_neg (not_not_intro hexported), hmethod]
    cases hparse : method.parse call.requestMessage with
    | none => simp only [hparse]
    | some request =>
      cases hadd : addRequestFileDescriptors request (readMessageFds fds serverFdLimit) with
      | none => simp only [hparse, hadd]
      | some request' => exact absurd ⟨request, request', hparse, hadd⟩ hno

/-- No step of a run up to the reading of a call answers it. -/
theorem Inv.not_loses (hrun : Run (step env) (fun _ _ => True) init as t) {n : ℕ}
    (hn : t.nextCall ≤ n) {s : State β} {a : Action ρ β}
    (h : Occurs (step env) (fun _ _ => True) init as a s) : ¬ Loses n s a := by
  rintro ⟨p, outcome, rfl, rfl, -⟩
  obtain ⟨pre, -, -, hpre⟩ := id h
  have hinv : Inv s := hpre.invariant Inv (fun _ _ _ hs _ h => step_inv hs h) inv_init
  obtain ⟨s', bs, -, hstep, hrest⟩ := h.rest hrun
  have hlater : s'.nextCall ≤ t.nextCall := by
    refine hrest.invariant (fun v => s'.nextCall ≤ v.nextCall) (fun v b v' hv _ hb => ?_)
      (Nat.le_refl _)
    exact Nat.le_trans hv (step_effect (n := v'.nextCall) hb (Or.inr (Nat.le_refl _))).1.nextCall
  have hnext : s.nextCall ≤ s'.nextCall :=
    (step_effect (n := s'.nextCall) hstep (Or.inr (Nat.le_refl _))).1.nextCall
  obtain ⟨-, hpend, -⟩ := hinv.fresh p.n (Nat.le_trans (Nat.le_trans hnext hlater) hn)
  simp only [step] at hstep
  split_ifs at hstep with hp
  have hmem : p ∈ pendingOf p.n s := List.mem_filter.mpr ⟨hp, beq_self_eq_true _⟩
  rw [hpend] at hmem
  cases hmem

/-- **The runs of a call.** A call that was handed to its service is in its hands or answered, and
no step has lost its answer, or the answer is lost. -/
theorem run_inHands {bs : List (Action ρ β)} {n serialId : ℕ} {s : State β}
    (hrun : Run (step env) (fun _ _ => True) init as s) (hs : InHands n c serialId s)
    (hbefore : ∀ a v, Occurs (step env) (fun _ _ => True) init as a v → ¬ Loses n v a)
    (hrest : Run (step env) (fun _ _ => True) s bs u) :
    (InHands n c serialId u ∧
      ∀ a v, Occurs (step env) (fun _ _ => True) init (as ++ bs) a v → ¬ Loses n v a) ∨
    (Lost n u ∧ ∃ a v, Occurs (step env) (fun _ _ => True) init (as ++ bs) a v ∧ Loses n v a) := by
  refine Run.history (P := fun bs u => (InHands n c serialId u ∧
      ∀ a v, Occurs (step env) (fun _ _ => True) init (as ++ bs) a v → ¬ Loses n v a) ∨
    (Lost n u ∧ ∃ a v, Occurs (step env) (fun _ _ => True) init (as ++ bs) a v ∧ Loses n v a))
    ?_ ?_ hrest
  · rw [List.append_nil]
    exact Or.inl ⟨hs, hbefore⟩
  · intro bs v b w hbs ih _ hstep
    have hlast := Occurs.last (hrun.append hbs) b
    rw [← List.append_assoc]
    rcases ih with ⟨hhands, hnone⟩ | ⟨hlost, a, x, ha, hloses⟩
    · rcases step_inHands hhands hstep with ⟨hhands', hno⟩ | ⟨hlost, hloses⟩
      · refine Or.inl ⟨hhands', fun a x ha => ?_⟩
        rcases ha.snoc_cases with ha | ⟨rfl, hx⟩
        · exact hnone a x ha
        · cases hx.unique (hrun.append hbs)
          exact hno
      · exact Or.inr ⟨hlost, b, v, hlast, hloses⟩
    · exact Or.inr ⟨step_lost hlost hstep, a, x, ha.snoc b, hloses⟩

/-- **Calls are answered.** For every run, and every call that the server reads in it which names an
exported service and a method with a reply: the call is answered, in every state after it, if and
only if its request parses and its descriptors are those the request asks for, and `sendmsg` takes
the reply of its closure if this finds the client still there. -/
theorem call_answered_iff {rest : List Event} {fds : List ℤ} {complete : Bool}
    (hrun : Run (step env) (fun _ _ => True) init as u)
    (hread : Occurs (step env) (fun _ _ => True) init as (.receive (.call call fds) complete) t)
    (hphase : t.phase = .reading c rest) (hexported : (c, call.serviceName) ∈ t.exported)
    (hmethod : env.method call.serviceName call.methodName = some method)
    (hreply : method.noReply = false) :
    Answered u t.nextCall c call.serialId ↔
      Accepted method call fds ∧
        ∀ a s, Occurs (step env) (fun _ _ => True) init as a s → ¬ Loses t.nextCall s a := by
  obtain ⟨pre, post, rfl, hpre⟩ := hread
  have ht : Inv t := hpre.invariant Inv (fun _ _ _ hs _ h => step_inv hs h) inv_init
  obtain ⟨t', hpre', hpost⟩ := hrun.split
  cases hpre.unique hpre'
  cases hpost with
  | cons _ hstep hrest =>
    have hread : Run (step env) (fun _ _ => True) init
        (pre ++ [.receive (.call call fds) complete]) _ :=
      hpre.append (.cons trivial hstep (.nil _))
    have hbefore : ∀ a s, Occurs (step env) (fun _ _ => True) init
        (pre ++ [.receive (.call call fds) complete]) a s → ¬ Loses t.nextCall s a := by
      intro a s ha
      rcases ha.snoc_cases with ha | ⟨rfl, -⟩
      · exact Inv.not_loses hpre (Nat.le_refl _) ha
      · rintro ⟨p, outcome, heq, -⟩
        cases heq
    simp only [step, hphase, Option.some.injEq] at hstep
    obtain ⟨hacc, hdrop⟩ := processReceived_call rest fds complete hexported hmethod hreply ht
      (ht.reading c rest hphase)
    rw [hstep] at hacc hdrop
    rw [List.append_cons]
    by_cases h : Accepted method call fds
    · rcases run_inHands hread (hacc h) hbefore hrest with ⟨hhands, hno⟩ | ⟨hlost, a, s, ha, hl⟩
      · exact ⟨fun _ => ⟨h, hno⟩, fun _ => Or.inl ⟨hhands.invoked, hhands.fate⟩⟩
      · exact ⟨fun hanswered => absurd hanswered hlost.not_answered,
          fun hall => absurd hl (hall.2 a s ha)⟩
    · have hd := hrest.invariant _ (fun _ _ _ hs _ h => step_dropped hs h) (hdrop h)
      exact ⟨fun hanswered => absurd hanswered hd.not_answered, fun hall => absurd hall.1 h⟩

end Main

/-! ## Runs -/

/-- A service whose only request has no fields and parses from `true`. -/
def plainEnv : Env Bool Unit where
  method := fun _ _ => some ⟨false, fun ok => bif ok then some [] else none⟩
  replySize := fun _ _ => 0
  errorSize := fun _ _ => 0

/-- A client connects, its service is exported, and the server reads from its socket. -/
def connectAndPoll : List (Server.Action Bool Unit) :=
  [.takeId true true, .emplaceClient 10000 true, .exportService 10000 "service",
    .poll [.client 10000 false true], .nextEvent]

/-- The state in which the server reads from the client. -/
def atSocket : State Unit where
  clientIdCounter := 10001
  adding := []
  clients := OMap.empty.emplace 10000 true
  condemnedClients := OMap.empty
  exported := [(10000, "service")]
  pending := []
  phase := .reading 10000 []
  nextCall := 0
  log := [.accepted 10000 true]

theorem run_connectAndPoll :
    Run (step plainEnv) (fun _ _ => True) init connectAndPoll atSocket :=
  Run.of_runs rfl

/-- What the server reads: a call with serial id 1. -/
def received (ok : Bool) : Server.Action Bool Unit :=
  .receive (.call ⟨1, "service", "method", ok⟩ []) true

/-- The state in which the service has the call. -/
def inService : State Unit :=
  processReceived plainEnv atSocket 10000 [] true (.call ⟨1, "service", "method", true⟩ [])

theorem run_inService :
    Run (step plainEnv) (fun _ _ => True) init (connectAndPoll ++ [received true]) inService :=
  run_connectAndPoll.append (Run.of_runs rfl)

/-- A call whose request parses is answered: the service has it, and then it has the reply. -/
theorem call_answered_plain : ∃ u, Run (step plainEnv) (fun _ _ => True) init
      (connectAndPoll ++ [received true] ++ [.done ⟨0, 10000, 1⟩ (.response []) true]) u ∧
    pendingOf 0 u = [] ∧ Answered u 0 10000 1 := by
  have hrun : Run (step plainEnv) (fun _ _ => True) init
      (connectAndPoll ++ [received true] ++ [.done ⟨0, 10000, 1⟩ (.response []) true])
      (handleResponse plainEnv { inService with pending := [] } ⟨0, 10000, 1⟩ (.response [])
        true) := run_inService.append (Run.of_runs rfl)
  have hread : Occurs (step plainEnv) (fun _ _ => True) init
      (connectAndPoll ++ [received true] ++ [.done ⟨0, 10000, 1⟩ (.response []) true])
      (received true) atSocket :=
    ⟨_, [.done ⟨0, 10000, 1⟩ (.response []) true], rfl, run_connectAndPoll⟩
  have hphase : atSocket.phase = .reading 10000 [] := rfl
  refine ⟨_, hrun, rfl, (call_answered_iff hrun hread hphase (List.mem_singleton_self _) rfl
    rfl).mpr ⟨⟨[], [], rfl, rfl⟩, ?_⟩⟩
  rintro a s ha ⟨p, outcome, rfl, -⟩
  have hmem := ha.mem
  simp [connectAndPoll, received] at hmem

/-- Two calls that are not answered. A call whose request does not parse is dropped: nothing is
invoked and nothing is sent, then or later. And the reply to a call that was invoked is lost when
the socket of its client does not take it. -/
theorem calls_unanswered :
    (∃ u, Run (step plainEnv) (fun _ _ => True) init (connectAndPoll ++ [received false]) u ∧
      (10000, "service") ∈ u.exported ∧
      (∃ method, plainEnv.method "service" "method" = some method ∧ method.noReply = false) ∧
      ¬ Answered u 0 10000 1 ∧
      ∀ as u', Run (step plainEnv) (fun _ _ => True) u as u' → ¬ Answered u' 0 10000 1) ∧
    (∃ u, Run (step plainEnv) (fun _ _ => True) init
        (connectAndPoll ++ [received true] ++ [.done ⟨0, 10000, 1⟩ (.response []) false]) u ∧
      Connected u 10000 ∧ ¬ Answered u 0 10000 1 ∧
      ∀ as u', Run (step plainEnv) (fun _ _ => True) u as u' → ¬ Answered u' 0 10000 1) := by
  refine ⟨?_, ?_⟩
  · have hrun : Run (step plainEnv) (fun _ _ => True) init (connectAndPoll ++ [received false])
        (processReceived plainEnv atSocket 10000 [] true
          (.call ⟨1, "service", "method", false⟩ [])) :=
      run_connectAndPoll.append (Run.of_runs rfl)
    have hdropped : Dropped 0 (processReceived plainEnv atSocket 10000 [] true
        (.call ⟨1, "service", "method", false⟩ [])) := ⟨Nat.zero_lt_one, rfl, rfl, rfl⟩
    refine ⟨_, hrun, List.mem_singleton_self _, ⟨_, rfl, rfl⟩, hdropped.not_answered, ?_⟩
    intro as u' h
    exact (h.invariant _ (fun _ _ _ hs _ h => step_dropped hs h) hdropped).not_answered
  · have hrun : Run (step plainEnv) (fun _ _ => True) init
        (connectAndPoll ++ [received true] ++ [.done ⟨0, 10000, 1⟩ (.response []) false])
        (handleResponse plainEnv { inService with pending := [] } ⟨0, 10000, 1⟩ (.response [])
          false) := run_inService.append (Run.of_runs rfl)
    have hlost : Lost 0 (handleResponse plainEnv { inService with pending := [] } ⟨0, 10000, 1⟩
        (.response []) false) := ⟨Nat.zero_lt_one, rfl, rfl, rfl⟩
    refine ⟨_, hrun, List.mem_singleton_self _, hlost.not_answered, ?_⟩
    intro as u' h
    exact (h.invariant _ (fun _ _ _ hs _ h => step_lost hs h) hlost).not_answered

end Rialto.Ipc.ServerCalls
