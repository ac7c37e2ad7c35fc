import Rialto.Client.SharedMemory

/-! # The descriptors of the client's shared memory

What `RialtoControl` receives from `getSharedMemory` and what it closes, over whole requests. A
request is one call of `setApplicationState`; the sections that `termSharedMemory` consists of run
one after the other in it, and what they do to the clients is left to `Client.SharedMemory`.

* `Ledger`: the object with the descriptors it has received and those it has closed.
* `control_setApplicationState`, `run_termSharedMemory`: a request is what the sections make of it.
* `Inv`: the object holds the last descriptor while it is `RUNNING`, and none otherwise.
* `owned_iff`: the memory is owned along a run of requests exactly when no answer of
  `getSharedMemory` is a descriptor without a length or a length without a descriptor. -/

namespace Rialto.Client.Descriptors

open Rialto.Lib.Runs Rialto.Client.SharedMemory

/-! ## Requests -/

/-- `RialtoControl` between two requests. The value `-1` is no descriptor. -/
structure Ledger where
  control : State
  received : List ℤ
  closed : List ℤ

def init : Ledger := ⟨SharedMemory.init, [], []⟩

/-- A call of `setApplicationState` with what the calls it makes return. -/
structure Request where
  state : ApplicationState
  outcome : Outcome
  munmap : Bool
  deriving DecidableEq, Repr

namespace Ledger

def setState (d : Ledger) (state : ApplicationState) : Ledger :=
  { d with control := { d.control with currentState := state } }

/-- What a successful `getSharedMemory` writes to `m_shmFd` and `m_shmBufferLen`. -/
def receive (d : Ledger) (fd : ℤ) (len : ℕ) : Ledger :=
  { d with
    control := { d.control with shmFd := fd, shmBufferLen := len }
    received := if fd = -1 then d.received else d.received ++ [fd] }

/-- `close(m_shmFd)`, with the two fields reset. -/
def close (d : Ledger) : Ledger :=
  { d with
    control := { d.control with shmFd := -1, shmBufferLen := 0 }
    closed := d.closed ++ [d.control.shmFd] }

def mapBuffer (d : Ledger) : Ledger :=
  { d with control := { d.control with
      shmBuffer := some d.control.nextMapping
      mapped := insert d.control.nextMapping d.control.mapped
      nextMapping := d.control.nextMapping + 1 } }

def dropBuffer (d : Ledger) : Ledger := { d with control := { d.control with shmBuffer := none } }

/-- `munmap` of the address `shmBuffer`. -/
def unmapBuffer (d : Ledger) (shmBuffer : Option ℕ) (munmap : Bool) : Ledger :=
  { d with control := { d.control with
      mapped := if munmap then
        match shmBuffer with
        | some p => d.control.mapped.erase p
        | none => d.control.mapped
        else d.control.mapped } }

def initSharedMemory (d : Ledger) (o : Outcome) : Bool × Ledger :=
  match o.getSharedMemory with
  | none => (false, d)
  | some (fd, len) =>
    if fd = -1 ∨ len = 0 then (false, d.receive fd len)
    else if o.mmap then (true, (d.receive fd len).mapBuffer)
    else (false, ((d.receive fd len).close).dropBuffer)

def termSharedMemory (d : Ledger) (munmap : Bool) : Ledger :=
  if d.control.shmFd = -1 then d.dropBuffer
  else ((d.dropBuffer).unmapBuffer d.control.shmBuffer munmap).close

def setApplicationState (d : Ledger) (r : Request) : Bool × Ledger :=
  if d.control.currentState = .unknown then (false, d)
  else if d.control.currentState = r.state then (true, d)
  else
    match r.state with
    | .running =>
      match d.initSharedMemory r.outcome with
      | (true, d) => (true, d.setState .running)
      | (false, d) => (false, d)
    | .inactive => (true, (d.termSharedMemory r.munmap).setState .inactive)
    | .unknown => (false, d)

/-- The destructor. -/
def term (d : Ledger) (munmap : Bool) : Ledger :=
  if d.control.currentState = .running then (d.termSharedMemory munmap).setState .unknown
  else d.setState .unknown

end Ledger

/-- The object after the requests. -/
def after (rs : List Request) : Ledger := rs.foldl (fun d r => (d.setApplicationState r).2) init

theorem after_snoc (rs : List Request) (r : Request) :
    after (rs ++ [r]) = ((after rs).setApplicationState r).2 := by
  simp [after]

/-! ## A request in sections -/

variable {d : Ledger}

theorem control_initSharedMemory (d : Ledger) (o : Outcome) :
    ((d.initSharedMemory o).1, (d.initSharedMemory o).2.control) =
      SharedMemory.initSharedMemory d.control o := by
  unfold Ledger.initSharedMemory SharedMemory.initSharedMemory
  rcases o.getSharedMemory with _ | ⟨fd, len⟩
  · rfl
  · by_cases hbad : fd = -1 ∨ len = 0
    · simp only [if_pos hbad, Ledger.receive]
    · cases hmmap : o.mmap
      · simp only [if_neg hbad, Ledger.receive, Ledger.close, Ledger.dropBuffer, Bool.false_eq_true,
          if_false]
      · simp only [if_neg hbad, Ledger.receive, Ledger.mapBuffer, if_true]

/-- The last section of `termSharedMemory` leaves what the whole of it leaves. -/
theorem control_termSharedMemory (hidle : d.control.control = .idle) (next : ApplicationState)
    (munmap : Bool) :
    ((d.termSharedMemory munmap).setState next).control =
      unmap (SharedMemory.termSharedMemory d.control next) d.control.shmBuffer next munmap := by
  unfold Ledger.termSharedMemory unmap SharedMemory.termSharedMemory
  by_cases hfd : d.control.shmFd = -1
  · simp only [if_pos hfd, Ledger.dropBuffer, Ledger.setState, ← hidle]
  · rw [if_neg hfd, if_neg hfd, ← hidle]
    rfl

/-- A request that does not reach `termSharedMemory` is one section. -/
theorem control_setApplicationState {r : Request} (hr : r.state ≠ .inactive) :
    (d.setApplicationState r).2.control =
      SharedMemory.setApplicationState d.control r.state r.outcome := by
  have hinit := control_initSharedMemory d r.outcome
  unfold Ledger.setApplicationState SharedMemory.setApplicationState
  by_cases hunknown : d.control.currentState = .unknown
  · simp only [if_pos hunknown]
  · by_cases hsame : d.control.currentState = r.state
    · simp only [if_neg hunknown, if_pos hsame]
    · simp only [if_neg hunknown, if_neg hsame]
      cases hstate : r.state with
      | inactive => exact absurd hstate hr
      | unknown => rfl
      | running =>
        rcases hd : d.initSharedMemory r.outcome with ⟨_ | _, d'⟩
        · rw [hd] at hinit
          simp only [← hinit]
        · rw [hd] at hinit
          simp only [← hinit, Ledger.setState]

theorem unmap_clientVec (s : State) (p : Option ℕ) (next : ApplicationState) (munmap : Bool)
    (v : Lib.OrdMap.OMap ℕ ManagerClient) (control : Control) :
    unmap { s with clientVec := v, control } p next munmap =
      { unmap s p next munmap with clientVec := v } := by
  unfold unmap
  by_cases hfd : s.shmFd = -1
  · simp only [if_pos hfd]
  · simp only [if_neg hfd]

theorem notifyClient_eq {s s' : State} {p : Option ℕ} {l : List ℕ} {next : ApplicationState}
    (hs : s.control = .notifying p l next) (h : step s .notifyClient = some s') :
    ∃ v rest, s' = { s with clientVec := v, control := .notifying p rest next } := by
  unfold step stepControl stepClient at h
  rw [hs] at h
  rcases l with _ | ⟨c, rest⟩
  · cases h
  · simp only [onClient] at h
    rcases hc : s.clientVec.find? c with _ | client
    · rw [hc] at h
      cases h
    · simp only [hc, notifyBufferTerm] at h
      cases hkind : client.kind
      · simp only [hkind] at h
        split_ifs at h
        cases h
        exact ⟨_, rest, rfl⟩
      · simp only [hkind] at h
        cases h
        exact ⟨s.clientVec, rest, rfl⟩

/-- The notifications change the clients only. -/
theorem run_notifyClient {s t : State} {p : Option ℕ} {next : ApplicationState} :
    ∀ {n : ℕ} {l : List ℕ}, s.control = .notifying p l next →
      Run step (fun _ _ => True) s (List.replicate n .notifyClient) t →
      ∃ v rest, t = { s with clientVec := v, control := .notifying p rest next } := by
  intro n
  induction n generalizing s with
  | zero =>
    intro l hs h
    cases h
    exact ⟨t.clientVec, l, by rw [← hs]⟩
  | succ n ih =>
    intro l hs h
    rw [List.replicate_succ] at h
    cases h with
    | cons _ hstep rest =>
      obtain ⟨v, l', rfl⟩ := notifyClient_eq hs hstep
      obtain ⟨v', l'', rfl⟩ := ih rfl rest
      exact ⟨v', l'', rfl⟩

/-- **The sections of `termSharedMemory`**, from where the address is taken away, however many
clients are notified. -/
theorem run_termSharedMemory (hidle : d.control.control = .idle) {next : ApplicationState}
    {munmap : Bool} {n : ℕ} {t : State}
    (h : Run step (fun _ _ => True) (SharedMemory.termSharedMemory d.control next)
      (.lockClients :: (List.replicate n .notifyClient ++ [.unlockClients, .unmap munmap])) t) :
    ∃ v, t = { ((d.termSharedMemory munmap).setState next).control with clientVec := v } := by
  rw [control_termSharedMemory hidle next munmap]
  cases h with
  | cons _ hlock h =>
    cases hlock
    obtain ⟨s₁, h₁, h₂⟩ := h.split
    obtain ⟨v, rest, rfl⟩ := run_notifyClient rfl h₁
    cases h₂ with
    | cons _ hunlock h₃ =>
      rcases rest with _ | ⟨c, rest⟩
      · cases hunlock
        cases h₃ with
        | cons _ hunmap h₄ =>
          cases hunmap
          cases h₄
          refine ⟨v, ?_⟩
          exact unmap_clientVec (SharedMemory.termSharedMemory d.control next) _ next munmap v _
      · cases hunlock

/-! ## Ownership -/

/-- A buffer is mapped, and its descriptor and its length are held. -/
def Held (d : Ledger) : Prop :=
  ∃ p, d.control.shmBuffer = some p ∧ p ∈ d.control.mapped ∧ d.control.shmFd ≠ -1 ∧
    d.control.shmBufferLen ≠ 0

/-- A request from `d` to `d'` leaves nothing behind: no mapping is new and neither descriptor,
length nor address is held, unless they are those of an application that was `RUNNING` before the
request and that the request has not touched. -/
def LeavesNothing (d d' : Ledger) : Prop :=
  d'.control.mapped = d.control.mapped ∧
    (d'.control.shmFd = -1 ∧ d'.control.shmBufferLen = 0 ∧ d'.control.shmBuffer = none ∨
      d.control.currentState = .running ∧ d' = d)

/-- What is asked of a request: after it the state is `RUNNING` exactly when the memory is held,
and if it returns false it leaves nothing behind. -/
def RequestKept (d : Ledger) (r : Request) : Prop :=
  ((d.setApplicationState r).2.control.currentState = .running ↔
      Held (d.setApplicationState r).2) ∧
    ((d.setApplicationState r).1 = false → LeavesNothing d (d.setApplicationState r).2)

/-- Every descriptor received has been closed, once. -/
def Balanced (d : Ledger) : Prop := d.closed.Perm d.received

/-- The memory is owned along the requests: every one of them does what is asked of it, and every
descriptor is closed once when the object is destroyed after them. -/
def Owned (rs : List Request) : Prop :=
  (∀ pre r post, rs = pre ++ r :: post → RequestKept (after pre) r) ∧
    ∀ munmap, Balanced ((after rs).term munmap)

/-- The answer to a request that asks for the memory is not half valid: it has a descriptor
exactly when it has a length. -/
def Whole (d : Ledger) (r : Request) : Prop :=
  d.control.currentState = .inactive → r.state = .running →
    ∀ fd len, r.outcome.getSharedMemory = some (fd, len) → (fd = -1 ↔ len = 0)

/-- The object between two requests: while it is `RUNNING` it holds the last descriptor it has
received and has closed the others, and otherwise it holds nothing. -/
structure Inv (d : Ledger) : Prop where
  state : d.control.currentState = .running ∨ d.control.currentState = .inactive
  running : d.control.currentState = .running →
    Held d ∧ (d.closed ++ [d.control.shmFd]).Perm d.received
  inactive : d.control.currentState = .inactive →
    d.control.shmFd = -1 ∧ d.control.shmBufferLen = 0 ∧ d.control.shmBuffer = none ∧ Balanced d

theorem inv_init : Inv init := by
  refine ⟨Or.inr rfl, fun h => (by cases h), fun _ => ⟨rfl, rfl, rfl, ?_⟩⟩
  exact List.Perm.nil

/-- The memory is taken back from an application that is `RUNNING`. -/
theorem termSharedMemory_spec (h : Inv d) (hrunning : d.control.currentState = .running)
    (munmap : Bool) :
    (d.termSharedMemory munmap).control.shmFd = -1 ∧
      (d.termSharedMemory munmap).control.shmBufferLen = 0 ∧
      (d.termSharedMemory munmap).control.shmBuffer = none ∧
      Balanced (d.termSharedMemory munmap) := by
  obtain ⟨⟨p, -, -, hfd, -⟩, hperm⟩ := h.running hrunning
  unfold Ledger.termSharedMemory
  rw [if_neg hfd]
  exact ⟨rfl, rfl, rfl, hperm⟩

/-- A whole answer: there is no memory, or it is mapped, or the descriptor is closed again. -/
theorem initSharedMemory_spec (h : Inv d) (hinactive : d.control.currentState = .inactive)
    (o : Outcome)
    (hwhole : ∀ fd len, o.getSharedMemory = some (fd, len) → (fd = -1 ↔ len = 0)) :
    ((d.initSharedMemory o).1 = true ∧ Held (d.initSharedMemory o).2 ∧
        ((d.initSharedMemory o).2.closed ++ [(d.initSharedMemory o).2.control.shmFd]).Perm
          (d.initSharedMemory o).2.received) ∨
      ((d.initSharedMemory o).1 = false ∧ Inv (d.initSharedMemory o).2 ∧
        (d.initSharedMemory o).2.control.currentState = .inactive ∧
        LeavesNothing d (d.initSharedMemory o).2) := by
  obtain ⟨hfd, hlen, hbuffer, hperm⟩ := h.inactive hinactive
  have hnothing : ∀ {d' : Ledger}, d'.control.currentState = .inactive →
      d'.control.mapped = d.control.mapped → d'.control.shmFd = -1 → d'.control.shmBufferLen = 0 →
      d'.control.shmBuffer = none → Balanced d' →
      Inv d' ∧ d'.control.currentState = .inactive ∧ LeavesNothing d d' := by
    intro d' hs hm hf hl hb hp
    refine ⟨⟨Or.inr hs, fun hr => ?_, fun _ => ⟨hf, hl, hb, hp⟩⟩, hs, hm, Or.inl ⟨hf, hl, hb⟩⟩
    rw [hs] at hr
    cases hr
  rcases hget : o.getSharedMemory with _ | ⟨fd, len⟩
  · have hresult : d.initSharedMemory o = (false, d) := by
      simp only [Ledger.initSharedMemory, hget]
    rw [hresult]
    exact Or.inr ⟨rfl, hnothing hinactive rfl hfd hlen hbuffer hperm⟩
  · have hiff := hwhole fd len hget
    by_cases hnone : fd = -1
    · have hbad : fd = -1 ∨ len = 0 := Or.inl hnone
      have hresult : d.initSharedMemory o = (false, d.receive fd len) := by
        simp only [Ledger.initSharedMemory, hget, if_pos hbad]
      rw [hresult]
      refine Or.inr ⟨rfl, hnothing hinactive rfl hnone (hiff.mp hnone) hbuffer ?_⟩
      unfold Balanced Ledger.receive
      rw [if_pos hnone]
      exact hperm
    · have hlen' : len ≠ 0 := fun hz => hnone (hiff.mpr hz)
      have hgood : ¬ (fd = -1 ∨ len = 0) := by
        rintro (hf | hl)
        · exact hnone hf
        · exact hlen' hl
      have hreceived : (d.receive fd len).received = d.received ++ [fd] := if_neg hnone
      cases hmmap : o.mmap
      · have hresult : d.initSharedMemory o = (false, ((d.receive fd len).close).dropBuffer) := by
          simp only [Ledger.initSharedMemory, hget, if_neg hgood, hmmap, Bool.false_eq_true,
            if_false]
        rw [hresult]
        refine Or.inr ⟨rfl, hnothing hinactive rfl rfl rfl rfl ?_⟩
        show (d.closed ++ [fd]).Perm (d.receive fd len).received
        rw [hreceived]
        exact hperm.append_right [fd]
      · have hresult : d.initSharedMemory o = (true, (d.receive fd len).mapBuffer) := by
          simp only [Ledger.initSharedMemory, hget, if_neg hgood, hmmap, if_true]
        rw [hresult]
        refine Or.inl ⟨rfl, ⟨d.control.nextMapping, rfl, ?_, hnone, hlen'⟩, ?_⟩
        · exact Finset.mem_insert_self _ _
        · show (d.closed ++ [fd]).Perm (d.receive fd len).received
          rw [hreceived]
          exact hperm.append_right [fd]

theorem Inv.running_iff (h : Inv d) : d.control.currentState = .running ↔ Held d := by
  constructor
  · intro hrunning
    exact (h.running hrunning).1
  · rintro ⟨p, hp, -, hfd, -⟩
    rcases h.state with hrunning | hinactive
    · exact hrunning
    · exact absurd (h.inactive hinactive).1 hfd

/-- **One request with a whole answer.** -/
theorem setApplicationState_spec (h : Inv d) {r : Request} (hwhole : Whole d r) :
    Inv (d.setApplicationState r).2 ∧
      ((d.setApplicationState r).1 = false → LeavesNothing d (d.setApplicationState r).2) := by
  unfold Ledger.setApplicationState
  rcases h.state with hrunning | hinactive
  · have hknown : d.control.currentState ≠ .unknown := by simp [hrunning]
    rw [if_neg hknown]
    by_cases hsame : d.control.currentState = r.state
    · rw [if_pos hsame]
      exact ⟨h, fun hf => by cases hf⟩
    · rw [if_neg hsame]
      cases hstate : r.state with
      | running => exact absurd (hrunning.trans hstate.symm) hsame
      | inactive =>
        obtain ⟨hfd, hlen, hbuffer, hperm⟩ := termSharedMemory_spec h hrunning r.munmap
        refine ⟨⟨Or.inr rfl, fun hr => (by cases hr), fun _ => ⟨hfd, hlen, hbuffer, hperm⟩⟩, ?_⟩
        exact fun hf => by cases hf
      | unknown => exact ⟨h, fun _ => ⟨rfl, Or.inr ⟨hrunning, rfl⟩⟩⟩
  · have hknown : d.control.currentState ≠ .unknown := by simp [hinactive]
    rw [if_neg hknown]
    by_cases hsame : d.control.currentState = r.state
    · rw [if_pos hsame]
      exact ⟨h, fun hf => by cases hf⟩
    · rw [if_neg hsame]
      cases hstate : r.state with
      | inactive => exact absurd (hinactive.trans hstate.symm) hsame
      | unknown =>
        obtain ⟨hfd, hlen, hbuffer, -⟩ := h.inactive hinactive
        exact ⟨h, fun _ => ⟨rfl, Or.inl ⟨hfd, hlen, hbuffer⟩⟩⟩
      | running =>
        have hspec := initSharedMemory_spec h hinactive r.outcome (hwhole hinactive hstate)
        rcases hd : d.initSharedMemory r.outcome with ⟨_ | _, d'⟩
        · rw [hd] at hspec
          rcases hspec with ⟨hf, -⟩ | ⟨-, hinv, -, hleaves⟩
          · cases hf
          · exact ⟨hinv, fun _ => hleaves⟩
        · rw [hd] at hspec
          rcases hspec with ⟨-, hheld, hperm⟩ | ⟨hf, -⟩
          · refine ⟨⟨Or.inl rfl, fun _ => ⟨hheld, hperm⟩, fun hi => (by cases hi)⟩, ?_⟩
            exact fun hf => by cases hf
          · cases hf

theorem inv_after : ∀ {rs : List Request},
    (∀ pre r post, rs = pre ++ r :: post → Whole (after pre) r) → Inv (after rs) := by
  intro rs
  induction rs using List.reverseRecOn with
  | nil => exact fun _ => inv_init
  | append_singleton rs r ih =>
    intro h
    rw [after_snoc]
    refine (setApplicationState_spec (ih fun pre r' post heq => ?_) (h rs r [] rfl)).1
    exact h pre r' (post ++ [r]) (by rw [heq, List.append_assoc, List.cons_append])

theorem balanced_term (h : Inv d) (munmap : Bool) : Balanced (d.term munmap) := by
  unfold Ledger.term
  rcases h.state with hrunning | hinactive
  · rw [if_pos hrunning]
    exact (termSharedMemory_spec h hrunning munmap).2.2.2
  · have hnot : d.control.currentState ≠ .running := by simp [hinactive]
    rw [if_neg hnot]
    exact (h.inactive hinactive).2.2.2

/-- An answer that is half valid is refused and stays in the fields. -/
theorem not_requestKept {r : Request} (hinactive : d.control.currentState = .inactive)
    (hstate : r.state = .running) {fd : ℤ} {len : ℕ}
    (hget : r.outcome.getSharedMemory = some (fd, len)) (hhalf : ¬ (fd = -1 ↔ len = 0)) :
    ¬ RequestKept d r := by
  have hbad : fd = -1 ∨ len = 0 := by
    by_contra hnot
    rw [not_or] at hnot
    exact hhalf ⟨fun hf => absurd hf hnot.1, fun hl => absurd hl hnot.2⟩
  have hresult : d.setApplicationState r = (false, d.receive fd len) := by
    unfold Ledger.setApplicationState Ledger.initSharedMemory
    simp only [hinactive, hstate, hget, if_pos hbad]
    rfl
  rintro ⟨-, hleaves⟩
  rw [hresult] at hleaves
  rcases (hleaves rfl).2 with ⟨hfd, hlen, -⟩ | ⟨hrunning, -⟩
  · exact hhalf ⟨fun _ => hlen, fun _ => hfd⟩
  · rw [hinactive] at hrunning
    cases hrunning

/-- **When the shared memory is owned.** -/
theorem owned_iff (rs : List Request) :
    Owned rs ↔ ∀ pre r post, rs = pre ++ r :: post → Whole (after pre) r := by
  constructor
  · rintro ⟨hkept, -⟩ pre r post heq hinactive hstate fd len hget
    by_contra hhalf
    exact not_requestKept hinactive hstate hget hhalf (hkept pre r post heq)
  · intro h
    refine ⟨fun pre r post heq => ?_, fun munmap => balanced_term (inv_after h) munmap⟩
    have hpre : Inv (after pre) := by
      refine inv_after fun pre' r' post' heq' => h pre' r' (post' ++ r :: post) ?_
      rw [heq, heq', List.append_assoc, List.cons_append]
    obtain ⟨hinv, hleaves⟩ := setApplicationState_spec hpre (h pre r post heq)
    exact ⟨hinv.running_iff, hleaves⟩

/-- A descriptor without a length: the request returns false and keeps it, and when the next one
brings another descriptor it is lost. -/
theorem descriptor_lost : ¬ ∀ rs, Owned rs := by
  intro h
  have hperm := (h [⟨.running, ⟨some (5, 0), true⟩, true⟩,
    ⟨.running, ⟨some (7, 4096), true⟩, true⟩]).2 true
  revert hperm
  unfold Balanced
  decide

end Rialto.Client.Descriptors
