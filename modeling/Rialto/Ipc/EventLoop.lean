import Rialto.Lib.Runs

/-! # The thread of a channel

`IpcLoop` of the server manager runs `process` and `wait` of its channel, a `ChannelImpl` of the IPC
client, on a thread of its own; if this loop comes to its end before the destructor of `IpcLoop` has
set `m_isClosing`, the thread calls `onDisconnected`. The destructor disconnects the channel and
joins the thread. The thread of `RialtoControlIpc` and its `disconnect` are the same without the
flag and the call.

`ChannelImpl::disconnect` closes the socket, under the mutex, and then writes to the eventfd;
`process` reads the eventfd and looks at the socket afterwards. Any thread may disconnect a channel.

A step is a system call or a look at `m_sock` or `m_isClosing`. What the server sends, when a call
times out and which system calls fail is left open; what the handlers of messages do, besides a
`disconnect`, plays no part.

* `threadStep`: the loop of the thread, through `process` and `wait`.
* `Inv`, `told_once`: `onDisconnected` is called at most once, and no thread comes to it after the
  destructor has begun.
* `loop_ends_iff`: when the thread ends by itself while it is joined, and that it does end. -/

namespace Rialto.Ipc.EventLoop

open Rialto.Lib.Runs

/-! ## The thread -/

/-- Where the thread is: in `process`, before the look at the socket, before `epoll_wait`, before
its events are compared with `m_sock`, and with those of the socket, the timer and the eventfd still
to be handled; in `wait`, before the look at the socket, and in `poll`; behind the loop; before or
in `onDisconnected`; and past its end. -/
inductive Thread
  | testing
  | polling
  | comparing (socket timeout wake : Bool)
  | handling (socket timeout wake : Bool)
  | entering
  | blocked
  | leaving
  | telling
  | ended
  deriving DecidableEq, Repr

/-- Where the destructor is: not called, before `disconnect`, between the end of the socket and the
eventfd, in the join, and past it. -/
inductive Owner
  | idle
  | closing
  | disconnecting
  | joining
  | joined
  deriving DecidableEq, Repr

/-- `connected` stands for `m_sock >= 0`; `readable` and `expired` say that the socket and the timer
have an event; `writing`, that another caller of `disconnect` has closed the socket and comes to the
eventfd; `notified` counts the calls of `onDisconnected`. -/
structure State where
  connected : Bool
  readable : Bool
  expired : Bool
  wakeUps : ℕ
  thread : Thread
  closing : Bool
  owner : Owner
  writing : Bool
  notified : ℕ
  deriving DecidableEq, Repr

def init : State := ⟨true, false, false, 0, .testing, false, .idle, false, 0⟩

/-- The socket leaves the epoll set and is closed. -/
def disconnectNoLock (s : State) : State := { s with connected := false, readable := false }

/-- The messages are read to the last one, unless the server has closed its end or `recvmsg` fails,
as it does on a socket that is closed. -/
def processSocketEvent (s : State) (fails timeout wake : Bool) : State :=
  if fails || !s.connected then { disconnectNoLock s with thread := .leaving }
  else { s with readable := false, thread := .handling false timeout wake }

/-- `fails` says that the system call fails, or that the server has closed its end. -/
def threadStep (s : State) (fails : Bool) : Option State :=
  match s.thread with
  | .testing => some { s with thread := if s.connected then .polling else .leaving }
  | .polling =>
    some { s with
      thread := if fails then .leaving else .comparing s.readable s.expired (0 < s.wakeUps) }
  | .comparing socket timeout wake =>
    some { s with thread := .handling (socket && s.connected) timeout wake }
  | .handling true timeout wake => some (processSocketEvent s fails timeout wake)
  | .handling false true wake =>
    some { s with expired := false, thread := .handling false false wake }
  | .handling false false true =>
    some { s with wakeUps := 0, thread := .handling false false false }
  | .handling false false false =>
    some { s with thread := if s.connected then .entering else .leaving }
  | .entering => some { s with thread := if s.connected then .blocked else .testing }
  | .blocked =>
    if fails || s.readable || s.expired || 0 < s.wakeUps then some { s with thread := .testing }
    else none
  | .leaving => some { s with thread := if s.closing then .ended else .telling }
  | .telling => some { s with thread := .ended, notified := s.notified + 1 }
  | .ended => none

/-! ## Steps -/

/-- `disconnect` and `write` are by another caller; the last four are the destructor. -/
inductive Act
  | thread (fails : Bool)
  | receive
  | expire
  | disconnect
  | write
  | destructor
  | close
  | wake
  | join
  deriving DecidableEq, Repr

def step (s : State) : Act → Option State
  | .thread fails => threadStep s fails
  | .receive => if s.connected then some { s with readable := true } else none
  | .expire => some { s with expired := true }
  | .disconnect =>
    if s.connected then some { disconnectNoLock s with writing := true } else none
  | .write =>
    if s.writing then some { s with writing := false, wakeUps := s.wakeUps + 1 } else none
  | .destructor =>
    if s.owner = .idle then some { s with closing := true, owner := .closing } else none
  | .close =>
    if s.owner = .closing then
      -- a channel that is not connected is left at once
      some (if s.connected then { disconnectNoLock s with owner := .disconnecting }
        else { s with owner := .joining })
    else none
  | .wake =>
    if s.owner = .disconnecting then some { s with owner := .joining, wakeUps := s.wakeUps + 1 }
    else none
  | .join =>
    if s.owner = .joining ∧ s.thread = .ended then some { s with owner := .joined } else none

/-! ## The invariant -/

/-- The destructor has disconnected the channel. -/
def Owner.cut : Owner → Bool
  | .disconnecting | .joining | .joined => true
  | .idle | .closing => false

structure Inv (s : State) : Prop where
  readable : s.readable = true → s.connected = true
  wakeUps : 0 < s.wakeUps → s.connected = false
  writing : s.writing = true → s.connected = false
  cut : s.owner.cut = true → s.connected = false
  closing : s.closing = true ↔ s.owner ≠ .idle
  woken : s.thread = .blocked → s.connected = false →
    0 < s.wakeUps ∨ s.writing = true ∨ s.owner = .disconnecting
  joined : s.owner = .joined → s.thread = .ended
  running : s.thread ≠ .ended → s.notified = 0
  notified : s.thread = .ended → s.notified ≤ 1 ∧ (s.closing = false → s.notified = 1)

variable {s s' t : State} {as bs : List Act}

theorem inv_init : Inv init := by
  constructor <;> simp [init, Owner.cut]

/-- What a step of the thread does, other than to move it and to look. -/
structure Goes (s s' : State) : Prop where
  alive : s.thread ≠ .ended
  connected : s.connected = false → s'.connected = false
  readable : s'.readable = true → s.readable = true ∧ s'.connected = s.connected
  wakeUps : 0 < s'.wakeUps → 0 < s.wakeUps
  writing : s'.writing = s.writing
  closing : s'.closing = s.closing
  owner : s'.owner = s.owner
  blocked : s'.thread = .blocked → s'.connected = true
  running : s'.thread ≠ .ended → s'.notified = s.notified
  ended : s'.thread = .ended → s.thread = .telling ∧ s'.notified = s.notified + 1 ∨
    s.thread = .leaving ∧ s.closing = true ∧ s'.notified = s.notified
  telling : s'.thread = .telling → s.closing = false

theorem goes_threadStep {fails : Bool} (hstep : threadStep s fails = some s') : Goes s s' := by
  obtain ⟨connected, readable, expired, wakeUps, thread, closing, owner, writing, notified⟩ := s
  rcases thread with
    _ | _ | ⟨socket, timeout, wake⟩ | ⟨_ | _, _ | _, _ | _⟩ | _ | _ | _ | _ | _
  case ended => cases hstep
  case blocked =>
    simp only [threadStep] at hstep
    split_ifs at hstep
    cases hstep
    constructor <;> simp
  case polling => cases hstep; cases fails <;> constructor <;> simp
  case leaving => cases hstep; cases closing <;> constructor <;> simp
  all_goals
    cases hstep
    cases connected <;> cases fails <;>
      constructor <;> simp [processSocketEvent, disconnectNoLock]

theorem Inv.goes (h : Inv s) (hgoes : Goes s s') : Inv s' where
  readable hr := by
    obtain ⟨hreadable, hsame⟩ := hgoes.readable hr
    rw [hsame]
    exact h.readable hreadable
  wakeUps hw := hgoes.connected (h.wakeUps (hgoes.wakeUps hw))
  writing hw := by
    rw [hgoes.writing] at hw
    exact hgoes.connected (h.writing hw)
  cut hc := by
    rw [hgoes.owner] at hc
    exact hgoes.connected (h.cut hc)
  closing := by
    rw [hgoes.closing, hgoes.owner]
    exact h.closing
  woken hb hc := by
    rw [hgoes.blocked hb] at hc
    cases hc
  joined hj := by
    rw [hgoes.owner] at hj
    exact absurd (h.joined hj) hgoes.alive
  running hr := (hgoes.running hr).trans (h.running hgoes.alive)
  notified he := by
    have hzero := h.running hgoes.alive
    rw [hgoes.closing]
    obtain ⟨-, hnotified⟩ | ⟨-, hclosing, hnotified⟩ := hgoes.ended he
    · exact ⟨by omega, fun _ => by omega⟩
    · refine ⟨by omega, fun hopen => ?_⟩
      rw [hclosing] at hopen
      cases hopen

/-- The socket is closed by a thread that comes to the eventfd next. -/
theorem Inv.disconnect (h : Inv s) {owner : Owner} {writing : Bool}
    (hcoming : writing = true ∨ owner = .disconnecting) (hjoined : owner ≠ .joined)
    (hclosing : s.closing = true ↔ owner ≠ .idle) :
    Inv { disconnectNoLock s with owner := owner, writing := writing } :=
  ⟨nofun, fun _ => rfl, fun _ => rfl, fun _ => rfl, hclosing, fun _ _ => Or.inr hcoming,
    fun hj => absurd hj hjoined, h.running, h.notified⟩

/-- A wake-up that does not come from the destructor is there, or comes from another caller. -/
theorem Inv.woken_by_other (h : Inv s) (howner : s.owner ≠ .disconnecting)
    (hblocked : s.thread = .blocked) (hconnected : s.connected = false) :
    0 < s.wakeUps ∨ s.writing = true := by
  obtain hw | hw | hw := h.woken hblocked hconnected
  · exact Or.inl hw
  · exact Or.inr hw
  · exact absurd hw howner

theorem step_inv (h : Inv s) {a : Act} (hstep : step s a = some s') : Inv s' := by
  cases a with
  | thread fails => exact h.goes (goes_threadStep hstep)
  | receive =>
    simp only [step] at hstep
    split_ifs at hstep with hconnected
    cases hstep
    exact { h with readable := fun _ => hconnected }
  | expire =>
    cases hstep
    exact { h with }
  | disconnect =>
    simp only [step] at hstep
    split_ifs at hstep with hconnected
    cases hstep
    have hnot : s.owner ≠ .joined := fun hj => by
      rw [h.cut (by rw [hj]; rfl)] at hconnected
      cases hconnected
    exact h.disconnect (Or.inl rfl) hnot h.closing
  | write =>
    simp only [step] at hstep
    split_ifs at hstep with hwriting
    cases hstep
    exact { h with
      wakeUps := fun _ => h.writing hwriting
      writing := nofun
      woken := fun _ _ => Or.inl (Nat.succ_pos _) }
  | destructor =>
    simp only [step] at hstep
    split_ifs at hstep with howner
    cases hstep
    have hother := h.woken_by_other (by rw [howner]; decide)
    exact { h with
      cut := nofun
      closing := iff_of_true rfl nofun
      woken := fun hb hc => (hother hb hc).imp_right Or.inl
      joined := nofun
      notified := fun he => ⟨(h.notified he).1, nofun⟩ }
  | close =>
    simp only [step] at hstep
    split_ifs at hstep with howner hconnected
    all_goals have hclosing := h.closing.mpr (by rw [howner]; decide)
    · cases hstep
      exact h.disconnect (Or.inr rfl) nofun (iff_of_true hclosing nofun)
    · cases hstep
      have hother := h.woken_by_other (by rw [howner]; decide)
      exact { h with
        cut := fun _ => by simpa using hconnected
        closing := iff_of_true hclosing nofun
        woken := fun hb hc => (hother hb hc).imp_right Or.inl
        joined := nofun }
  | wake =>
    simp only [step] at hstep
    split_ifs at hstep with howner
    cases hstep
    have hcut := h.cut (by rw [howner]; rfl)
    have hclosing := h.closing.mpr (by rw [howner]; decide)
    exact { h with
      wakeUps := fun _ => hcut
      cut := fun _ => hcut
      closing := iff_of_true hclosing nofun
      woken := fun _ _ => Or.inl (Nat.succ_pos _)
      joined := nofun }
  | join =>
    simp only [step] at hstep
    split_ifs at hstep with hjoin
    cases hstep
    have hclosing := h.closing.mpr (by rw [hjoin.1]; decide)
    refine { h with
      cut := fun _ => h.cut (by rw [hjoin.1]; rfl)
      closing := iff_of_true hclosing nofun, joined := fun _ => hjoin.2, woken := fun hb _ => ?_ }
    rw [hjoin.2] at hb
    cases hb

/-- Any step. -/
abbrev anyStep : State → Act → Prop := fun _ _ => True

theorem run_inv (h : Run step anyStep init as s) : Inv s :=
  h.invariant Inv (fun _ _ _ hinv _ hstep => step_inv hinv hstep) inv_init

/-! ## Who is told -/

/-- A call of `onDisconnected` that the flag does not keep from being made any more. -/
def pending (s : State) : ℕ := if s.thread = .telling then 1 else 0

/-- Once the destructor has begun, the thread does not decide to tell the client any more. -/
theorem step_silent (hclosing : s.closing = true) {a : Act} (hstep : step s a = some s') :
    s'.closing = true ∧ s'.notified + pending s' ≤ s.notified + pending s := by
  cases a with
  | thread fails =>
    have hgoes := goes_threadStep hstep
    have hnot : s'.thread ≠ .telling := fun htelling => by
      rw [hgoes.telling htelling] at hclosing
      cases hclosing
    refine ⟨hgoes.closing.trans hclosing, ?_⟩
    unfold pending
    rw [if_neg hnot]
    by_cases hended : s'.thread = .ended
    · obtain ⟨htelling, hnotified⟩ | ⟨-, -, hnotified⟩ := hgoes.ended hended
      · rw [if_pos htelling]
        omega
      · omega
    · have hnotified := hgoes.running hended
      omega
  | expire =>
    cases hstep
    exact ⟨hclosing, Nat.le_refl _⟩
  | destructor =>
    simp only [step] at hstep
    split_ifs at hstep
    cases hstep
    exact ⟨rfl, Nat.le_refl _⟩
  | close =>
    simp only [step] at hstep
    split_ifs at hstep <;> cases hstep <;> exact ⟨hclosing, Nat.le_refl _⟩
  | _ =>
    simp only [step] at hstep
    split_ifs at hstep
    cases hstep
    exact ⟨hclosing, Nat.le_refl _⟩

theorem run_silent (hclosing : s.closing = true) (hrun : Run step anyStep s bs t) :
    t.notified + pending t ≤ s.notified + pending s := by
  refine (hrun.invariant (fun u => u.closing = true ∧
    u.notified + pending u ≤ s.notified + pending s) ?_ ⟨hclosing, Nat.le_refl _⟩).2
  rintro u a u' ⟨hu, hle⟩ - hstep
  obtain ⟨hu', hle'⟩ := step_silent hu hstep
  exact ⟨hu', Nat.le_trans hle' hle⟩

/-- What the client is told, and when. -/
structure Told (s : State) : Prop where
  once : s.notified ≤ 1
  lost : s.thread = .ended → s.closing = false → s.notified = 1
  silent : s.closing = true → ∀ bs t, Run step anyStep s bs t →
    t.notified ≤ s.notified + if s.thread = .telling then 1 else 0
  gone : s.owner = .joined → s.thread = .ended

/-- **Told once.** `onDisconnected` is called at most once, and has been when the thread has ended
with the `IpcLoop` still in use; when the destructor has begun, it is called only by a thread that
had come to the call before; and the thread has ended when the destructor returns. -/
theorem told_once (h : Run step anyStep init as s) : Told s := by
  have hs := run_inv h
  refine ⟨?_, fun he hc => (hs.notified he).2 hc, fun hc bs t hrun => ?_, hs.joined⟩
  · by_cases hended : s.thread = .ended
    · exact (hs.notified hended).1
    · rw [hs.running hended]
      exact Nat.zero_le 1
  · exact Nat.le_trans (Nat.le_add_right _ _) (run_silent hc hrun)

/-! ## How the thread ends -/

/-- The steps that are left of a thread whose channel is disconnected. -/
def Thread.left : Thread → ℕ
  | .polling => 7
  | .comparing _ true true => 6
  | .comparing _ true false | .comparing _ false true | .handling false true true => 5
  | .comparing _ false false => 4
  | .handling false true false | .handling false false true | .entering | .blocked => 4
  | .handling true _ _ | .handling false false false | .testing => 3
  | .leaving => 2
  | .telling => 1
  | .ended => 0

/-- The thread is in `poll`, and nothing is there to wake it. -/
def Asleep (s : State) : Prop := s.thread = .blocked ∧ s.expired = false ∧ s.wakeUps = 0

theorem Inv.not_readable (h : Inv s) (hconnected : s.connected = false) : s.readable = false := by
  cases hr : s.readable with
  | true => exact absurd (h.readable hr) (by rw [hconnected]; decide)
  | false => rfl

theorem not_asleep (h : s.thread ≠ .blocked) : ¬ Asleep s := fun hasleep => h hasleep.1

/-- A thread whose channel is disconnected goes towards its end, unless it is asleep. -/
theorem threadStep_left (hs : Inv s) (hconnected : s.connected = false) (hasleep : ¬ Asleep s)
    (hended : s.thread ≠ .ended) : ∃ s', threadStep s false = some s' ∧ s'.connected = false ∧
      ¬ Asleep s' ∧ s'.owner = s.owner ∧ s'.thread.left + 1 ≤ s.thread.left := by
  have hreadable := hs.not_readable hconnected
  obtain ⟨connected, readable, expired, wakeUps, thread, closing, owner, writing, notified⟩ := s
  cases hconnected
  cases hreadable
  rcases thread with
    _ | _ | ⟨socket, timeout, wake⟩ | ⟨_ | _, _ | _, _ | _⟩ | _ | _ | _ | _ | _
  case ended => exact absurd rfl hended
  case blocked =>
    have hpoll : (false || false || expired || decide (0 < wakeUps)) = true := by
      by_contra hnone
      refine hasleep ⟨rfl, ?_, ?_⟩ <;> simp_all
    exact ⟨_, if_pos hpoll, rfl, not_asleep nofun, rfl, Nat.le_refl _⟩
  case polling =>
    refine ⟨_, rfl, rfl, not_asleep nofun, rfl, ?_⟩
    show (Thread.comparing false expired (decide (0 < wakeUps))).left + 1 ≤ 7
    cases expired <;> cases decide (0 < wakeUps) <;> decide
  case comparing =>
    refine ⟨_, rfl, rfl, not_asleep nofun, rfl, ?_⟩
    cases socket <;> cases timeout <;> cases wake <;> exact Nat.le_refl _
  case leaving =>
    cases closing with
    | true => exact ⟨_, rfl, rfl, not_asleep nofun, rfl, Nat.le_succ _⟩
    | false => exact ⟨_, rfl, rfl, not_asleep nofun, rfl, Nat.le_refl _⟩
  all_goals exact ⟨_, rfl, rfl, not_asleep nofun, rfl, Nat.le_refl _⟩

theorem ends_alone : ∀ (n : ℕ) {s : State}, s.thread.left ≤ n → Inv s → s.connected = false →
    ¬ Asleep s → ∃ k t, k ≤ n ∧ Run step anyStep s (List.replicate k (.thread false)) t ∧
      t.thread = .ended ∧ t.owner = s.owner := by
  intro n
  induction n with
  | zero =>
    intro s hleft hs hconnected hasleep
    by_cases hended : s.thread = .ended
    · exact ⟨0, s, Nat.le_refl 0, .nil s, hended, rfl⟩
    · obtain ⟨s', -, -, -, -, hless⟩ := threadStep_left hs hconnected hasleep hended
      omega
  | succ n ih =>
    intro s hleft hs hconnected hasleep
    by_cases hended : s.thread = .ended
    · exact ⟨0, s, Nat.zero_le _, .nil s, hended, rfl⟩
    · obtain ⟨s', hstep, hconnected', hasleep', howner, hless⟩ :=
        threadStep_left hs hconnected hasleep hended
      obtain ⟨k, t, hk, hrun, ht, hsame⟩ :=
        ih (by omega) (hs.goes (goes_threadStep hstep)) hconnected' hasleep'
      exact ⟨k + 1, t, Nat.succ_le_succ hk, .cons trivial hstep hrun, ht, hsame.trans howner⟩

theorem left_le (thread : Thread) : thread.left ≤ 7 := by
  rcases thread with _ | _ | ⟨_, _ | _, _ | _⟩ | ⟨_ | _, _ | _, _ | _⟩ | _ | _ | _ | _ | _ <;>
    exact Nat.le_of_ble_eq_true rfl

/-- A thread that is asleep stays so, by itself. -/
theorem asleep_alone {n : ℕ} (hs : Inv s) (hconnected : s.connected = false) (hasleep : Asleep s)
    (hrun : Run step anyStep s (List.replicate n (.thread false)) t) : t.thread = .blocked := by
  cases n with
  | zero =>
    cases hrun
    exact hasleep.1
  | succ n =>
    rw [List.replicate_succ] at hrun
    cases hrun with
    | cons _ hstep _ =>
      obtain ⟨hblocked, hexpired, hwakeUps⟩ := hasleep
      simp [step, threadStep, hblocked, hexpired, hwakeUps,
        hs.not_readable hconnected] at hstep

/-- The destructor needs nothing else, unless the thread is asleep. -/
theorem destructor_alone (hs : Inv s) (howner : s.owner = .joining) (hasleep : ¬ Asleep s) :
    ∃ n t, n ≤ 7 ∧ Run step anyStep s (List.replicate n (.thread false) ++ [.join]) t ∧
      t.owner = .joined := by
  have hconnected : s.connected = false := hs.cut (by rw [howner]; rfl)
  obtain ⟨n, t, hn, hrun, ht, hsame⟩ := ends_alone 7 (left_le _) hs hconnected hasleep
  have hjoin : step t .join = some { t with owner := .joined } := if_pos ⟨hsame.trans howner, ht⟩
  exact ⟨n, _, hn, hrun.append (.cons trivial hjoin (.nil _)), rfl⟩

/-- **How the thread ends.** While it is joined, the thread ends by itself, in at most seven steps,
exactly if it is not asleep. If it is, another caller of `disconnect` has closed the socket and has
not come to the eventfd; when it has, the thread ends by itself. So the destructor returns. -/
theorem loop_ends_iff (h : Run step anyStep init as s) (howner : s.owner = .joining) :
    ((∃ n t, n ≤ 7 ∧ Run step anyStep s (List.replicate n (.thread false)) t ∧
      t.thread = .ended) ↔ ¬ Asleep s) ∧
    (Asleep s → s.writing = true) ∧
    ∃ writes n t, (Asleep s ∧ writes = [.write] ∨ ¬ Asleep s ∧ writes = []) ∧ n ≤ 7 ∧
      Run step anyStep s (writes ++ (List.replicate n (.thread false) ++ [.join])) t ∧
      t.owner = .joined := by
  have hs := run_inv h
  have hconnected : s.connected = false := hs.cut (by rw [howner]; rfl)
  have hwriting : Asleep s → s.writing = true := fun hasleep => by
    obtain hw | hw := hs.woken_by_other (by rw [howner]; decide) hasleep.1 hconnected
    · rw [hasleep.2.2] at hw
      cases hw
    · exact hw
  refine ⟨⟨?_, fun hasleep => ?_⟩, hwriting, ?_⟩
  · rintro ⟨n, t, -, hrun, ht⟩ hasleep
    rw [asleep_alone hs hconnected hasleep hrun] at ht
    cases ht
  · obtain ⟨n, t, hn, hrun, ht, -⟩ := ends_alone 7 (left_le _) hs hconnected hasleep
    exact ⟨n, t, hn, hrun, ht⟩
  · by_cases hasleep : Asleep s
    · have hwrite : step s .write = some { s with writing := false, wakeUps := s.wakeUps + 1 } :=
        if_pos (hwriting hasleep)
      obtain ⟨n, t, hn, hrun, ht⟩ := destructor_alone (step_inv hs hwrite) howner fun hstill =>
        Nat.succ_ne_zero _ hstill.2.2
      exact ⟨_, n, t, Or.inl ⟨hasleep, rfl⟩, hn, .cons trivial hwrite hrun, ht⟩
    · obtain ⟨n, t, hn, hrun, ht⟩ := destructor_alone hs howner hasleep
      exact ⟨_, n, t, Or.inr ⟨hasleep, rfl⟩, hn, hrun, ht⟩

/-- The thread is in `poll` when another thread closes the socket; the destructor does not write to
the eventfd then. -/
def closedByOther : List Act :=
  [.thread false, .thread false, .thread false, .thread false, .thread false, .disconnect,
    .destructor, .close]

theorem loop_ends_iff_closedByOther : ∃ s n t, Run step anyStep init closedByOther s ∧
    s.owner = .joining ∧ Asleep s ∧
    Run step anyStep s (.write :: (List.replicate n (.thread false) ++ [.join])) t ∧
    t.owner = .joined := by
  have hrun : Run step anyStep init closedByOther _ := Run.of_runs rfl
  obtain ⟨-, -, writes, n, t, ⟨-, rfl⟩ | ⟨hnot, -⟩, -, hends, ht⟩ := loop_ends_iff hrun rfl
  · exact ⟨_, n, t, hrun, rfl, ⟨rfl, rfl, rfl⟩, hends, ht⟩
  · exact absurd ⟨rfl, rfl, rfl⟩ hnot

/-- The server closes its end while the loop is in use. -/
def serverGone : List Act :=
  [.receive, .thread false, .thread false, .thread false, .thread true, .thread false,
    .thread false]

theorem told_once_serverGone : ∃ s, Run step anyStep init serverGone s ∧ s.thread = .ended ∧
    s.notified = 1 := by
  have hrun : Run step anyStep init serverGone _ := Run.of_runs rfl
  exact ⟨_, hrun, rfl, (told_once hrun).lost rfl rfl⟩

end Rialto.Ipc.EventLoop
