import Rialto.Lib.Runs

/-! # The timer

`Timer` calls a function after a time, once or periodically, on a thread of its own. `cancel` takes
off the flag `m_active`, without the mutex, and joins the thread unless it is called by it; the
destructor is a `cancel`.

A step is one access to the flag, or what the thread does between two; how long the timeout is plays
no part. The owner makes one call at a time.

* `threadStep`: the loop of the thread, with the two loops of `wait_until`.
* `Inv`, `cancelled_for_good`: a timer that has been joined calls nothing any more; one that has
  been cancelled calls at most what it was about to call; one that is not periodic calls once.
* `ends_alone_iff`: when a `cancel` has to wait for the timeout, because the thread had looked at
  the flag before and missed the notification. -/

namespace Rialto.Common.Timer

open Rialto.Lib.Runs

/-! ## The thread of a timer -/

/-- How a timer was made: `TimerType::PERIODIC`, and whether the callback is not empty. -/
structure Config where
  periodic : Bool
  callback : Bool
  deriving DecidableEq, Repr

/-- Where the thread is: before the predicate of `wait_until`, between the predicate and the wait,
in the wait, past the timeout, past `wait_until`, before the call, in the callback, before the
condition of the loop, behind the loop, and past its end. -/
inductive Thread
  | testing
  | blocking
  | blocked
  | timedOut
  | checking
  | unlocked
  | calling
  | looping
  | leaving
  | ended
  deriving DecidableEq, Repr

/-- Where the call of `cancel` by the owner is: not made, before the notification, and in the
join. -/
inductive Owner
  | idle
  | cancelling
  | joining
  deriving DecidableEq, Repr

/-- `Timer`; `calls` counts the callbacks that have begun. -/
structure State where
  active : Bool
  thread : Thread
  joinable : Bool
  owner : Owner
  calls : ℕ
  deriving DecidableEq, Repr

def init : State := ⟨true, .testing, true, .idle, 0⟩

/-! ## Steps -/

/-- What the thread does by itself. -/
def threadStep (c : Config) (s : State) : Option State :=
  match s.thread with
  | .testing => some { s with thread := if s.active then .blocking else .looping }
  | .blocking => some { s with thread := .blocked }
  | .blocked => none
  | .timedOut => some { s with thread := if s.active then .checking else .looping }
  | .checking => some { s with thread := if s.active && c.callback then .unlocked else .looping }
  | .unlocked => some { s with thread := .calling, calls := s.calls + 1 }
  | .calling => some { s with thread := .looping }
  | .looping => some { s with thread := if c.periodic && s.active then .testing else .leaving }
  | .leaving => some { s with thread := .ended, active := false }
  | .ended => none

/-- `cancelInside` is a `cancel` by the callback; a condition variable may wake the thread at any
time. -/
inductive Act
  | thread
  | timeout
  | wakeUp
  | cancel
  | notify
  | join
  | cancelInside
  deriving DecidableEq, Repr

def step (c : Config) (s : State) : Act → Option State
  | .thread => threadStep c s
  | .timeout => if s.thread = .blocked then some { s with thread := .timedOut } else none
  | .wakeUp => if s.thread = .blocked then some { s with thread := .testing } else none
  | .cancel =>
    if s.owner = .idle then some { s with active := false, owner := .cancelling } else none
  | .notify =>
    if s.owner = .cancelling then
      if s.joinable then
        some { s with
          thread := if s.thread = .blocked then .testing else s.thread
          owner := .joining }
      else some { s with owner := .idle }
    else none
  | .join =>
    if s.owner = .joining ∧ s.thread = .ended then
      some { s with joinable := false, owner := .idle }
    else none
  | .cancelInside => if s.thread = .calling then some { s with active := false } else none

/-! ## The invariant -/

/-- The thread has not come to the callback, in this round of the loop. -/
def Thread.before : Thread → Bool
  | .testing | .blocking | .blocked | .timedOut | .checking | .unlocked => true
  | _ => false

structure Inv (c : Config) (s : State) : Prop where
  joined : s.joinable = false → s.thread = .ended
  ended : s.thread = .ended → s.active = false
  cancelled : s.owner ≠ .idle → s.active = false
  oneShot : c.periodic = false → s.calls ≤ if s.thread.before then 0 else 1

variable {c : Config} {s s' t : State} {as bs : List Act}

theorem inv_init (c : Config) : Inv c init := by
  refine ⟨fun h => ?_, fun h => ?_, fun h => absurd rfl h, fun _ => Nat.le_refl 0⟩
  · cases h
  · cases h

/-- What a step of the thread does. -/
structure Goes (c : Config) (s s' : State) : Prop where
  alive : s.thread ≠ .ended
  joinable : s'.joinable = s.joinable
  owner : s'.owner = s.owner
  active : s'.active = if s.thread = .leaving then false else s.active
  calls : s'.calls = s.calls + if s.thread = .unlocked then 1 else 0
  ended : s'.thread = .ended → s.thread = .leaving
  before : s'.thread.before = true →
    s.thread.before = true ∧ s.thread ≠ .unlocked ∨ s.thread = .looping ∧ c.periodic = true
  unlocked : s'.thread = .unlocked → s.active = true

theorem goes_threadStep (hstep : threadStep c s = some s') : Goes c s s' := by
  obtain ⟨active, thread, joinable, owner, calls⟩ := s
  cases thread <;> cases hstep
  case testing => cases active <;> constructor <;> simp [Thread.before]
  case blocking => constructor <;> simp [Thread.before]
  case timedOut => cases active <;> constructor <;> simp [Thread.before]
  case checking =>
    cases active <;> rcases c with ⟨_, _ | _⟩ <;> constructor <;> simp [Thread.before]
  case unlocked => constructor <;> simp [Thread.before]
  case calling => constructor <;> simp [Thread.before]
  case looping =>
    cases active <;> rcases c with ⟨_ | _, _⟩ <;> constructor <;> simp [Thread.before]
  case leaving => constructor <;> simp [Thread.before]

theorem inv_threadStep (h : Inv c s) (hgoes : Goes c s s') : Inv c s' := by
  refine ⟨fun hj => ?_, fun he => ?_, fun ho => ?_, fun hp => ?_⟩
  · rw [hgoes.joinable] at hj
    exact absurd (h.joined hj) hgoes.alive
  · rw [hgoes.active, if_pos (hgoes.ended he)]
  · rw [hgoes.owner] at ho
    rw [hgoes.active, h.cancelled ho, ite_self]
  · have hcalls := h.oneShot hp
    rw [hgoes.calls]
    by_cases hbefore : s'.thread.before = true
    · -- the timer is not periodic, so the round is the one that it was
      obtain ⟨hb, hne⟩ | ⟨-, hperiodic⟩ := hgoes.before hbefore
      · rw [if_pos hb] at hcalls
        rw [if_neg hne, if_pos hbefore]
        exact hcalls
      · rw [hp] at hperiodic
        cases hperiodic
    · rw [if_neg hbefore]
      by_cases hun : s.thread = .unlocked
      · rw [hun] at hcalls
        have hzero : s.calls ≤ 0 := hcalls
        rw [if_pos hun]
        omega
      · rw [if_neg hun]
        split_ifs at hcalls <;> omega

/-- A thread that is woken, or comes to the timeout, is before the callback as it was. -/
theorem inv_move (h : Inv c s) (hthread : s.thread = .blocked) {thread : Thread}
    (hbefore : thread.before = true) : Inv c { s with thread := thread } := by
  have hjoined := h.joined
  have honeShot := h.oneShot
  rw [hthread] at hjoined honeShot
  refine ⟨fun hj => absurd (hjoined hj) nofun, fun he => ?_, h.cancelled, fun hp => ?_⟩
  · have he : thread = .ended := he
    rw [he] at hbefore
    cases hbefore
  · show s.calls ≤ if thread.before then 0 else 1
    rw [if_pos hbefore]
    exact honeShot hp

theorem step_inv (h : Inv c s) {a : Act} (hstep : step c s a = some s') : Inv c s' := by
  cases a with
  | thread => exact inv_threadStep h (goes_threadStep hstep)
  | timeout =>
    unfold step at hstep
    dsimp only at hstep
    split_ifs at hstep with hthread
    cases hstep
    exact inv_move h hthread rfl
  | wakeUp =>
    unfold step at hstep
    dsimp only at hstep
    split_ifs at hstep with hthread
    cases hstep
    exact inv_move h hthread rfl
  | cancel =>
    unfold step at hstep
    dsimp only at hstep
    split_ifs at hstep
    cases hstep
    exact ⟨h.joined, fun _ => rfl, fun _ => rfl, h.oneShot⟩
  | notify =>
    unfold step at hstep
    dsimp only at hstep
    split_ifs at hstep with howner hjoinable hthread
    · cases hstep
      have hmoved := inv_move h hthread (show Thread.testing.before = true from rfl)
      have hactive := h.cancelled (by rw [howner]; decide)
      exact ⟨hmoved.joined, hmoved.ended, fun _ => hactive, hmoved.oneShot⟩
    · cases hstep
      exact ⟨h.joined, h.ended, fun _ => h.cancelled (by rw [howner]; decide), h.oneShot⟩
    · cases hstep
      exact ⟨h.joined, h.ended, fun ho => absurd rfl ho, h.oneShot⟩
  | join =>
    unfold step at hstep
    dsimp only at hstep
    split_ifs at hstep with hjoin
    cases hstep
    exact ⟨fun _ => hjoin.2, h.ended, fun ho => absurd rfl ho, h.oneShot⟩
  | cancelInside =>
    unfold step at hstep
    dsimp only at hstep
    split_ifs at hstep
    cases hstep
    exact ⟨h.joined, fun _ => rfl, fun _ => rfl, h.oneShot⟩

/-- Any step. -/
abbrev anyStep : State → Act → Prop := fun _ _ => True

theorem run_inv (h : Run (step c) anyStep init as s) : Inv c s :=
  h.invariant (Inv c) (fun _ _ _ hinv _ hstep => step_inv hinv hstep) (inv_init c)

/-! ## After a cancel -/

/-- A callback that the flag does not keep from beginning any more. -/
def pending (s : State) : ℕ := if s.thread = .unlocked then 1 else 0

/-- What every step keeps. -/
structure Keeps (s s' : State) : Prop where
  calls : s.calls ≤ s'.calls
  joined : s.joinable = false → s'.joinable = false
  inactive : s.active = false → s'.active = false ∧ s'.calls + pending s' ≤ s.calls + pending s

theorem keeps_threadStep (hgoes : Goes c s s') : Keeps s s' := by
  refine ⟨?_, fun hj => hgoes.joinable.trans hj, fun hactive => ⟨?_, ?_⟩⟩
  · rw [hgoes.calls]
    exact Nat.le_add_right _ _
  · rw [hgoes.active, hactive, ite_self]
  · have hnot : s'.thread ≠ .unlocked := fun hun => by
      rw [hgoes.unlocked hun] at hactive
      cases hactive
    unfold pending
    rw [if_neg hnot, hgoes.calls]
    exact Nat.le_refl _

theorem step_keeps {a : Act} (hstep : step c s a = some s') : Keeps s s' := by
  have hmove : ∀ thread, thread ≠ .unlocked → Keeps s { s with thread := thread } := by
    intro thread hne
    refine ⟨Nat.le_refl _, fun hj => hj, fun hactive => ⟨hactive, ?_⟩⟩
    show s.calls + (if thread = .unlocked then 1 else 0) ≤ _
    rw [if_neg hne]
    exact Nat.le_add_right _ _
  cases a with
  | thread => exact keeps_threadStep (goes_threadStep hstep)
  | timeout =>
    unfold step at hstep
    dsimp only at hstep
    split_ifs at hstep
    cases hstep
    exact hmove _ (by decide)
  | wakeUp =>
    unfold step at hstep
    dsimp only at hstep
    split_ifs at hstep
    cases hstep
    exact hmove _ (by decide)
  | cancel =>
    unfold step at hstep
    dsimp only at hstep
    split_ifs at hstep
    cases hstep
    exact ⟨Nat.le_refl _, fun hj => hj, fun _ => ⟨rfl, Nat.le_refl _⟩⟩
  | notify =>
    unfold step at hstep
    dsimp only at hstep
    split_ifs at hstep
    · cases hstep
      have hkeeps := hmove .testing (by decide)
      exact ⟨hkeeps.calls, hkeeps.joined, hkeeps.inactive⟩
    · cases hstep
      exact ⟨Nat.le_refl _, fun hj => hj, fun hactive => ⟨hactive, Nat.le_refl _⟩⟩
    · cases hstep
      exact ⟨Nat.le_refl _, fun hj => hj, fun hactive => ⟨hactive, Nat.le_refl _⟩⟩
  | join =>
    unfold step at hstep
    dsimp only at hstep
    split_ifs at hstep
    cases hstep
    exact ⟨Nat.le_refl _, fun _ => rfl, fun hactive => ⟨hactive, Nat.le_refl _⟩⟩
  | cancelInside =>
    unfold step at hstep
    dsimp only at hstep
    split_ifs at hstep
    cases hstep
    exact ⟨Nat.le_refl _, fun hj => hj, fun _ => ⟨rfl, Nat.le_refl _⟩⟩

theorem Keeps.trans {u : State} (h : Keeps s t) (h' : Keeps t u) : Keeps s u := by
  refine ⟨Nat.le_trans h.calls h'.calls, fun hj => h'.joined (h.joined hj), fun hactive => ?_⟩
  obtain ⟨hactive', hle⟩ := h.inactive hactive
  obtain ⟨hactive'', hle'⟩ := h'.inactive hactive'
  exact ⟨hactive'', Nat.le_trans hle' hle⟩

theorem run_keeps (h : Run (step c) anyStep s bs t) : Keeps s t :=
  h.invariant (Keeps s) (fun _ _ _ hkeeps _ hstep => hkeeps.trans (step_keeps hstep))
    ⟨Nat.le_refl _, fun hj => hj, fun hactive => ⟨hactive, Nat.le_refl _⟩⟩

/-- What the flag and the join mean, at any time and from then on. -/
structure Cancelled (c : Config) (s : State) : Prop where
  joined : s.joinable = false → s.thread = .ended ∧
    ∀ bs t, Run (step c) anyStep s bs t → t.thread = .ended ∧ t.calls = s.calls
  inactive : s.active = false → ∀ bs t, Run (step c) anyStep s bs t →
    t.active = false ∧ t.calls ≤ s.calls + if s.thread = .unlocked then 1 else 0
  oneShot : c.periodic = false → s.calls ≤ 1

/-- **Cancelled for good.** When a `cancel` of the owner has returned, no callback is being called
or will be; when the flag is off, by whichever `cancel`, at most the callback that has been decided
on is still called; and a timer that is not periodic calls at most once. -/
theorem cancelled_for_good (h : Run (step c) anyStep init as s) : Cancelled c s := by
  have hs := run_inv h
  refine ⟨fun hj => ?_, fun hactive bs t hrun => ?_, fun hp => ?_⟩
  · have hended := hs.joined hj
    refine ⟨hended, fun bs t hrun => ?_⟩
    have hkeeps := run_keeps hrun
    have hle := (hkeeps.inactive (hs.ended hended)).2
    have hcalls := hkeeps.calls
    have hpending : pending s = 0 := by
      unfold pending
      rw [hended, if_neg (by decide)]
    exact ⟨(run_inv (h.append hrun)).joined (hkeeps.joined hj), by omega⟩
  · obtain ⟨hinactive, hle⟩ := (run_keeps hrun).inactive hactive
    exact ⟨hinactive, Nat.le_trans (Nat.le_add_right _ _) hle⟩
  · have hcalls := hs.oneShot hp
    split_ifs at hcalls <;> omega

/-! ## How long a cancel takes -/

/-- The steps that are left of a thread that has been cancelled and does not wait. -/
def Thread.left : Thread → ℕ
  | .unlocked => 4
  | .testing | .timedOut | .checking | .calling => 3
  | .looping => 2
  | .leaving => 1
  | .blocking | .blocked | .ended => 0

/-- The thread is about to wait, or waits. -/
def Thread.waits : Thread → Bool
  | .blocking | .blocked => true
  | _ => false

/-- A thread that has been cancelled goes towards its end, and does not begin to wait. -/
theorem threadStep_left (hactive : s.active = false) (hwaits : s.thread.waits = false)
    (hended : s.thread ≠ .ended) : ∃ s', threadStep c s = some s' ∧ s'.active = false ∧
      s'.thread.waits = false ∧ s'.thread.left + 1 = s.thread.left := by
  obtain ⟨active, thread, joinable, owner, calls⟩ := s
  cases hactive
  cases thread
  case blocking => cases hwaits
  case blocked => cases hwaits
  case ended => exact absurd rfl hended
  case looping =>
    refine ⟨_, rfl, rfl, ?_, ?_⟩
    · simp [Thread.waits]
    · simp [Thread.left]
  all_goals exact ⟨_, rfl, rfl, rfl, rfl⟩

theorem ends_alone : ∀ (n : ℕ) {s : State}, s.thread.left = n → s.active = false →
    s.thread.waits = false →
    ∃ t, Run (step c) anyStep s (List.replicate n .thread) t ∧ t.thread = .ended := by
  intro n
  induction n with
  | zero =>
    intro s hleft hactive hwaits
    by_cases hended : s.thread = .ended
    · exact ⟨s, .nil s, hended⟩
    · obtain ⟨s', -, -, -, hless⟩ := threadStep_left (c := c) hactive hwaits hended
      omega
  | succ n ih =>
    intro s hleft hactive hwaits
    by_cases hended : s.thread = .ended
    · rw [hended] at hleft
      cases hleft
    · obtain ⟨s', hstep, hactive', hwaits', hless⟩ :=
        threadStep_left (c := c) hactive hwaits hended
      obtain ⟨t, hrun, ht⟩ := ih (by omega) hactive' hwaits'
      exact ⟨t, .cons trivial hstep hrun, ht⟩

/-- A thread that waits goes on waiting, by itself. -/
theorem waits_alone : ∀ {n : ℕ} {s : State}, Run (step c) anyStep s (List.replicate n .thread) t →
    s.thread.waits = true → t.thread.waits = true := by
  intro n
  induction n with
  | zero =>
    intro s hrun hwaits
    cases hrun
    exact hwaits
  | succ n ih =>
    intro s hrun hwaits
    rw [List.replicate_succ] at hrun
    cases hrun with
    | cons _ hstep rest =>
      obtain ⟨active, thread, joinable, owner, calls⟩ := s
      cases thread <;> cases hwaits
      · cases hstep
        exact ih rest rfl
      · cases hstep

theorem left_le (thread : Thread) : thread.left ≤ 4 := by
  cases thread <;> decide

/-- The timeout ends the wait. -/
theorem ends_after_timeout (hactive : s.active = false) (hthread : s.thread = .blocked) :
    ∃ t, Run (step c) anyStep s (.timeout :: List.replicate 3 .thread) t ∧ t.thread = .ended := by
  have hstep : step c s .timeout = some { s with thread := .timedOut } := if_pos hthread
  obtain ⟨t, hrun, ht⟩ := ends_alone (c := c) 3 (s := { s with thread := .timedOut }) rfl hactive
    rfl
  exact ⟨t, .cons trivial hstep hrun, ht⟩

/-- **When a cancel waits for the timeout**: while the owner is in the join, the thread comes to its
end by itself, in at most four steps, exactly if it neither waits nor is about to. In any case it
does after one timeout. -/
theorem ends_alone_iff (h : Run (step c) anyStep init as s) (howner : s.owner = .joining) :
    ((∃ n t, n ≤ 4 ∧ Run (step c) anyStep s (List.replicate n .thread) t ∧ t.thread = .ended) ↔
      s.thread ≠ .blocking ∧ s.thread ≠ .blocked) ∧
    ∃ bs t, Run (step c) anyStep s bs t ∧ t.thread = .ended ∧ bs.count .timeout ≤ 1 ∧
      ∀ a ∈ bs, a = .thread ∨ a = .timeout := by
  have hactive : s.active = false := (run_inv h).cancelled (by rw [howner]; decide)
  by_cases hwaits : s.thread.waits = true
  · refine ⟨⟨?_, ?_⟩, ?_⟩
    · rintro ⟨n, t, -, hrun, ht⟩
      have hstill := waits_alone hrun hwaits
      rw [ht] at hstill
      cases hstill
    · rintro ⟨hblocking, hblocked⟩
      rcases hthread : s.thread <;> rw [hthread] at hwaits hblocking hblocked <;> cases hwaits
      · exact absurd rfl hblocking
      · exact absurd rfl hblocked
    · rcases hthread : s.thread <;> rw [hthread] at hwaits <;> cases hwaits
      · have hstep : step c s .thread = some { s with thread := .blocked } := by
          unfold step threadStep
          rw [hthread]
        obtain ⟨t, hrun, ht⟩ := ends_after_timeout (c := c) (s := { s with thread := .blocked })
          hactive rfl
        exact ⟨_, t, .cons trivial hstep hrun, ht, by decide, by decide⟩
      · obtain ⟨t, hrun, ht⟩ := ends_after_timeout (c := c) hactive hthread
        exact ⟨_, t, hrun, ht, by decide, by decide⟩
  · have hnot : s.thread.waits = false := by simpa using hwaits
    obtain ⟨t, hrun, ht⟩ := ends_alone (c := c) _ rfl hactive hnot
    refine ⟨⟨fun _ => ⟨fun hthread => ?_, fun hthread => ?_⟩,
      fun _ => ⟨_, t, left_le _, hrun, ht⟩⟩, _, t, hrun, ht, ?_, fun a ha => ?_⟩
    · rw [hthread] at hnot
      cases hnot
    · rw [hthread] at hnot
      cases hnot
    · rw [List.count_replicate, if_neg (by decide)]
      exact Nat.zero_le 1
    · exact Or.inl (List.eq_of_mem_replicate ha)

/-! ## Cancelled in the first round -/

/-- The thread has looked at the flag when the owner takes it off, and waits after the
notification. -/
def missed : List Act := [.thread, .cancel, .notify, .thread]

theorem ends_alone_iff_missed : ∃ s, Run (step ⟨false, true⟩) anyStep init missed s ∧
    s.owner = .joining ∧ (¬∃ n t, n ≤ 4 ∧
      Run (step ⟨false, true⟩) anyStep s (List.replicate n .thread) t ∧ t.thread = .ended) ∧
    ∃ bs t, Run (step ⟨false, true⟩) anyStep s bs t ∧ t.thread = .ended ∧
      bs.count .timeout ≤ 1 ∧ ∀ a ∈ bs, a = .thread ∨ a = .timeout := by
  have hrun : Run (step ⟨false, true⟩) anyStep init missed _ := Run.of_runs rfl
  obtain ⟨hiff, hends⟩ := ends_alone_iff hrun rfl
  exact ⟨_, hrun, rfl, fun hex => (hiff.mp hex).2 rfl, hends⟩

/-- A periodic timer that is cancelled when it has decided on its second callback. -/
def cancelledLate : List Act :=
  [.thread, .thread, .timeout, .thread, .thread, .thread, .thread, .thread, .thread, .thread,
    .timeout, .thread, .thread, .cancel]

theorem cancelled_for_good_late : ∃ s, Run (step ⟨true, true⟩) anyStep init cancelledLate s ∧
    s.calls = 1 ∧ ∀ bs t, Run (step ⟨true, true⟩) anyStep s bs t → t.calls ≤ 2 := by
  have hrun : Run (step ⟨true, true⟩) anyStep init cancelledLate _ := Run.of_runs rfl
  exact ⟨_, hrun, rfl, fun bs t ht => ((cancelled_for_good hrun).inactive rfl bs t ht).2⟩

end Rialto.Common.Timer
