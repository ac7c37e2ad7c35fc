import Rialto.Lib.Runs
import Rialto.Server.MainThread

/-! # What the main thread does with its tasks

Tasks are taken from the queue one after the other, and each is over before the next is taken. Only
the main thread changes which clients are registered.

* `Inv`: what was taken from the queue is over or in the hands of the main thread.
* `Answered`: whoever is woken has a task that is over. A wake-up without a notification can break
  it, so `Calm` rules it out.
* `step_keeps`: what every step keeps of the two.
* `task_discipline`: order and registration of what is run, and when a waiting caller returns. -/

namespace Rialto.Server.TaskDiscipline

open Rialto.Lib.Queue Rialto.Lib.Runs Rialto.Server.MainThread
open scoped List

/-! ## What the log says -/

def takenId : Entry → Option ℕ
  | .taken id _ => some id
  | _ => none

def startedId : Entry → Option ℕ
  | .started id => some id
  | _ => none

/-- The task is over, run or dropped. -/
def finishedId : Entry → Option ℕ
  | .ran id => some id
  | .dropped id => some id
  | _ => none

/-- The tasks of the entries of a kind, in the order of the log. -/
def ids (kind : Entry → Option ℕ) (log : List Entry) : List ℕ := log.filterMap kind

@[simp] theorem ids_snoc (kind : Entry → Option ℕ) (log : List Entry) (e : Entry) :
    ids kind (log ++ [e]) = ids kind log ++ (kind e).toList := by
  unfold ids
  rw [List.filterMap_append]
  cases h : kind e <;> simp [h]

/-- **The invariant**: tasks are numbered in the order of the queue, what was taken is over or in
the hands of the main thread, in that order, and only tasks whose client was registered are
started. -/
structure Inv (s : State) : Prop where
  numbered : s.taskQueue.pushed.map TaskInfo.id = List.range s.taskQueue.pushed.length
  taken : ids takenId s.log = s.taskQueue.popped.map TaskInfo.id
  finished : ids takenId s.log = ids finishedId s.log ++ s.main.current
  started : ids startedId s.log <+ ids finishedId s.log ++ s.main.inTask
  checked : ∀ t, s.main = .checking t →
    .taken t.id (decide (t.clientId ∈ s.registeredClients)) ∈ s.log
  registered : ∀ id, .started id ∈ s.log → .taken id true ∈ s.log
  completed : ∀ t, s.main = .finished t → t.id ∈ ids finishedId s.log

theorem inv_init : Inv init :=
  ⟨rfl, rfl, rfl, List.Sublist.refl _, nofun, nofun, nofun⟩

section Steps

variable {s s' : State}

/-- The callers are not part of the invariant. -/
theorem inv_congr (h : Inv s) (hqueue : s'.taskQueue = s.taskQueue) (hmain : s'.main = s.main)
    (hclients : s'.registeredClients = s.registeredClients) (hlog : s'.log = s.log) : Inv s' := by
  obtain ⟨numbered, taken, finished, started, checked, registered, completed⟩ := h
  constructor <;> simp only [hqueue, hmain, hclients, hlog] <;> assumption

theorem inv_push (h : Inv s) (clientId : ℕ) (body : Body) (waited : Bool) :
    Inv (s.push clientId body waited) := by
  refine ⟨?_, h.taken, h.finished, h.started, h.checked, h.registered, h.completed⟩
  simp only [State.push, Fifo.push, List.map_append, h.numbered, List.map_cons, List.map_nil,
    List.length_append, List.length_singleton, List.range_succ, State.nextTask]

theorem inv_waitForTask (h : Inv s) (hmain : s.main.current = []) (hover : s.main.inTask = []) :
    Inv (waitForTask s) := by
  have hfinished := h.finished
  have hstarted := h.started
  rw [hmain, List.append_nil] at hfinished
  rw [hover, List.append_nil] at hstarted
  unfold waitForTask
  cases hqueue : s.taskQueue.contents with
  | nil =>
    refine ⟨h.numbered, h.taken, ?_, ?_, nofun, h.registered, nofun⟩
    · simpa [Main.current] using hfinished
    · simpa [Main.inTask] using hstarted
  | cons t rest =>
    refine ⟨h.numbered, ?_, ?_, ?_, ?_, ?_, nofun⟩
    · simp [State.note, Fifo.pop, takenId, h.taken, hqueue]
    · simp [State.note, takenId, finishedId, Main.current, hfinished]
    · simpa [State.note, startedId, finishedId, Main.inTask] using hstarted
    · rintro t' heq
      cases heq
      exact List.mem_append_right _ (List.mem_singleton.mpr rfl)
    · intro id hid
      simp only [State.note, List.mem_append, List.mem_singleton, reduceCtorEq, or_false] at hid
      exact List.mem_append_left _ (h.registered id hid)

theorem inv_checkClient (h : Inv s) {t : TaskInfo} (hmain : s.main = .checking t) :
    Inv (checkClient s t) := by
  have hfinished := h.finished
  have hstarted := h.started
  have hchecked := h.checked t hmain
  rw [hmain] at hfinished hstarted
  simp only [Main.current, Main.inTask, List.append_nil] at hfinished hstarted
  unfold checkClient
  split_ifs with hclient
  · simp only [hclient, decide_true] at hchecked
    refine ⟨h.numbered, ?_, ?_, ?_, nofun, ?_, nofun⟩
    · simpa [State.note, takenId] using h.taken
    · simpa [State.note, takenId, finishedId, Main.current] using hfinished
    · simp only [State.note, ids_snoc, Main.inTask]
      simpa only [startedId, finishedId, Option.toList, List.append_nil] using
        hstarted.append (List.Sublist.refl [t.id])
    · intro id hid
      simp only [State.note, List.mem_append, List.mem_singleton, Entry.started.injEq] at hid
      rcases hid with hid | rfl
      · exact List.mem_append_left _ (h.registered id hid)
      · exact List.mem_append_left _ hchecked
  · refine ⟨h.numbered, ?_, ?_, ?_, nofun, ?_, ?_⟩
    · simpa [State.note, takenId] using h.taken
    · simpa [State.note, takenId, finishedId, Main.current] using hfinished
    · simpa [State.note, startedId, finishedId, Main.inTask] using
        hstarted.trans (List.sublist_append_left _ [t.id])
    · intro id hid
      simp only [State.note, List.mem_append, List.mem_singleton, reduceCtorEq, or_false] at hid
      exact List.mem_append_left _ (h.registered id hid)
    · rintro t' heq
      cases heq
      simp [State.note, finishedId]

theorem inv_unregisterClient (h : Inv s) {t : TaskInfo} (hmain : s.main = .running t)
    (clientId : ℕ) : Inv { s with registeredClients := s.registeredClients.erase clientId } := by
  refine ⟨h.numbered, h.taken, h.finished, h.started, fun t' heq => ?_, h.registered,
    h.completed⟩
  cases hmain.symm.trans heq

/-- The state after a task was run, whatever the task did to the clients and to the loop. -/
theorem inv_ran (h : Inv s) {t : TaskInfo} (hmain : s.main = .running t)
    (hqueue : s'.taskQueue = s.taskQueue) (hmain' : s'.main = .finished t)
    (hlog : s'.log = s.log ++ [Entry.ran t.id]) : Inv s' := by
  have hfinished := h.finished
  have hstarted := h.started
  rw [hmain] at hfinished hstarted
  simp only [Main.current, Main.inTask] at hfinished hstarted
  refine ⟨by rw [hqueue]; exact h.numbered, ?_, ?_, ?_, ?_, ?_, ?_⟩
  · simpa [hqueue, hlog, takenId] using h.taken
  · simpa [hlog, hmain', takenId, finishedId, Main.current] using hfinished
  · simpa [hlog, hmain', startedId, finishedId, Main.inTask] using hstarted
  · intro t' heq
    cases hmain'.symm.trans heq
  · intro id hid
    simp only [hlog, List.mem_append, List.mem_singleton, reduceCtorEq, or_false] at hid ⊢
    exact h.registered id hid
  · intro t' heq
    cases hmain'.symm.trans heq
    simp [hlog, finishedId]

theorem inv_finishTask (h : Inv s) {t : TaskInfo} (hmain : s.main = .running t) :
    Inv (finishTask s t) := by
  unfold finishTask
  cases t.body with
  | user => exact inv_ran h hmain rfl rfl rfl
  | registers clientId => exact inv_ran h hmain rfl rfl rfl
  | shutdown => exact inv_ran h hmain rfl rfl rfl

/-- The main thread starts over. -/
theorem inv_idle (h : Inv s) {t : TaskInfo} (hmain : s.main = .finished t)
    (callers : ℕ → Option Caller) : Inv { s with main := .idle, callers := callers } := by
  have hfinished := h.finished
  have hstarted := h.started
  rw [hmain] at hfinished hstarted
  exact ⟨h.numbered, h.taken, hfinished, hstarted, nofun, h.registered, nofun⟩

theorem inv_notify (h : Inv s) {t : TaskInfo} (hmain : s.main = .finished t)
    (hstep : notify s t = some s') : Inv s' := by
  unfold notify at hstep
  split_ifs at hstep
  · split at hstep
    · cases hstep
    · cases hstep
      exact inv_idle h hmain _
    · cases hstep
      exact inv_idle h hmain _
  · cases hstep
    exact inv_idle h hmain _

/-- What is over was in the queue once, so it is neither in the hands of the main thread nor in the
queue any more. -/
theorem finished_gone (h : Inv s) {id : ℕ} (hid : id ∈ ids finishedId s.log) :
    id ∉ s.main.current ∧ ∀ t ∈ s.taskQueue.contents, t.id ≠ id := by
  have hall : ids finishedId s.log ++ s.main.current ++ s.taskQueue.contents.map TaskInfo.id =
      List.range s.taskQueue.pushed.length := by
    rw [← h.finished, h.taken, ← List.map_append, s.taskQueue.conserved, h.numbered]
  have hnodup := hall ▸ List.nodup_range
  rw [List.append_assoc, List.nodup_append'] at hnodup
  have hdisjoint := hnodup.2.2 hid
  refine ⟨fun hcurrent => hdisjoint (List.mem_append_left _ hcurrent), fun t ht heq => ?_⟩
  refine hdisjoint (List.mem_append_right _ ?_)
  rw [← heq]
  exact List.mem_map_of_mem ht

/-! ## Callers -/

/-- The condition on a step: a wait is not woken without a notification before its task is over. -/
def Calm (s : State) : Act → Prop
  | .spuriousWakeUp id => id ∈ ids finishedId s.log
  | _ => True

/-- Who is woken or has returned has a task that is over. -/
def Answered (s : State) : Prop :=
  ∀ id, s.callers id = some .woken ∨ s.callers id = some .returned → id ∈ ids finishedId s.log

theorem answered_mono (h : Answered s) (hcallers : s'.callers = s.callers)
    (hlog : ∀ id, id ∈ ids finishedId s.log → id ∈ ids finishedId s'.log) : Answered s' := by
  intro id hid
  rw [hcallers] at hid
  exact hlog id (h id hid)

theorem answered_setCaller (h : Answered s) {id : ℕ} {c : Caller}
    (hc : c = .woken ∨ c = .returned → id ∈ ids finishedId s.log) :
    Answered (s.setCaller id c) := by
  intro i hi
  simp only [State.setCaller] at hi
  split_ifs at hi with heq
  · rw [heq]
    exact hc (by simpa using hi)
  · exact h i hi

theorem mem_ids_note (id : ℕ) (e : Entry) (h : id ∈ ids finishedId s.log) :
    id ∈ ids finishedId (s.note e).log := by
  rw [State.note, ids_snoc]
  exact List.mem_append_left _ h

theorem answered_notify (hinv : Inv s) {t : TaskInfo} (hmain : s.main = .finished t)
    (hstep : notify s t = some s') (h : Answered s) : Answered s' := by
  unfold notify at hstep
  split_ifs at hstep
  · split at hstep
    · cases hstep
    · cases hstep
      exact answered_setCaller h fun _ => hinv.completed t hmain
    · cases hstep
      exact h
  · cases hstep
    exact h

theorem answered_waitForTask (h : Answered s) : Answered (waitForTask s) := by
  unfold waitForTask
  cases s.taskQueue.contents with
  | nil => exact h
  | cons t rest => exact answered_mono h rfl fun id hid => mem_ids_note (s := s) id _ hid

theorem answered_checkClient (t : TaskInfo) (h : Answered s) : Answered (checkClient s t) := by
  unfold checkClient
  split_ifs
  · exact answered_mono h rfl fun id hid => mem_ids_note (s := s) id _ hid
  · exact answered_mono h rfl fun id hid => mem_ids_note (s := s) id _ hid

theorem answered_finishTask (t : TaskInfo) (h : Answered s) : Answered (finishTask s t) := by
  unfold finishTask
  cases t.body with
  | user => exact answered_mono h rfl fun id hid => mem_ids_note (s := s) id _ hid
  | registers clientId => exact answered_mono h rfl fun id hid => mem_ids_note (s := s) id _ hid
  | shutdown => exact answered_mono h rfl fun id hid => mem_ids_note (s := s) id _ hid

/-- What a step keeps. -/
theorem step_keeps {a : Act} (h : Inv s) (hstep : step s a = some s') :
    Inv s' ∧ (Calm s a → Answered s → Answered s') := by
  cases a with
  | takeClientId =>
    cases hstep
    exact ⟨inv_congr h rfl rfl rfl rfl, fun _ ha => ha⟩
  | registerClient clientId =>
    simp only [step] at hstep
    split_ifs at hstep
    cases hstep
    have hinv : Inv { s with registering := s.registering.erase clientId } :=
      inv_congr h rfl rfl rfl rfl
    exact ⟨inv_push hinv _ _ _, fun _ ha => ha⟩
  | enqueueTask clientId =>
    cases hstep
    exact ⟨inv_push h _ _ _, fun _ ha => ha⟩
  | enqueueTaskAndWait clientId =>
    cases hstep
    refine ⟨inv_congr (inv_push h clientId .user true) rfl rfl rfl rfl, fun _ ha => ?_⟩
    exact answered_setCaller (s := s.push clientId .user true) ha (by simp)
  | destructor =>
    cases hstep
    exact ⟨inv_push h _ _ _, fun _ ha => ha⟩
  | wait id =>
    simp only [step] at hstep
    split_ifs at hstep
    cases hstep
    exact ⟨inv_congr h rfl rfl rfl rfl, fun _ ha => answered_setCaller ha (by simp)⟩
  | spuriousWakeUp id =>
    simp only [step] at hstep
    split_ifs at hstep
    cases hstep
    exact ⟨inv_congr h rfl rfl rfl rfl, fun hcalm ha => answered_setCaller ha fun _ => hcalm⟩
  | returns id =>
    simp only [step] at hstep
    split_ifs at hstep with hwoken
    cases hstep
    exact ⟨inv_congr h rfl rfl rfl rfl,
      fun _ ha => answered_setCaller ha fun _ => ha id (Or.inl hwoken)⟩
  | waitForTask =>
    cases hmain : s.main <;> simp only [step, hmain, reduceCtorEq] at hstep
    case idle =>
      split_ifs at hstep
      cases hstep
      exact ⟨inv_waitForTask h (by rw [hmain]; rfl) (by rw [hmain]; rfl),
        fun _ => answered_waitForTask⟩
    case waiting =>
      cases hstep
      exact ⟨inv_waitForTask h (by rw [hmain]; rfl) (by rw [hmain]; rfl),
        fun _ => answered_waitForTask⟩
  | checkClient =>
    cases hmain : s.main <;> simp only [step, hmain, reduceCtorEq] at hstep
    cases hstep
    exact ⟨inv_checkClient h hmain, fun _ => answered_checkClient _⟩
  | unregisterClient clientId =>
    simp only [step] at hstep
    split at hstep
    · next hmain =>
      cases hstep
      exact ⟨inv_unregisterClient h hmain clientId, fun _ ha => ha⟩
    · cases hstep
  | finishTask =>
    cases hmain : s.main <;> simp only [step, hmain, reduceCtorEq] at hstep
    cases hstep
    exact ⟨inv_finishTask h hmain, fun _ => answered_finishTask _⟩
  | notify =>
    cases hmain : s.main <;> simp only [step, hmain, reduceCtorEq] at hstep
    exact ⟨inv_notify h hmain hstep, fun _ => answered_notify h hmain hstep⟩

end Steps

/-! ## Runs -/

theorem run_inv {as : List Act} {s : State} (h : Run step (fun _ _ => True) init as s) : Inv s :=
  h.invariant Inv (fun _ _ _ hinv _ hstep => (step_keeps hinv hstep).1) inv_init

theorem run_answered {as : List Act} {s : State} (h : Run step Calm init as s) : Answered s := by
  refine (h.invariant (fun s => Inv s ∧ Answered s) ?_ ⟨inv_init, ?_⟩).2
  · rintro s a s' ⟨hinv, hanswered⟩ hok hstep
    exact ⟨(step_keeps hinv hstep).1, (step_keeps hinv hstep).2 hok hanswered⟩
  · rintro id (h | h) <;> cases h

theorem mem_finished {id : ℕ} {log : List Entry} (h : id ∈ ids finishedId log) :
    .ran id ∈ log ∨ .dropped id ∈ log := by
  obtain ⟨e, he, hid⟩ := List.mem_filterMap.mp h
  cases e <;> cases hid
  · exact Or.inl he
  · exact Or.inr he

/-- **Main-thread task discipline.** In every state a run leads to, tasks were started at most once,
in the order in which they were put into the queue, and only when their client was registered as
they were taken from it. If no wait was woken without a notification while its task was to be done,
then whoever has returned from `enqueueTaskAndWait` had its task run or dropped, and the task is
neither in the queue nor with the main thread any more. Where a wait is woken before that, the next
step may be the return of its caller. -/
theorem task_discipline {as : List Act} {s : State} (h : Run step (fun _ _ => True) init as s) :
    (ids startedId s.log).Nodup ∧
    ids startedId s.log <+ s.taskQueue.pushed.map TaskInfo.id ∧
    (∀ id, .started id ∈ s.log → .taken id true ∈ s.log) ∧
    (Run step Calm init as s → ∀ id, s.callers id = some .returned →
      (.ran id ∈ s.log ∨ .dropped id ∈ s.log) ∧ id ∉ s.main.current ∧
        ∀ t ∈ s.taskQueue.contents, t.id ≠ id) ∧
    (∀ id s', step s (.spuriousWakeUp id) = some s' → ¬ Calm s (.spuriousWakeUp id) →
      ∃ s'', step s' (.returns id) = some s'' ∧ s''.callers id = some .returned ∧
        .ran id ∉ s''.log ∧ .dropped id ∉ s''.log) := by
  have hinv := run_inv h
  have horder : ids startedId s.log <+ s.taskQueue.pushed.map TaskInfo.id := by
    have htask : s.main.inTask <+ s.main.current := by
      cases s.main <;> first | exact List.Sublist.refl _ | exact List.nil_sublist _
    refine hinv.started.trans (((List.Sublist.refl _).append htask).trans ?_)
    rw [← hinv.finished, hinv.taken, ← s.taskQueue.conserved, List.map_append]
    exact List.sublist_append_left _ _
  refine ⟨?_, horder, hinv.registered, fun hcalm id hid => ?_, fun id s' hstep hcalm => ?_⟩
  · rw [hinv.numbered] at horder
    exact List.nodup_range.sublist horder
  · have hfinished := run_answered hcalm id (Or.inr hid)
    exact ⟨mem_finished hfinished, finished_gone hinv hfinished⟩
  · simp only [step] at hstep
    split_ifs at hstep
    cases hstep
    refine ⟨(s.setCaller id .woken).setCaller id .returned, ?_, ?_, ?_, ?_⟩
    · simp [step, State.setCaller]
    · simp [State.setCaller]
    · exact fun hran => hcalm (List.mem_filterMap.mpr ⟨_, hran, rfl⟩)
    · exact fun hdropped => hcalm (List.mem_filterMap.mpr ⟨_, hdropped, rfl⟩)

/-- A task that is waited for, run and notified. -/
theorem task_discipline_waited :
    ∃ s, Run step Calm init [.enqueueTaskAndWait 0, .waitForTask, .wait 0, .checkClient,
        .finishTask, .notify, .returns 0] s ∧
      s.callers 0 = some .returned ∧ (.ran 0 ∈ s.log ∨ .dropped 0 ∈ s.log) := by
  have hcalm : Run step Calm init [.enqueueTaskAndWait 0, .waitForTask, .wait 0, .checkClient,
      .finishTask, .notify, .returns 0] _ :=
    Run.cons trivial rfl <| Run.cons trivial rfl <| Run.cons trivial rfl <| Run.cons trivial rfl <|
      Run.cons trivial rfl <| Run.cons trivial rfl <| Run.cons trivial rfl <| Run.nil _
  obtain ⟨-, -, -, hreturned, -⟩ := task_discipline (hcalm.mono fun _ _ _ => trivial)
  exact ⟨_, hcalm, rfl, (hreturned hcalm 0 rfl).1⟩

/-- Without a notification the caller returns while its task is in the queue, and the task is run
after that. -/
theorem spurious_return :
    ∃ as s t, Run step (fun _ _ => True) init as s ∧ t.id = 0 ∧ s.main = .running t ∧
      s.callers 0 = some .returned ∧ .ran 0 ∉ s.log ∧ .dropped 0 ∉ s.log := by
  have hrun : Run step (fun _ _ => True) init [.enqueueTaskAndWait 0, .wait 0, .spuriousWakeUp 0,
      .returns 0, .waitForTask, .checkClient] _ :=
    Run.cons trivial rfl <| Run.cons trivial rfl <| Run.cons trivial rfl <| Run.cons trivial rfl <|
      Run.cons trivial rfl <| Run.cons trivial rfl <| Run.nil _
  exact ⟨_, _, _, hrun, rfl, rfl, rfl, by decide, by decide⟩

end Rialto.Server.TaskDiscipline
