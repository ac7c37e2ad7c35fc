import Rialto.Server.Threads

/-! # The acts of the threads

What the lists of acts look like: every operation and every task takes the mutex and gives it back,
and each thread has acts of its own kind.

* `balanced`: the mutex is taken once at a time and given back;
* `quiet`, `modest`, `demanding`, `inner`: the acts of the main thread, of the worker and the
  streaming thread, of the IPC thread, and under the mutex;
* `modest_workerTask`, `begun_mainTask`, `begun_operation`: what tasks and operations are made
  of. -/

namespace Rialto.Server.Acts

open Rialto.Server.Threads

variable {act : Act} {rest : List Act} {mediaKeys : List ℕ} {held : Bool}

/-! ## The acts of a thread -/

/-- The mutex is taken once at a time and given back; it is not held at a join, and held when
`m_mediaKeys` is changed. -/
def balanced : Bool → List Act → Bool
  | held, [] => !held
  | held, .lock _ :: rest => !held && balanced false rest
  | held, .unlock :: rest => held && balanced false rest
  | held, .shutdownAndJoin :: rest => !held && balanced false rest
  | held, .emplaceMediaKeys _ :: rest | held, .eraseMediaKeys _ :: rest =>
    held && balanced held rest
  | held, .lookup _ :: rest | held, .enqueueTaskAndWait _ :: rest | held, .createPlayer :: rest =>
    balanced held rest

/-- An act that waits for no other thread: the decryption service is used only when there are no
media keys to be asked. -/
def quiet (mediaKeys : List ℕ) : Act → Bool
  | .lock (.lookup _) | .lookup _ => mediaKeys = []
  | .unlock | .shutdownAndJoin | .createPlayer => true
  | _ => false

/-- The acts of the worker and of a streaming thread. -/
def modest : Act → Bool
  | .lock (.lookup _) | .lookup _ | .unlock | .enqueueTaskAndWait .plain => true
  | _ => false

/-- The act enqueues a task that does something on the main thread that may block. -/
def demanding : Act → Bool
  | .enqueueTaskAndWait task => task ≠ .plain
  | _ => false

/-- There is a wait for the main thread before the mutex is given back. -/
def waitsLocked : List Act → Bool
  | [] => false
  | .unlock :: _ => false
  | .enqueueTaskAndWait _ :: _ => true
  | _ :: rest => waitsLocked rest

/-- What may stand under the mutex. -/
def inner : Act → Bool
  | .enqueueTaskAndWait .plain | .emplaceMediaKeys _ | .eraseMediaKeys _ => true
  | _ => false

theorem inner_of_hasSessions {more : ℕ} (h : act ∈ hasSessions mediaKeys more) :
    act = .enqueueTaskAndWait .plain ∧ mediaKeys ≠ [] := by
  unfold hasSessions at h
  split_ifs at h with hk
  · cases h
  · exact ⟨List.eq_of_mem_replicate h, hk⟩

theorem inner_of_locked {body : Locked} (h : act ∈ body.acts mediaKeys) : inner act = true := by
  cases body with
  | lookup more => rw [(inner_of_hasSessions h).1]; rfl
  | mediaKeysCall handle waits =>
    simp only [Locked.acts] at h
    split_ifs at h
    · rw [List.eq_of_mem_replicate h]; rfl
    · cases h
  | createMediaKeys handle created =>
    simp only [Locked.acts] at h
    split_ifs at h
    · cases h
    · rcases List.mem_cons.mp h with rfl | h
      · rfl
      · rw [List.mem_singleton.mp h]; rfl
    · rw [List.mem_singleton.mp h]; rfl
  | destroyMediaKeys handle =>
    simp only [Locked.acts] at h
    split_ifs at h
    · rcases List.mem_cons.mp h with rfl | h
      · rfl
      · rw [List.mem_singleton.mp h]; rfl
    · cases h
  | clear =>
    obtain ⟨handle, -, h⟩ := List.mem_flatMap.mp h
    rcases List.mem_cons.mp h with rfl | h
    · rfl
    · rw [List.mem_singleton.mp h]; rfl

theorem balanced_inner : ∀ {acts : List Act}, (∀ a ∈ acts, inner a = true) →
    balanced true (acts ++ .unlock :: rest) = balanced false rest
  | [], _ => by simp [balanced]
  | a :: acts, h => by
    have ih := balanced_inner fun b hb => h b (List.mem_cons_of_mem _ hb)
    have ha := h a List.mem_cons_self
    cases a <;> first | cases ha | skip
    · simpa [balanced] using ih
    · simpa [balanced] using ih
    · simpa [balanced] using ih

theorem balanced_append_waits {more : ℕ} :
    balanced held (hasSessions mediaKeys more ++ rest) = balanced held rest := by
  unfold hasSessions
  split_ifs
  · rfl
  · generalize min more mediaKeys.length + 1 = n
    induction n with
    | zero => rfl
    | succ n ih => simpa [List.replicate_succ, balanced] using ih
/-! ## What operations and tasks are made of -/

/-- The acts of operations and tasks as they are begun. -/
def begun : Act → Bool
  | .unlock | .emplaceMediaKeys _ | .eraseMediaKeys _ => false
  | _ => true

theorem balanced_begun : ∀ {acts : List Act}, (∀ a ∈ acts, begun a = true) →
    balanced false acts = true
  | [], _ => rfl
  | a :: acts, h => by
    have ih := balanced_begun fun b hb => h b (List.mem_cons_of_mem _ hb)
    have ha := h a List.mem_cons_self
    cases a <;> first | simpa [balanced] using ih | cases ha

theorem modest_createBuffer {segment : EncryptedSegment} (h : act ∈ createBuffer segment) :
    modest act = true ∧ begun act = true := by
  unfold createBuffer isNetflixKeySystem selectKeyId incrementSessionIdUsageCounter at h
  cases hn : segment.netflix <;> simp [hn] at h
  · rcases h with rfl | rfl <;> exact ⟨rfl, rfl⟩
  · rcases h with rfl | rfl <;> exact ⟨rfl, rfl⟩

theorem modest_createBuffers {segments : List EncryptedSegment}
    (h : act ∈ segments.flatMap createBuffer) : modest act = true ∧ begun act = true := by
  obtain ⟨segment, -, hact⟩ := List.mem_flatMap.mp h
  exact modest_createBuffer hact

theorem modest_unrefBuffers {buffers : List ℕ} (h : act ∈ unrefBuffers buffers) :
    modest act = true ∧ begun act = true := by
  obtain ⟨more, -, hact⟩ := List.mem_flatMap.mp h
  rw [List.mem_singleton.mp hact]
  exact ⟨rfl, rfl⟩

theorem modest_notify {asks : Bool} (h : act ∈ notifyNeedMediaData asks) :
    modest act = true ∧ begun act = true := by
  unfold notifyNeedMediaData at h
  split_ifs at h
  · rw [List.mem_singleton.mp h]
    exact ⟨rfl, rfl⟩
  · cases h

theorem modest_workerTask {task : WorkerTask} (h : act ∈ task.acts) :
    modest act = true ∧ begun act = true := by
  cases task with
  | needData asks => exact modest_notify h
  | attachSource asks => exact modest_notify h
  | attachSamples asks => exact modest_notify h
  | finishSetupSource audio video =>
    exact (List.mem_append.mp h).elim modest_notify modest_notify
  | readShmDataAndAttachSamples segments asks =>
    exact (List.mem_append.mp h).elim modest_createBuffers modest_notify
  | setPosition buffers audio video =>
    rcases List.mem_append.mp h with h | h
    · exact (List.mem_append.mp h).elim modest_unrefBuffers modest_notify
    · exact modest_notify h
  | removeSource buffers => exact modest_unrefBuffers h
  | shutdown => cases h
  | other => cases h

theorem begun_destroyPlayer {buffers : List ℕ} (h : act ∈ destroyPlayer buffers) :
    begun act = true ∧ demanding act = false := by
  rcases List.mem_cons.mp h with rfl | h
  · exact ⟨rfl, rfl⟩
  · obtain ⟨more, -, hact⟩ := List.mem_flatMap.mp h
    rw [List.mem_singleton.mp hact]
    exact ⟨rfl, rfl⟩

theorem begun_mainTask {task : MainTask} {player : Bool} (h : act ∈ task.acts player) :
    begun act = true := by
  cases task with
  | plain => cases h
  | load buffers =>
    rcases List.mem_append.mp h with h | h
    · split_ifs at h
      · exact (begun_destroyPlayer h).1
      · cases h
    · rw [List.mem_singleton.mp h]
      rfl
  | haveDataSegments segments => exact (modest_createBuffers h).2

/-- An operation is one demanding task, or no demanding act. -/
theorem begun_operation (c : State) (operation : Operation) :
    (∀ a ∈ operation.acts c, begun a = true) ∧
      ∀ a ∈ operation.acts c, demanding a = true → operation.acts c = [a] := by
  have hsingle : ∀ b : Act, begun b = true → (∀ a ∈ [b], begun a = true) ∧
      ∀ a ∈ [b], demanding a = true → [b] = [a] := by
    intro b hb
    refine ⟨fun a ha => by rwa [List.mem_singleton.mp ha], fun a ha _ => ?_⟩
    rw [List.mem_singleton.mp ha]
  cases operation with
  | destroySession buffers =>
    have hall : ∀ a ∈ (Operation.destroySession buffers).acts c,
        begun a = true ∧ demanding a = false := by
      intro a ha
      rcases List.mem_cons.mp ha with rfl | ha
      · exact ⟨rfl, rfl⟩
      · split_ifs at ha
        · exact begun_destroyPlayer ha
        · cases ha
    refine ⟨fun a ha => (hall a ha).1, fun a ha hd => ?_⟩
    rw [(hall a ha).2] at hd
    cases hd
  | containsKey handle | setDrmHeader handle | otherMediaKeysCall handle =>
    simp only [Operation.acts]
    split_ifs
    · exact hsingle _ rfl
    · exact ⟨by simp, by simp⟩
  | _ => exact hsingle _ rfl

end Rialto.Server.Acts
