import Rialto.Lib.Memory
import Rialto.WebAudio.HandOver

/-! # What a write task pushes

`WriteBuffer::execute` copies as many bytes as the appsrc has room for to a new buffer, from the
main range and then from the wrapped one, pushes the buffer and stores the number of bytes.
`gst_buffer_fill` is a parameter, which copies all that it is given (`CopiesAll`).

* `execute`: the task, in the two halves between which the appsrc may drain.
* `prepare_eq`: the buffer holds the first bytes of both ranges, whatever the three branches are.
* `step`: tasks and drains; `write_task`: what every task pushes and stores, and that the level
  stays below the limit, so that the free space is no wrapped difference. -/

namespace Rialto.WebAudio.WriteTask

open Rialto.Lib.Memory Rialto.Lib.Runs Rialto.Lib.Word
open Rialto.WebAudio.HandOver (Env maxWebAudioBytes freeBytes)

/-! ## The task -/

/-- A `WriteBuffer` task. It is made of lengths of type `uint32_t`, and keeps them as `uint64_t`. -/
structure Task where
  mainPtr : ℕ
  mainLength : ℕ
  wrapPtr : ℕ
  wrapLength : ℕ
  mainLength_lt : mainLength < w32
  wrapLength_lt : wrapLength < w32

/-- The bytes of the main range, followed by those of the wrapped one. -/
def Task.bytes (t : Task) (shm : Mem UInt8) : List UInt8 :=
  readRange shm t.mainPtr t.mainLength ++ readRange shm t.wrapPtr t.wrapLength

/-- The type of `gst_buffer_fill`: from the contents of a buffer, an offset and bytes to the number
of bytes copied and the new contents. -/
abbrev Fill : Type := List UInt8 → ℕ → List UInt8 → ℕ × List UInt8

/-- Bytes that fit the buffer are all copied. -/
def CopiesAll (gstBufferFill : Fill) : Prop :=
  ∀ buffer offset bytes, offset + bytes.length ≤ buffer.length →
    gstBufferFill buffer offset bytes =
      (bytes.length, buffer.take offset ++ bytes ++ buffer.drop (offset + bytes.length))

/-- The calls that fill a buffer of `bytesToWrite` bytes: the number of bytes written and the
contents. -/
def fillBuffer (gstBufferFill : Fill) (shm : Mem UInt8) (t : Task) (bytesToWrite : ℕ)
    (buffer : List UInt8) : ℕ × List UInt8 :=
  if bytesToWrite = t.mainLength + t.wrapLength then
    let main := gstBufferFill buffer 0 (readRange shm t.mainPtr t.mainLength)
    let wrap := gstBufferFill main.2 main.1 (readRange shm t.wrapPtr t.wrapLength)
    (main.1 + wrap.1, wrap.2)
  else if t.mainLength < bytesToWrite then
    let main := gstBufferFill buffer 0 (readRange shm t.mainPtr t.mainLength)
    let wrap := gstBufferFill main.2 main.1 (readRange shm t.wrapPtr
      ((bytesToWrite + 2 ^ 64 - main.1 % 2 ^ 64) % 2 ^ 64))
    (main.1 + wrap.1, wrap.2)
  else gstBufferFill buffer 0 (readRange shm t.mainPtr bytesToWrite)

/-- The first half of `WriteBuffer::execute`: the buffer to push, and how many bytes were written to
it. A new buffer holds whatever is in `memory`. -/
def prepare (gstBufferFill : Fill) (shm memory : Mem UInt8) (env : Env) (t : Task) :
    Option (ℕ × List UInt8) :=
  let bytesToWrite := min (freeBytes env) (t.mainLength + t.wrapLength)
  if env.allocates then
    some (fillBuffer gstBufferFill shm t bytesToWrite (readRange memory 0 bytesToWrite))
  else none

/-- The number that the second half stores, of type `uint32_t`. -/
def storedCount (accepts : Bool) (bytesWritten : ℕ) : ℕ :=
  (if accepts then bytesWritten else 0) % 2 ^ 32

/-- `WriteBuffer::execute`: the buffer given to `gst_app_src_push_buffer`, if any, and the new
`m_lastBytesWritten`. -/
def execute (gstBufferFill : Fill) (shm memory : Mem UInt8) (env : Env) (t : Task) :
    Option (List UInt8) × ℕ :=
  match prepare gstBufferFill shm memory env t with
  | none => (none, 0)
  | some (bytesWritten, buffer) => (some buffer, storedCount env.accepts bytesWritten)

section task

variable {gstBufferFill : Fill} {shm memory : Mem UInt8} {env : Env} {t : Task}

theorem Task.length_bytes (t : Task) (shm : Mem UInt8) :
    (t.bytes shm).length = t.mainLength + t.wrapLength := by
  simp [Task.bytes]

/-- A copy to the start of a buffer. -/
theorem CopiesAll.first (h : CopiesAll gstBufferFill) (buffer bytes : List UInt8)
    (hle : bytes.length ≤ buffer.length) :
    gstBufferFill buffer 0 bytes = (bytes.length, bytes ++ buffer.drop bytes.length) := by
  rw [h buffer 0 bytes (by omega), Nat.zero_add, List.take_zero, List.nil_append]

/-- A copy behind another one. -/
theorem CopiesAll.second (h : CopiesAll gstBufferFill) (first rest bytes : List UInt8)
    (hlength : bytes.length = rest.length) :
    gstBufferFill (first ++ rest) first.length bytes = (bytes.length, first ++ bytes) := by
  rw [h _ _ _ (by rw [List.length_append]; omega), List.take_left, List.drop_of_length_le
    (by rw [List.length_append]; omega), List.append_nil]

/-- **The first bytes of both ranges** fill the buffer. -/
theorem fillBuffer_eq (h : CopiesAll gstBufferFill) {size : ℕ} {buffer : List UInt8}
    (hbuffer : buffer.length = size) (hsize : size ≤ t.mainLength + t.wrapLength) :
    fillBuffer gstBufferFill shm t size buffer = (size, (t.bytes shm).take size) := by
  have hmain : t.mainLength < 4294967296 := t.mainLength_lt
  have hwrap : t.wrapLength < 4294967296 := t.wrapLength_lt
  have hlen : (readRange shm t.mainPtr t.mainLength).length = t.mainLength := length_readRange _ _ _
  -- both copies, when the main range is not longer than the buffer
  have hboth : ∀ n, t.mainLength + n = size →
      gstBufferFill buffer 0 (readRange shm t.mainPtr t.mainLength) = (t.mainLength,
        readRange shm t.mainPtr t.mainLength ++ buffer.drop t.mainLength) ∧
      gstBufferFill (readRange shm t.mainPtr t.mainLength ++ buffer.drop t.mainLength) t.mainLength
        (readRange shm t.wrapPtr n) =
          (n, readRange shm t.mainPtr t.mainLength ++ readRange shm t.wrapPtr n) := by
    intro n hn
    have hfirst := h.first buffer (readRange shm t.mainPtr t.mainLength) (by omega)
    have hsecond := h.second (readRange shm t.mainPtr t.mainLength) (buffer.drop t.mainLength)
      (readRange shm t.wrapPtr n) (by rw [length_readRange, List.length_drop]; omega)
    rw [hlen] at hfirst hsecond
    rw [length_readRange] at hsecond
    exact ⟨hfirst, hsecond⟩
  unfold fillBuffer Task.bytes
  by_cases hall : size = t.mainLength + t.wrapLength
  · obtain ⟨hfirst, hsecond⟩ := hboth t.wrapLength hall.symm
    rw [if_pos hall]
    simp only [hfirst, hsecond]
    rw [List.take_of_length_le (by simp; omega), hall]
  · rw [if_neg hall]
    by_cases hmore : t.mainLength < size
    · have hrest : (size + 2 ^ 64 - t.mainLength % 2 ^ 64) % 2 ^ 64 = size - t.mainLength := by
        omega
      obtain ⟨hfirst, hsecond⟩ := hboth (size - t.mainLength) (by omega)
      rw [if_pos hmore]
      simp only [hfirst, hrest, hsecond]
      rw [List.take_append, hlen, List.take_of_length_le (by omega), readRange_take _ _ (by omega)]
      exact Prod.ext (by omega) rfl
    · have hfirst := h.first buffer (readRange shm t.mainPtr size)
        (by rw [length_readRange]; omega)
      rw [length_readRange, List.drop_of_length_le hbuffer.le, List.append_nil] at hfirst
      rw [if_neg hmore, hfirst, List.take_append_of_le_length (by omega),
        readRange_take _ _ (by omega)]

theorem prepare_eq (h : CopiesAll gstBufferFill) :
    prepare gstBufferFill shm memory env t =
      if env.allocates then
        some (min (freeBytes env) (t.mainLength + t.wrapLength),
          (t.bytes shm).take (min (freeBytes env) (t.mainLength + t.wrapLength)))
      else none := by
  unfold prepare
  dsimp only
  rw [fillBuffer_eq h (length_readRange _ _ _) (Nat.min_le_right _ _)]

/-- Below the limit, the free space is what is left. -/
theorem freeBytes_eq (hlevel : env.currentLevelBytes ≤ maxWebAudioBytes) :
    freeBytes env = maxWebAudioBytes - env.currentLevelBytes := by
  unfold freeBytes maxWebAudioBytes at *
  omega

theorem storedCount_eq {accepts : Bool} {n : ℕ} (hn : n < 2 ^ 32) :
    storedCount accepts n = if accepts then n else 0 := by
  unfold storedCount
  split_ifs
  · exact Nat.mod_eq_of_lt hn
  · rfl

/-- What a task with room for `n` bytes pushes and stores. -/
theorem execute_eq (h : CopiesAll gstBufferFill) (hlevel : env.currentLevelBytes ≤ maxWebAudioBytes)
    {n : ℕ} (hn : n = min (maxWebAudioBytes - env.currentLevelBytes)
      (t.mainLength + t.wrapLength)) :
    execute gstBufferFill shm memory env t =
      if env.allocates then (some ((t.bytes shm).take n), if env.accepts then n else 0)
      else (none, 0) := by
  have hlimit : n < 2 ^ 32 := by
    unfold maxWebAudioBytes at hn
    omega
  unfold execute
  rw [prepare_eq h, freeBytes_eq hlevel, ← hn]
  by_cases hallocates : env.allocates = true
  · rw [if_pos hallocates, if_pos hallocates]
    dsimp only
    rw [storedCount_eq hlimit]
  · rw [if_neg hallocates, if_neg hallocates]

/-- The number that a task stores is the number of positions that it pushes in the stream. -/
theorem execute_length (h : CopiesAll gstBufferFill)
    (hlevel : env.currentLevelBytes ≤ maxWebAudioBytes) {u : HandOver.Task}
    (hmain : u.offer.mainLength = t.mainLength) (hwrap : u.offer.wrapLength = t.wrapLength) :
    (execute gstBufferFill shm memory env t).2 = (HandOver.execute env u).length := by
  rw [execute_eq h hlevel rfl]
  unfold HandOver.execute
  dsimp only
  rw [HandOver.fill_eq (Nat.min_le_right _ _), freeBytes_eq hlevel, hmain, hwrap]
  rcases env with ⟨level, allocates, accepts⟩
  cases allocates with
  | false => rfl
  | true =>
    cases accepts with
    | false => rfl
    | true => exact (List.length_range' ..).symm

end task

/-! ## Tasks and drains -/

/-- The worker between the two halves of a task. -/
inductive Worker
  | idle
  | pushing (bytesWritten : ℕ) (buffer : List UInt8)

/-- The level of the appsrc, the worker, and the number stored last. -/
structure State where
  level : ℕ
  worker : Worker
  lastBytesWritten : ℕ

def init : State := ⟨0, .idle, 0⟩

inductive Act
  | prepare (shm memory : Mem UInt8) (t : Task) (allocates : Bool)
  | push (accepts : Bool)
  /-- the appsrc hands `bytes` bytes on -/
  | drain (bytes : ℕ)

def step (gstBufferFill : Fill) (s : State) : Act → Option State
  | .prepare shm memory t allocates =>
    match s.worker with
    | .idle =>
      match WriteTask.prepare gstBufferFill shm memory ⟨s.level, allocates, true⟩ t with
      | none => some { s with lastBytesWritten := 0 }
      | some (bytesWritten, buffer) => some { s with worker := .pushing bytesWritten buffer }
    | .pushing _ _ => none
  | .push accepts =>
    match s.worker with
    | .idle => none
    | .pushing bytesWritten buffer =>
      some { level := if accepts then s.level + buffer.length else s.level
             worker := .idle
             lastBytesWritten := storedCount accepts bytesWritten }
  | .drain bytes => if bytes ≤ s.level then some { s with level := s.level - bytes } else none

/-- A buffer that is about to be pushed. -/
def Worker.buffer : Worker → List UInt8
  | .idle => []
  | .pushing _ buffer => buffer

section runs

variable {gstBufferFill : Fill} {s t : State}

/-- **Every step** keeps the level below the limit, with the buffer that is about to be pushed. -/
theorem step_level (h : CopiesAll gstBufferFill) {a : Act}
    (hs : s.level + s.worker.buffer.length ≤ maxWebAudioBytes)
    (hstep : step gstBufferFill s a = some t) :
    t.level + t.worker.buffer.length ≤ maxWebAudioBytes := by
  rcases s with ⟨level, worker, last⟩
  cases a with
  | prepare shm memory t allocates =>
    cases worker with
    | pushing bytesWritten buffer => cases hstep
    | idle =>
      have hle : level ≤ maxWebAudioBytes := hs
      simp only [step, prepare_eq h] at hstep
      cases allocates with
      | false =>
        cases hstep
        exact hs
      | true =>
        cases hstep
        have hfree : freeBytes ⟨level, true, true⟩ = maxWebAudioBytes - level := freeBytes_eq hle
        simp only [Worker.buffer, List.length_take, Task.length_bytes, hfree]
        omega
  | push accepts =>
    cases worker with
    | idle => cases hstep
    | pushing bytesWritten buffer =>
      cases hstep
      simp only [Worker.buffer, List.length_nil, Nat.add_zero] at hs ⊢
      split_ifs
      · exact hs
      · omega
  | drain bytes =>
    simp only [step] at hstep
    split_ifs at hstep
    cases hstep
    dsimp only at hs ⊢
    omega

/-- **A write task** pushes the first bytes of the main and the wrapped range, as many as there is
room for, and stores their number if the push succeeds and zero otherwise; and along every run of
tasks and drains the level stays below the limit. -/
theorem write_task (h : CopiesAll gstBufferFill) :
    (∀ (env : Env) (t : Task) (shm memory : Mem UInt8),
      env.currentLevelBytes ≤ maxWebAudioBytes →
      execute gstBufferFill shm memory env t =
        if env.allocates then
          (some ((t.bytes shm).take (min (maxWebAudioBytes - env.currentLevelBytes)
              (t.mainLength + t.wrapLength))),
            if env.accepts then
              min (maxWebAudioBytes - env.currentLevelBytes) (t.mainLength + t.wrapLength)
            else 0)
        else (none, 0)) ∧
    ∀ as s, Run (step gstBufferFill) (fun _ _ => True) init as s →
      s.level ≤ maxWebAudioBytes ∧
        ∀ allocates accepts, freeBytes ⟨s.level, allocates, accepts⟩ =
          maxWebAudioBytes - s.level := by
  refine ⟨fun env t shm memory hlevel => execute_eq h hlevel rfl, fun as s hrun => ?_⟩
  have hkept := hrun.invariant (fun s => s.level + s.worker.buffer.length ≤ maxWebAudioBytes)
    (fun _ _ _ hs _ hstep => step_level h hs hstep) (Nat.zero_le _)
  have hle : s.level ≤ maxWebAudioBytes := Nat.le_of_add_right_le hkept
  exact ⟨hle, fun allocates accepts => freeBytes_eq hle⟩

end runs

/-! ## A function that copies all -/

/-- What fits the buffer is copied. -/
def copyFitting : Fill := fun buffer offset bytes =>
  let n := min bytes.length (buffer.length - offset)
  (n, buffer.take offset ++ bytes.take n ++ buffer.drop (offset + n))

theorem copiesAll_copyFitting : CopiesAll copyFitting := by
  intro buffer offset bytes hle
  have hmin : min bytes.length (buffer.length - offset) = bytes.length :=
    Nat.min_eq_left (by omega)
  unfold copyFitting
  dsimp only
  rw [hmin, List.take_length]

theorem three_lt : 3 < w32 := by decide

/-- Three bytes at the end of the memory and three at its start. -/
def wrappedTask : Task := ⟨6, 3, 0, 3, three_lt, three_lt⟩

/-- There is room for five of the six bytes. -/
theorem write_task_wrapped :
    execute copyFitting (fun a => UInt8.ofNat a) (fun _ => 0) ⟨10235, true, true⟩ wrappedTask =
      (some [6, 7, 8, 0, 1], 5) ∧
    ∀ as s, Run (step copyFitting) (fun _ _ => True) init as s → s.level ≤ maxWebAudioBytes := by
  have hall := write_task copiesAll_copyFitting
  exact ⟨hall.1 _ _ _ _ (by decide), fun as s hrun => (hall.2 as s hrun).1⟩

end Rialto.WebAudio.WriteTask
