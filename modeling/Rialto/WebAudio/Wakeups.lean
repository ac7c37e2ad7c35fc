import Rialto.Lib.WordRing
import Rialto.WebAudio.Stream

/-! # The write timer

Data that GStreamer does not take stays in the partition until the write timer expires. The timer
is a thread that posts `handleWriteDataTimer` to the main thread; the main thread cancels it,
replaces it or drops it, and waits for its thread each time, which may still post its task then.

* `Phase`, `State`, `step`: the player with its timer, for a client that may call anything: the
  frame counts are not checked, and what GStreamer takes is part of the action.
* `Turn`: what is left of the ring when the frame counts are arbitrary, modulo `2 ^ 32`.
* `no_stranded_data`: bytes that are stored have a wake-up. -/

namespace Rialto.WebAudio.Wakeups

open Rialto.Lib Rialto.Lib.Memory Rialto.Lib.Runs Rialto.Lib.Word Rialto.Lib.WordRing
open Rialto.WebAudio.Server Rialto.WebAudio.Ring

open Rialto.WebAudio.Stream (smallPartition setEos_buffer)

/-! ## The player and its timer -/

/-- The thread of a timer: it waits, has found the time elapsed and calls the callback, has posted
the task, or has ended. -/
inductive Phase
  | waiting
  | firing
  | posted
  | ended
  deriving DecidableEq

/-- The player, the timer that `m_writeDataTimer` points to, and the posted tasks. -/
structure State where
  player : Player
  timer : Option Phase
  queued : ℕ

def init (p : Partition) : State := ⟨initWebAudioPlayerInternal p, none, 0⟩

/-- `Timer::isActive`, after the test for a null pointer. -/
def isActive : Option Phase → Bool
  | none => false
  | some .ended => false
  | some _ => true

/-- The tasks that a timer still posts when it is cancelled or destroyed: its thread is joined. -/
def postedWhenJoined : Option Phase → ℕ
  | some .firing => 1
  | _ => 0

inductive Act
  | getBufferAvailable
  | writeBuffer (shm : Mem UInt8) (numberOfFrames acceptStored acceptNew : ℕ)
  | setEos
  /-- the time of the timer has elapsed -/
  | timerFires
  /-- the callback posts the task -/
  | timerPosts
  | timerEnds
  /-- a posted task runs -/
  | writeDataTask (shm : Mem UInt8) (accept : ℕ)

/-- One step. In the player, `writeDataTimer` says whether the call has created a timer. -/
def step (p : Partition) (s : State) : Act → Option State
  | .getBufferAvailable => some { s with player := (getBufferAvailable p s.player).2 }
  | .writeBuffer shm numberOfFrames acceptStored acceptNew =>
    let player := (writeBufferInternal p shm numberOfFrames acceptStored acceptNew s.player).2
    if s.player.expectWriteBuffer then
      some { player := player
             timer := if player.writeDataTimer then some .waiting
               else if isActive s.timer then none else s.timer
             queued := s.queued + postedWhenJoined s.timer }
    else some { s with player := player }
  | .setEos => some { s with player := setEos p s.player }
  | .timerFires => if s.timer = some .waiting then some { s with timer := some .firing } else none
  | .timerPosts =>
    if s.timer = some .firing then
      some { s with timer := some .posted, queued := s.queued + 1 }
    else none
  | .timerEnds => if s.timer = some .posted then some { s with timer := some .ended } else none
  | .writeDataTask shm accept =>
    let player := handleWriteDataTimer p shm accept s.player
    if s.queued = 0 then none
    else some { player := player
                timer := if player.writeDataTimer then some .waiting else none
                queued := s.queued - 1 + postedWhenJoined s.timer }

/-! ## The ring without its bounds -/

/-- The number of bytes stored, as the player works it out. -/
def storedBytes (p : Partition) (b : WebAudioShmInfo) : ℕ :=
  sub32 p.maxDataLength (add32 b.lengthMain b.lengthWrap)

/-- The wrap range starts the partition, and a wrap range that is not empty comes behind a main
range that ends where the partition ends, modulo `2 ^ 32`. -/
structure Turn (p : Partition) (b : WebAudioShmInfo) : Prop where
  offsetWrap : b.offsetWrap = p.partitionOffset
  wrap : b.lengthWrap ≠ 0 →
    (b.offsetMain + b.lengthMain : ZMod w32) = p.partitionOffset + p.maxDataLength

section ring

variable {p : Partition} {b : WebAudioShmInfo} {s : Player} {n g : ℕ}

theorem storedBytes_eq_zero_iff :
    storedBytes p b = 0 ↔ (b.lengthMain + b.lengthWrap : ZMod w32) = p.maxDataLength := by
  rw [storedBytes, ← residue_iff (sub32_lt _ _) (by decide), residue_sub32, residue_add32,
    Nat.cast_zero, sub_eq_zero, eq_comm]

/-- While the ranges are those of a ring, these are the bytes at the stored addresses. -/
theorem storedBytes_eq_length (hc : Consistent p b) :
    storedBytes p b = (storedAddrs p b).length := by
  have hle := free_le hc
  have hfits := p.fits
  have hlength : (storedAddrs p b).length = p.maxDataLength - free b := by
    rw [storedOffer_addrs hc, Cyclic.length_cyc]
  rw [hlength]
  unfold storedBytes free at *
  rw [add32_of_lt (by omega), sub32_of_le hle (by omega)]

/-- The test of `writeStoredBuffers` for an empty store. -/
theorem no_data_test : add32 b.lengthWrap b.lengthMain = p.maxDataLength ↔ storedBytes p b = 0 := by
  have hfits := p.fits
  rw [storedBytes_eq_zero_iff, ← residue_iff (add32_lt _ _) (by omega), residue_add32, add_comm]

/-- Behind a wrap range no data is stored at the end of the partition. -/
theorem Turn.no_data_at_end (ht : Turn p b) (hwrap : b.lengthWrap ≠ 0) :
    sub32 p.maxDataLength (add32 (sub32 b.offsetMain p.partitionOffset) b.lengthMain) = 0 := by
  refine eq_of_residue (sub32_lt _ _) (by decide) ?_
  simp only [residue_sub32, residue_add32, Nat.cast_zero]
  linear_combination -ht.wrap hwrap

/-- Storing and consuming bytes that fit the main range, or all that is stored at the end. -/
theorem turn_main (ht : Turn p b) (hn : n ≤ b.lengthMain) :
    Turn p (updateAvailableBuffer p b n g) ∧
      ((updateAvailableBuffer p b n g).lengthMain + (updateAvailableBuffer p b n g).lengthWrap :
        ZMod w32) = b.lengthMain + b.lengthWrap - n + g := by
  unfold updateAvailableBuffer
  rw [if_pos hn]
  dsimp only
  split_ifs with hend
  · refine ⟨⟨ht.offsetWrap, fun h => ?_⟩, ?_⟩
    · have hzero := ht.no_data_at_end h
      have hg : g = 0 := by omega
      simp only [residue_add32, residue_sub32, hg, Nat.cast_zero]
      linear_combination ht.wrap h
    · simp only [residue_add32, residue_sub32]
      ring
  · refine ⟨⟨ht.offsetWrap, fun _ => ?_⟩, ?_⟩
    · simp only [residue_add32, residue_sub32]
      ring
    · simp only [residue_add32, residue_sub32]
      ring

/-- Storing more than the main range takes; bytes that are consumed beyond it are the new ones, when
nothing else is stored. -/
theorem turn_wrap (ht : Turn p b) (hn : b.lengthMain < n)
    (hg : g ≤ b.lengthMain ∨ storedBytes p b = 0) :
    Turn p (updateAvailableBuffer p b n g) ∧
      ((updateAvailableBuffer p b n g).lengthMain + (updateAvailableBuffer p b n g).lengthWrap :
        ZMod w32) = b.lengthMain + b.lengthWrap - n + g := by
  unfold updateAvailableBuffer
  rw [if_neg (Nat.not_le.mpr hn)]
  dsimp only
  split_ifs with hend
  · refine ⟨⟨ht.offsetWrap, fun h => absurd rfl h⟩, ?_⟩
    simp only [residue_add32, residue_sub32, Nat.cast_zero, ht.offsetWrap]
    ring
  · refine ⟨⟨ht.offsetWrap, fun _ => ?_⟩, ?_⟩
    · simp only [residue_add32, residue_sub32]
      ring
    · have hsum := storedBytes_eq_zero_iff.mp (hg.resolve_left hend)
      simp only [residue_add32, residue_sub32, ht.offsetWrap]
      linear_combination -hsum

theorem turn_update (ht : Turn p b)
    (hg : g ≤ b.lengthMain ∨ n ≤ b.lengthMain ∨ storedBytes p b = 0) :
    Turn p (updateAvailableBuffer p b n g) ∧
      ((updateAvailableBuffer p b n g).lengthMain + (updateAvailableBuffer p b n g).lengthWrap :
        ZMod w32) = b.lengthMain + b.lengthWrap - n + g := by
  by_cases hn : n ≤ b.lengthMain
  · exact turn_main ht hn
  · exact turn_wrap ht (Nat.lt_of_not_le hn) (by tauto)

/-- The lengths offered are those of the stored bytes. -/
theorem Turn.length_storedOffer (ht : Turn p b) :
    ((storedOffer p b).mainLength + (storedOffer p b).wrapLength : ZMod w32) =
      p.maxDataLength - (b.lengthMain + b.lengthWrap) := by
  unfold storedOffer
  by_cases hwrap : b.lengthWrap = 0
  · rw [if_neg (not_not.mpr hwrap)]
    simp only [residue_add32, residue_sub32, hwrap, Nat.cast_zero]
    ring
  · rw [if_pos hwrap]
    simp only [residue_add32, residue_sub32, ht.offsetWrap, Nat.cast_zero]
    linear_combination ht.wrap hwrap

/-- **A drain that says that all is handed over** leaves nothing behind. -/
theorem turn_writeStoredBuffers (ht : Turn p s.availableBuffer) (shm : Mem UInt8) (accept : ℕ) :
    Turn p (writeStoredBuffers p shm accept s).2.availableBuffer ∧
      ((writeStoredBuffers p shm accept s).1 = true →
        storedBytes p (writeStoredBuffers p shm accept s).2.availableBuffer = 0) := by
  unfold writeStoredBuffers
  by_cases hempty : add32 s.availableBuffer.lengthWrap s.availableBuffer.lengthMain =
      p.maxDataLength
  · rw [if_pos hempty]
    exact ⟨ht, fun _ => no_data_test.mp hempty⟩
  · rw [if_neg hempty]
    dsimp only
    generalize (gstWriteBuffer shm (storedOffer p s.availableBuffer) accept s).1 = g
    obtain ⟨hturn, hsum⟩ := turn_main (n := 0) (g := g) ht (Nat.zero_le _)
    by_cases hall : g = add32 (storedOffer p s.availableBuffer).mainLength
        (storedOffer p s.availableBuffer).wrapLength
    · have hzero : storedBytes p (updateAvailableBuffer p s.availableBuffer 0 g) = 0 := by
        have hg : (g : ZMod w32) = p.maxDataLength -
            (s.availableBuffer.lengthMain + s.availableBuffer.lengthWrap) := by
          rw [hall, residue_add32, ht.length_storedOffer]
        rw [storedBytes_eq_zero_iff, hsum, hg, Nat.cast_zero]
        ring
      rw [if_pos hall]
      split_ifs
      · exact ⟨hturn, fun _ => hzero⟩
      · exact ⟨hturn, fun _ => hzero⟩
    · rw [if_neg hall]
      exact ⟨hturn, fun h => by cases h⟩

theorem timer_writeStoredBuffers (shm : Mem UInt8) (accept : ℕ) :
    (writeStoredBuffers p shm accept s).2.writeDataTimer = s.writeDataTimer := by
  unfold writeStoredBuffers
  dsimp only
  split_ifs <;> rfl

/-- **A call that creates no timer** leaves nothing behind, whatever its frame count. -/
theorem turn_writeBufferInternal (ht : Turn p s.availableBuffer)
    (hexpect : s.expectWriteBuffer = true) (shm : Mem UInt8)
    (numberOfFrames acceptStored acceptNew : ℕ) :
    Turn p (writeBufferInternal p shm numberOfFrames acceptStored acceptNew s).2.availableBuffer ∧
      ((writeBufferInternal p shm numberOfFrames acceptStored acceptNew s).2.writeDataTimer =
          false →
        storedBytes p
          (writeBufferInternal p shm numberOfFrames acceptStored acceptNew s).2.availableBuffer =
            0) := by
  have hdrain := turn_writeStoredBuffers
    (s := { s with expectWriteBuffer := false, writeDataTimer := false }) ht shm acceptStored
  have htimer := timer_writeStoredBuffers (p := p)
    (s := { s with expectWriteBuffer := false, writeDataTimer := false }) shm acceptStored
  unfold writeBufferInternal
  rw [if_pos hexpect]
  dsimp only at hdrain htimer ⊢
  rcases hr : writeStoredBuffers p shm acceptStored
    { s with expectWriteBuffer := false, writeDataTimer := false } with ⟨all, s'⟩
  rw [hr] at hdrain htimer
  obtain ⟨hturn, hzero⟩ := hdrain
  cases all with
  | false =>
    have hstore := turn_update (n := mul32 numberOfFrames p.bytesPerFrame) (g := 0) hturn
      (Or.inl (Nat.zero_le _))
    exact ⟨hstore.1, fun h => by cases h⟩
  | true =>
    have hempty : storedBytes p s'.availableBuffer = 0 := hzero rfl
    by_cases h0 : numberOfFrames = 0
    · simp only [h0, if_true]
      exact ⟨hturn, fun _ => hempty⟩
    · simp only [h0, if_false]
      generalize (gstWriteBuffer shm (newOffer s'.availableBuffer
        (mul32 numberOfFrames p.bytesPerFrame)) acceptNew s').1 = g
      obtain ⟨hnew, hsum⟩ := turn_update (n := mul32 numberOfFrames p.bytesPerFrame) (g := g) hturn
        (Or.inr (Or.inr hempty))
      refine ⟨hnew, fun h => ?_⟩
      have hg : g = mul32 numberOfFrames p.bytesPerFrame := by
        simpa using (Bool.or_eq_false_iff.mp h).2
      have hbefore := storedBytes_eq_zero_iff.mp hempty
      rw [storedBytes_eq_zero_iff, hsum, hg]
      linear_combination hbefore

end ring

/-! ## Runs -/

/-- A timer whose callback is still to come. -/
def Armed (s : State) : Prop := s.timer = some .waiting ∨ s.timer = some .firing

instance (s : State) : Decidable (Armed s) := inferInstanceAs (Decidable (_ ∨ _))

/-- The ring modulo `2 ^ 32`, and a wake-up for bytes that are stored. -/
structure Inv (p : Partition) (s : State) : Prop where
  turn : Turn p s.player.availableBuffer
  wakeup : storedBytes p s.player.availableBuffer ≠ 0 → Armed s ∨ 0 < s.queued

section runs

variable {p : Partition} {s t : State}

theorem inv_init (p : Partition) : Inv p (init p) where
  turn := ⟨rfl, fun h => absurd rfl h⟩
  wakeup := fun h => by
    have hzero : storedBytes p (init p).player.availableBuffer = 0 := by
      have hfits := p.fits
      show sub32 p.maxDataLength (add32 p.maxDataLength 0) = 0
      rw [add32_of_lt (by omega), Nat.add_zero, sub32_of_le (Nat.le_refl _) (by omega),
        Nat.sub_self]
    exact absurd hzero h

/-- **Every step** keeps a wake-up for the stored bytes. -/
theorem inv_step (h : Inv p s) {a : Act} (hstep : step p s a = some t) : Inv p t := by
  obtain ⟨hturn, hwakeup⟩ := h
  cases a with
  | getBufferAvailable =>
    cases hstep
    exact ⟨hturn, hwakeup⟩
  | writeBuffer shm numberOfFrames acceptStored acceptNew =>
    simp only [step] at hstep
    by_cases hexpect : s.player.expectWriteBuffer = true
    · rw [if_pos hexpect] at hstep
      cases hstep
      obtain ⟨hturn', hzero⟩ := turn_writeBufferInternal hturn hexpect shm numberOfFrames
        acceptStored acceptNew
      refine ⟨hturn', fun hne => Or.inl (Or.inl ?_)⟩
      have htimer := mt hzero hne
      rw [Bool.not_eq_false] at htimer
      exact if_pos htimer
    · have hreject : writeBufferInternal p shm numberOfFrames acceptStored acceptNew s.player =
          (false, s.player) := by
        unfold writeBufferInternal
        rw [if_neg hexpect]
      rw [if_neg hexpect, hreject] at hstep
      cases hstep
      exact ⟨hturn, hwakeup⟩
  | setEos =>
    cases hstep
    have hsame := (setEos_buffer p s.player).1
    refine ⟨?_, ?_⟩
    · show Turn p (setEos p s.player).availableBuffer
      rw [hsame]
      exact hturn
    · show storedBytes p (setEos p s.player).availableBuffer ≠ 0 → _
      rw [hsame]
      exact hwakeup
  | timerFires =>
    simp only [step] at hstep
    split_ifs at hstep
    cases hstep
    exact ⟨hturn, fun _ => Or.inl (Or.inr rfl)⟩
  | timerPosts =>
    simp only [step] at hstep
    split_ifs at hstep
    cases hstep
    exact ⟨hturn, fun _ => Or.inr (Nat.succ_pos _)⟩
  | timerEnds =>
    -- the task has been posted, or has already run
    simp only [step] at hstep
    split_ifs at hstep with hposted
    cases hstep
    refine ⟨hturn, fun hne => Or.inr ?_⟩
    rcases hwakeup hne with hwaiting | hqueued
    · rcases hwaiting with h | h
      · rw [hposted] at h
        cases h
      · rw [hposted] at h
        cases h
    · exact hqueued
  | writeDataTask shm accept =>
    simp only [step] at hstep
    by_cases hqueued : s.queued = 0
    · rw [if_pos hqueued] at hstep
      cases hstep
    rw [if_neg hqueued] at hstep
    cases hstep
    obtain ⟨hturn', hzero⟩ := turn_writeStoredBuffers hturn shm accept
    refine ⟨hturn', fun hne => Or.inl (Or.inl ?_)⟩
    have hrest : (writeStoredBuffers p shm accept s.player).1 = false := by
      simpa using mt hzero hne
    have htimer : (handleWriteDataTimer p shm accept s.player).writeDataTimer = true := by
      simp [handleWriteDataTimer, hrest]
    exact if_pos htimer

/-- **No stranded data.** In every state that a run reaches, whatever frame counts the client writes
and whatever GStreamer takes, a write timer is armed or a task is queued if bytes are stored. -/
theorem no_stranded_data (p : Partition) {as : List Act} {s : State}
    (h : Run (step p) (fun _ _ => True) (init p) as s)
    (hstored : storedBytes p s.player.availableBuffer ≠ 0) : Armed s ∨ 0 < s.queued :=
  (h.invariant (Inv p) (fun _ _ _ hs _ hstep => inv_step hs hstep) (inv_init p)).wakeup hstored

end runs

/-- The second call cancels a timer whose callback is on its way; its task runs, and GStreamer
takes one of the three bytes. -/
def lateCallback : List Act :=
  [.getBufferAvailable, .writeBuffer (fun _ => 0) 2 0 0, .timerFires, .getBufferAvailable,
    .writeBuffer (fun _ => 0) 1 0 0, .writeDataTask (fun _ => 0) 1]

theorem no_stranded_data_late : ∃ s,
    Run (step smallPartition) (fun _ _ => True) (init smallPartition) lateCallback s ∧
      storedBytes smallPartition s.player.availableBuffer = 2 ∧ (Armed s ∨ 0 < s.queued) := by
  refine Run.exists_of_runs (fun s => storedBytes smallPartition s.player.availableBuffer) 2
    (by decide +kernel) fun s hrun hstored => ⟨hstored, no_stranded_data smallPartition hrun ?_⟩
  rw [hstored]
  decide

end Rialto.WebAudio.Wakeups
