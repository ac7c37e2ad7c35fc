import Rialto.Lib.Queue
import Rialto.Lib.Runs
import Rialto.WebAudio.Ring

/-! # The partition as a byte queue

The bytes handed to GStreamer, followed by the bytes stored in the partition, are the bytes of the
successful `writeBuffer` calls: every operation of the player is a push or a pop of a byte queue.

* `drain_spec`, `write_spec`: what `writeStoredBuffers` and `writeBufferInternal` do to the queue;
* `World`, `step`: one partition with its client and its write timer. A client copies its bytes to
  the ranges the last `getBufferAvailable` named and then calls `writeBuffer`; the timer posts a
  task that drains the store, and the task may run at any later moment;
* `Paired`: each `writeBuffer` whose bytes are copied is the first since the last
  `getBufferAvailable`. `run_refines`: along every such run the partition is the queue of the bytes
  written. A repeated call is refused by the server, but its bytes are already in place, over bytes
  that are still stored (`repeated_write_overwrites`). -/

namespace Rialto.WebAudio.Stream

open Rialto.Lib.Cyclic Rialto.Lib.Queue Rialto.Lib.Memory Rialto.Lib.Runs Rialto.Lib.Word
open Rialto.WebAudio.Server Rialto.WebAudio.Ring

variable {p : Partition} {shm : Mem UInt8} {s : Player}

/-- The bytes stored, in the order in which they are offered to GStreamer. -/
def stored (p : Partition) (shm : Mem UInt8) (s : Player) : List UInt8 :=
  readAt shm (storedAddrs p s.availableBuffer)

theorem length_stored (shm : Mem UInt8) (hc : Consistent p s.availableBuffer) :
    (stored p shm s).length = p.maxDataLength - free s.availableBuffer := by
  rw [stored, storedOffer_addrs hc]
  simp

theorem newOffer_addrs_take {b : WebAudioShmInfo} (hc : Consistent p b) {n : ℕ}
    (hn : n ≤ free b) : (newOffer b n).addrs = (freeAddrs b).take n := by
  rw [newOffer_addrs hc hn, freeAddrs_eq hc, take_cyc _ _ _ hn]

/-! ## The operations on the queue -/

/-- What a drain of at most `accept` bytes does. -/
structure Drained (p : Partition) (shm : Mem UInt8) (accept : ℕ) (s : Player)
    (r : Bool × Player) : Prop where
  consistent : Consistent p r.2.availableBuffer
  handed : handedOver r.2.gst = handedOver s.gst ++ (stored p shm s).take accept
  contents : stored p shm r.2 = (stored p shm s).drop accept
  addrs : freeAddrs s.availableBuffer <+: freeAddrs r.2.availableBuffer
  all : r.1 = true ↔ (stored p shm s).length ≤ accept
  expect : r.2.expectWriteBuffer = s.expectWriteBuffer
  timer : r.2.writeDataTimer = s.writeDataTimer

/-- **`writeStoredBuffers` is a pop.** -/
theorem drain_spec (hc : Consistent p s.availableBuffer) (shm : Mem UInt8) (accept : ℕ) :
    Drained p shm accept s (writeStoredBuffers p shm accept s) := by
  have hlen := length_stored shm hc
  have hle := free_le hc
  have hfits := p.fits
  unfold writeStoredBuffers
  by_cases hfree : free s.availableBuffer = p.maxDataLength
  · have hnil : stored p shm s = [] := List.length_eq_zero_iff.mp (by omega)
    rw [if_pos ((no_data_iff hc).mpr hfree)]
    exact ⟨hc, by simp [hnil], by simp [hnil], List.prefix_refl _, by simp [hnil], rfl, rfl⟩
  · rw [if_neg (fun h => hfree ((no_data_iff hc).mp h))]
    have hoff := storedOffer_length hc
    have hg : min accept (p.maxDataLength - free s.availableBuffer) ≤
        p.maxDataLength - free s.availableBuffer := Nat.min_le_right _ _
    have hc' := (update_spec (g := min accept (p.maxDataLength - free s.availableBuffer)) hc
      (Nat.zero_le _) (by omega) (Or.inl rfl)).1
    have htake : (readAt shm (storedOffer p s.availableBuffer).addrs).take
        (min accept (p.maxDataLength - free s.availableBuffer)) = (stored p shm s).take accept := by
      rw [← hlen]
      exact List.take_eq_take_min.symm
    have hdrop : (stored p shm s).drop (min accept (p.maxDataLength - free s.availableBuffer)) =
        (stored p shm s).drop accept := by
      rcases Nat.le_total accept (p.maxDataLength - free s.availableBuffer) with h | h
      · rw [Nat.min_eq_left h]
      · rw [Nat.min_eq_right h, List.drop_of_length_le hlen.le, List.drop_of_length_le (by omega)]
    have hst : readAt shm (storedAddrs p (updateAvailableBuffer p s.availableBuffer 0
        (min accept (p.maxDataLength - free s.availableBuffer)))) =
          (stored p shm s).drop accept := by
      rw [storedAddrs_consume hc hg, readAt_drop]
      exact hdrop
    have hadd : add32 (storedOffer p s.availableBuffer).mainLength
        (storedOffer p s.availableBuffer).wrapLength =
          p.maxDataLength - free s.availableBuffer := by
      rw [add32_of_lt (by omega), hoff]
    have hpre := freeAddrs_consume hc hg
    simp only [gstWriteBuffer, hoff, hadd]
    split_ifs with hall heos
    · exact ⟨hc', by simp only [handedOver_append, handedOver, List.append_nil, htake],
        hst, hpre, by simp; omega, rfl, rfl⟩
    · exact ⟨hc', by simp only [handedOver_append, handedOver, List.append_nil, htake],
        hst, hpre, by simp; omega, rfl, rfl⟩
    · exact ⟨hc', by simp only [handedOver_append, handedOver, List.append_nil, htake],
        hst, hpre, by simp; omega, rfl, rfl⟩

/-- What an accepted `writeBuffer` of the bytes `new` does: a push followed by a pop. -/
structure Written (p : Partition) (shm : Mem UInt8) (new : List UInt8) (s : Player)
    (r : Bool × Player) : Prop where
  accepted : r.1 = true
  consistent : Consistent p r.2.availableBuffer
  queue : ∃ k, handedOver r.2.gst = handedOver s.gst ++ (stored p shm s ++ new).take k ∧
    stored p shm r.2 = (stored p shm s ++ new).drop k
  expect : r.2.expectWriteBuffer = false

/-- **`writeBufferInternal` is a push and a pop.** The new bytes are those at the first free
addresses, whatever the drain of the stored data that comes first frees. -/
theorem write_spec (hc : Consistent p s.availableBuffer) (hexp : s.expectWriteBuffer = true)
    (shm : Mem UInt8) {numberOfFrames : ℕ} (hn : numberOfFrames * p.bytesPerFrame < w32)
    (hfree : numberOfFrames * p.bytesPerFrame ≤ free s.availableBuffer)
    (acceptStored acceptNew : ℕ) :
    Written p shm
      (readAt shm ((freeAddrs s.availableBuffer).take (numberOfFrames * p.bytesPerFrame))) s
      (writeBufferInternal p shm numberOfFrames acceptStored acceptNew s) := by
  set n := numberOfFrames * p.bytesPerFrame with hndef
  set new := readAt shm ((freeAddrs s.availableBuffer).take n) with hnew
  set s0 : Player := { s with expectWriteBuffer := false, writeDataTimer := false } with hs0
  have hd := drain_spec (s := s0) hc shm acceptStored
  have hst0 : stored p shm s0 = stored p shm s := rfl
  obtain ⟨hc1, hh1, hs1, hpre, hall, hex1, -⟩ := hd
  rw [hst0] at hh1 hs1 hall
  unfold writeBufferInternal
  rw [if_pos hexp, mul32_of_lt (by omega), ← hndef]
  simp only [← hs0]
  rcases hr : writeStoredBuffers p shm acceptStored s0 with ⟨ok, s1⟩
  rw [hr] at hc1 hh1 hs1 hpre hall hex1
  simp only at hc1 hh1 hs1 hpre hall hex1
  have hfree1 : n ≤ free s1.availableBuffer := by
    have := hpre.length_le
    simp only [freeAddrs_eq hc1, freeAddrs_eq (p := p) (b := s0.availableBuffer) hc,
      length_cyc] at this
    exact le_trans hfree this
  have hnew1 : readAt shm (newOffer s1.availableBuffer n).addrs = new := by
    have hlen : (freeAddrs s0.availableBuffer).length = free s.availableBuffer := by
      rw [freeAddrs_eq (p := p) (b := s0.availableBuffer) hc, length_cyc]
    obtain ⟨rest, hrest⟩ := hpre
    rw [newOffer_addrs_take hc1 hfree1, ← hrest,
      List.take_append_of_le_length (by rw [hlen]; exact hfree)]
  cases ok with
  | false =>
    have hlt : ¬ (stored p shm s).length ≤ acceptStored := fun h => by simpa using hall.mpr h
    have hle := free_le hc1
    have hup := update_spec (g := 0) hc1 hfree1 (by omega) (Or.inr (Or.inl rfl))
    refine ⟨rfl, hup.1, ⟨acceptStored, ?_, ?_⟩, hex1⟩
    · simp only [hh1]
      rw [List.take_append_of_le_length (by omega)]
    · rw [List.drop_append_of_le_length (by omega), ← hs1, ← hnew1]
      unfold stored
      rw [storedAddrs_store hc1 hfree1, readAt_append]
  | true =>
    have hlen := hall.mp rfl
    have hempty : free s1.availableBuffer = p.maxDataLength := by
      have h1 := length_stored shm hc1
      have hle := free_le hc1
      rw [hs1, List.length_drop] at h1
      omega
    rw [List.take_of_length_le hlen] at hh1
    rw [List.drop_of_length_le hlen] at hs1
    simp only
    by_cases h0 : numberOfFrames = 0
    · have hnil : new = [] := by simp [hnew, hndef, h0]
      rw [if_pos h0]
      refine ⟨rfl, hc1, ⟨(stored p shm s).length, ?_, ?_⟩, hex1⟩
      · simp only [hh1, hnil, List.append_nil, List.take_length]
        rfl
      · simp only [hs1, hnil, List.append_nil, List.drop_length]
    · rw [if_neg h0]
      have hmin : min acceptNew n ≤ n := Nat.min_le_right _ _
      have hup := update_spec (g := min acceptNew n) hc1 hfree1 (by omega)
        (Or.inr (Or.inr hempty))
      simp only [gstWriteBuffer, newOffer_length hc1 hfree1]
      refine ⟨rfl, hup.1, ⟨(stored p shm s).length + min acceptNew n, ?_, ?_⟩, hex1⟩
      · rw [handedOver_append, hh1, List.take_length_add_append, hnew1]
        simp only [handedOver, List.append_nil, List.append_assoc]
        rfl
      · rw [List.drop_length_add_append, ← hnew1, ← readAt_drop,
          ← storedAddrs_new hc1 hempty hfree1 hmin]
        rfl

/-! ## The client's copy -/

/-- The client copies `bytes` to the ranges `r`, main range first. -/
def copyIn (r : WebAudioShmInfo) (bytes : List UInt8) (shm : Mem UInt8) : Mem UInt8 :=
  write (write shm r.offsetMain (bytes.take r.lengthMain)) r.offsetWrap (bytes.drop r.lengthMain)

theorem copyIn_of_notMem {r : WebAudioShmInfo} {bytes : List UInt8}
    (hlen : bytes.length ≤ free r) {a : ℕ} (ha : a ∉ freeAddrs r) :
    copyIn r bytes shm a = shm a := by
  unfold free at hlen
  simp only [freeAddrs, List.mem_append, List.mem_range'_1, not_or, not_and, not_lt] at ha
  unfold copyIn
  rw [write_of_notMem (by rw [List.length_drop]; omega),
    write_of_notMem (by rw [List.length_take]; omega)]

/-- The bytes are where the server takes them from. -/
theorem readAt_copyIn {r : WebAudioShmInfo} (hc : Consistent p r) {bytes : List UInt8}
    (hlen : bytes.length ≤ free r) :
    readAt (copyIn r bytes shm) ((freeAddrs r).take bytes.length) = bytes := by
  have h0 := hc.offsetWrap
  have h1 := hc.wrap_le
  unfold free at hlen
  have hmain : List.take bytes.length (List.range' r.offsetMain r.lengthMain) =
      List.range' r.offsetMain (bytes.take r.lengthMain).length := by
    rw [List.length_take]
    rcases Nat.le_total bytes.length r.lengthMain with h | h
    · rw [List.take_range'_of_length_ge h, Nat.min_eq_right h]
    · rw [List.take_range'_of_length_le h, Nat.min_eq_left h]
  have hwrap : List.take (bytes.length - r.lengthMain) (List.range' r.offsetWrap r.lengthWrap) =
      List.range' r.offsetWrap (bytes.drop r.lengthMain).length := by
    rw [List.length_drop, List.take_range'_of_length_ge (by omega)]
  rw [freeAddrs, List.take_append, List.length_range', hmain, hwrap, readAt_append]
  conv_rhs => rw [← List.take_append_drop r.lengthMain bytes]
  congr 1
  · refine Eq.trans (readRange_write_of_disjoint _ ?_) (readRange_write_self _ _ _)
    rw [List.length_take, List.length_drop]
    omega
  · exact readRange_write_self _ _ _

/-! ## Runs -/

/-- A partition with its client: the shared memory, the player, the posted tasks of expired write
timers, what the last `getBufferAvailable` returned, and the bytes of all successful `writeBuffer`
calls. -/
structure World where
  shm : Mem UInt8
  player : Player
  postedTasks : ℕ
  lastResult : Option WebAudioShmInfo
  written : List UInt8

/-- The world after the construction of the player, whatever the memory holds. -/
def World.init (p : Partition) (shm : Mem UInt8) : World :=
  ⟨shm, initWebAudioPlayerInternal p, 0, none, []⟩

/-- What can happen. The numbers of bytes GStreamer accepts are part of the action. -/
inductive Act
  /-- the client asks for the free ranges -/
  | getBufferAvailable
  /-- the client copies `bytes` to the ranges it was last given and calls `writeBuffer` -/
  | writeBuffer (numberOfFrames : ℕ) (bytes : List UInt8) (acceptStored acceptNew : ℕ)
  /-- the client calls `writeBuffer` again without copying anything -/
  | writeBufferUncopied (numberOfFrames : ℕ)
  /-- the armed write timer expires and posts its task -/
  | timerExpires
  /-- a posted task runs -/
  | writeDataTask (accept : ℕ)
  /-- the client signals the end of the stream -/
  | setEos

/-- One step. A client copies a whole number of frames that fit the ranges it was last given. -/
def step (p : Partition) (w : World) : Act → Option World
  | .getBufferAvailable =>
    let r := getBufferAvailable p w.player
    some { w with player := r.2, lastResult := some r.1.2 }
  | .writeBuffer numberOfFrames bytes acceptStored acceptNew =>
    match w.lastResult with
    | none => none
    | some info =>
      if bytes.length = numberOfFrames * p.bytesPerFrame ∧
          numberOfFrames * p.bytesPerFrame < w32 ∧
          numberOfFrames * p.bytesPerFrame ≤ info.lengthMain + info.lengthWrap then
        let shm := copyIn info bytes w.shm
        let r := writeBufferInternal p shm numberOfFrames acceptStored acceptNew w.player
        some { w with
          shm := shm
          player := r.2
          written := if r.1 then w.written ++ bytes else w.written }
      else none
  | .writeBufferUncopied numberOfFrames =>
    if w.player.expectWriteBuffer then none
    else some { w with player := (writeBufferInternal p w.shm numberOfFrames 0 0 w.player).2 }
  | .timerExpires =>
    if w.player.writeDataTimer then
      some { w with
        player := { w.player with writeDataTimer := false }
        postedTasks := w.postedTasks + 1 }
    else none
  | .writeDataTask accept =>
    if w.postedTasks = 0 then none
    else some { w with
      player := handleWriteDataTimer p w.shm accept w.player
      postedTasks := w.postedTasks - 1 }
  | .setEos => some { w with player := setEos p w.player }

/-- Bytes are copied only for the first `writeBuffer` after a `getBufferAvailable`. -/
def Paired (w : World) : Act → Prop
  | .writeBuffer .. => w.player.expectWriteBuffer = true
  | _ => True

instance (w : World) (a : Act) : Decidable (Paired w a) := by
  cases a <;> unfold Paired <;> infer_instance

/-- **The partition is the queue `q`.** While a `writeBuffer` is expected, the ranges the client was
given are still the first free ones. -/
structure Refines (p : Partition) (w : World) (q : Fifo UInt8) : Prop where
  consistent : Consistent p w.player.availableBuffer
  pushed : q.pushed = w.written
  popped : q.popped = handedOver w.player.gst
  contents : q.contents = stored p w.shm w.player
  result : ∀ r, w.lastResult = some r → w.player.expectWriteBuffer = true →
    Consistent p r ∧ freeAddrs r <+: freeAddrs w.player.availableBuffer

theorem refines_init (p : Partition) (shm : Mem UInt8) :
    Refines p (World.init p shm) Fifo.empty where
  consistent := consistent_init p
  pushed := rfl
  popped := rfl
  contents := by
    have h := length_stored shm (consistent_init p)
    have h0 : free (initWebAudioPlayerInternal p).availableBuffer = p.maxDataLength := rfl
    rw [h0, Nat.sub_self] at h
    exact (List.length_eq_zero_iff.mp h).symm
  result := fun r h => by cases h

theorem setEos_gst (p : Partition) (s : Player) :
    handedOver (setEos p s).gst = handedOver s.gst := by
  unfold setEos
  split_ifs <;> simp [handedOver]

theorem setEos_buffer (p : Partition) (s : Player) :
    (setEos p s).availableBuffer = s.availableBuffer ∧
      (setEos p s).expectWriteBuffer = s.expectWriteBuffer := by
  unfold setEos
  split_ifs <;> exact ⟨rfl, rfl⟩

/-- No address is free and stored. -/
theorem stored_disjoint {b : WebAudioShmInfo} (hc : Consistent p b) {a : ℕ}
    (hfree : a ∈ freeAddrs b) : a ∉ storedAddrs p b := by
  have hle := free_le hc
  have hdis := cyc_disjoint (P := p.partitionOffset) (s := pos p b)
    (show free b + (p.maxDataLength - free b) ≤ p.maxDataLength by omega)
  rw [← freeAddrs_eq hc, ← storedOffer_addrs hc] at hdis
  exact hdis hfree

/-- A client that copies to free ranges leaves the stored bytes alone. -/
theorem stored_copyIn {r : WebAudioShmInfo} (hc : Consistent p s.availableBuffer)
    (hpre : freeAddrs r <+: freeAddrs s.availableBuffer) {bytes : List UInt8}
    (hlen : bytes.length ≤ free r) :
    stored p (copyIn r bytes shm) s = stored p shm s := by
  refine readAt_congr fun a ha => copyIn_of_notMem hlen fun hmem => ?_
  exact stored_disjoint hc (hpre.subset hmem) ha

/-- **Every step is a step of the queue.** -/
theorem step_refines {w w' : World} {q : Fifo UInt8} {a : Act} (hr : Refines p w q)
    (hp : Paired w a) (hstep : step p w a = some w') : ∃ q', Refines p w' q' := by
  obtain ⟨hc, hpush, hpop, hcont, hres⟩ := hr
  cases a with
  | getBufferAvailable =>
    cases hstep
    refine ⟨q, hc, hpush, hpop, hcont, fun r h _ => ?_⟩
    cases h
    exact ⟨hc, List.prefix_refl _⟩
  | writeBuffer numberOfFrames bytes acceptStored acceptNew =>
    have hexp : w.player.expectWriteBuffer = true := hp
    simp only [step] at hstep
    split at hstep
    · cases hstep
    next info hinfo =>
    split at hstep
    swap
    · cases hstep
    next hfit =>
    obtain ⟨hlen, hlt, hle⟩ := hfit
    obtain ⟨hci, hpre⟩ := hres info hinfo hexp
    have hbytes : bytes.length ≤ free info := by rw [hlen]; exact hle
    have hfree : numberOfFrames * p.bytesPerFrame ≤ free w.player.availableBuffer := by
      have := hpre.length_le
      rw [freeAddrs_eq hci, freeAddrs_eq hc, length_cyc, length_cyc] at this
      exact le_trans hle this
    have hnew : readAt (copyIn info bytes w.shm)
        ((freeAddrs w.player.availableBuffer).take (numberOfFrames * p.bytesPerFrame)) = bytes := by
      obtain ⟨rest, hrest⟩ := hpre
      rw [← hrest, List.take_append_of_le_length
        (by rw [freeAddrs_eq hci, length_cyc]; exact hle), ← hlen]
      exact readAt_copyIn hci hbytes
    obtain ⟨hacc, hc', ⟨k, hk1, hk2⟩, hexp'⟩ :=
      write_spec hc hexp (copyIn info bytes w.shm) hlt hfree acceptStored acceptNew
    rw [stored_copyIn hc hpre hbytes, hnew] at hk1 hk2
    cases hstep
    refine ⟨(q.push bytes).pop k, hc', ?_, ?_, ?_, fun r _ h => ?_⟩
    · simp only [hacc, if_true, Fifo.pop, Fifo.push, hpush]
    · simp only [Fifo.pop, Fifo.push, hpop, hcont, hk1]
    · simp only [Fifo.pop, Fifo.push, hcont, hk2]
    · simp only [hexp'] at h
      cases h
  | writeBufferUncopied numberOfFrames =>
    simp only [step] at hstep
    split_ifs at hstep with hexp
    cases hstep
    have hrej : writeBufferInternal p w.shm numberOfFrames 0 0 w.player = (false, w.player) := by
      unfold writeBufferInternal
      rw [if_neg hexp]
    rw [hrej]
    exact ⟨q, hc, hpush, hpop, hcont, hres⟩
  | timerExpires =>
    simp only [step] at hstep
    split_ifs at hstep
    cases hstep
    exact ⟨q, hc, hpush, hpop, hcont, hres⟩
  | writeDataTask accept =>
    simp only [step] at hstep
    split_ifs at hstep
    cases hstep
    obtain ⟨hc', hh, hs, hpre, -, hex, -⟩ := drain_spec hc w.shm accept
    refine ⟨q.pop accept, hc', hpush, ?_, ?_, fun r h hexp => ?_⟩
    · simp only [Fifo.pop, hpop, hcont]
      exact hh.symm
    · simp only [Fifo.pop, hcont]
      exact hs.symm
    · obtain ⟨hcr, hr⟩ := hres r h (by rw [← hex]; exact hexp)
      exact ⟨hcr, hr.trans hpre⟩
  | setEos =>
    cases hstep
    obtain ⟨hb, he⟩ := setEos_buffer p w.player
    refine ⟨q, by simp only [hb]; exact hc, hpush, ?_, ?_, fun r h hexp => ?_⟩
    · rw [hpop]
      exact (setEos_gst p w.player).symm
    · simp only [stored, hb]
      exact hcont
    · simp only [he] at hexp
      simp only [hb]
      exact hres r h hexp

theorem run_refines {shm : Mem UInt8} {as : List Act} {w : World}
    (h : Run (step p) Paired (World.init p shm) as w) : ∃ q, Refines p w q := by
  refine Run.invariant (fun w => ∃ q, Refines p w q) ?_ h ⟨_, refines_init p shm⟩
  rintro w a w' ⟨q, hq⟩ hp hstep
  exact step_refines hq hp hstep

/-- **The partition refines a byte queue.** After every run in which bytes are copied only for the
first `writeBuffer` after a `getBufferAvailable`: what GStreamer accepted, followed by what is
stored, is what the successful calls wrote; the free and the stored addresses partition the
partition; and, while a `writeBuffer` is expected, any drain leaves the addresses from which it will
take its bytes as `getBufferAvailable` named them. -/
theorem partition_refines_queue (p : Partition) (shm : Mem UInt8) {as : List Act} {w : World}
    (h : Run (step p) Paired (World.init p shm) as w) :
    handedOver w.player.gst ++ readAt w.shm (storedAddrs p w.player.availableBuffer) = w.written ∧
    (freeAddrs w.player.availableBuffer ++ storedAddrs p w.player.availableBuffer).Perm
      (List.range' p.partitionOffset p.maxDataLength) ∧
    ∀ r, w.lastResult = some r → w.player.expectWriteBuffer = true →
      ∀ accept n, n ≤ r.lengthMain + r.lengthWrap →
        (newOffer (writeStoredBuffers p w.shm accept w.player).2.availableBuffer n).addrs =
          (freeAddrs r).take n := by
  obtain ⟨q, hc, hpush, hpop, hcont, hres⟩ := run_refines h
  refine ⟨?_, free_stored_perm hc, fun r hr hexp accept n hn => ?_⟩
  · have hq := q.conserved
    rw [hpop, hcont, hpush] at hq
    exact hq
  · obtain ⟨hcr, hpre⟩ := hres r hr hexp
    have hd := drain_spec hc w.shm accept
    obtain ⟨rest, hrest⟩ := hpre.trans hd.addrs
    have hlen : (freeAddrs r).length = free r := by rw [freeAddrs_eq hcr, length_cyc]
    have hle : n ≤ free (writeStoredBuffers p w.shm accept w.player).2.availableBuffer := by
      have := (hpre.trans hd.addrs).length_le
      rw [hlen, freeAddrs_eq hd.consistent, length_cyc] at this
      exact le_trans hn this
    rw [newOffer_addrs_take hd.consistent hle, ← hrest,
      List.take_append_of_le_length (by rw [hlen]; exact hn)]

/-- A partition of four one-byte frames. -/
def smallPartition : Partition := ⟨0, 4, 1, by decide, by decide, by decide⟩

/-- Three bytes of which GStreamer takes one, then two that wrap, with a drain in between. -/
def wrappingActs : List Act :=
  [.getBufferAvailable, .writeBuffer 3 [1, 2, 3] 0 1, .getBufferAvailable, .timerExpires,
    .writeDataTask 1, .writeBuffer 2 [4, 5] 0 0, .writeBufferUncopied 1]

theorem partition_refines_queue_wrapping :
    ∃ w, Run (step smallPartition) Paired (World.init smallPartition fun _ => 0) wrappingActs w ∧
      handedOver w.player.gst ++
        readAt w.shm (storedAddrs smallPartition w.player.availableBuffer) = w.written ∧
      w.written = [1, 2, 3, 4, 5] ∧ handedOver w.player.gst = [1, 2] := by
  have hrun : Run (step smallPartition) Paired (World.init smallPartition fun _ => 0) wrappingActs
      ((runsIf (step smallPartition) Paired (World.init smallPartition fun _ => 0)
        wrappingActs).get (by decide)) := Run.of_runsIf (Option.some_get _).symm
  exact ⟨_, hrun, (partition_refines_queue smallPartition _ hrun).1, by decide, by decide⟩

/-- The client writes twice after one `getBufferAvailable`. The server refuses the second call, but
the bytes of the first are still stored, and overwritten. -/
def repeatedWriteActs : List Act :=
  [.getBufferAvailable, .writeBuffer 2 [1, 2] 0 0, .writeBuffer 2 [3, 4] 0 0]

theorem repeated_write_overwrites :
    ¬ ∀ (p : Partition) (shm : Mem UInt8) (as : List Act) (w : World),
      Run (step p) (fun _ _ => True) (World.init p shm) as w →
        handedOver w.player.gst ++ readAt w.shm (storedAddrs p w.player.availableBuffer) =
          w.written := by
  intro h
  have hrun : Run (step smallPartition) (fun _ _ => True) (World.init smallPartition fun _ => 0)
      repeatedWriteActs
      ((runs (step smallPartition) (World.init smallPartition fun _ => 0)
        repeatedWriteActs).get (by decide)) := Run.of_runs (Option.some_get _).symm
  exact absurd (h _ _ _ _ hrun) (by decide)

end Rialto.WebAudio.Stream
