import Rialto.WebAudio.Stream

/-! # The client's web audio player

The client of `WebAudioPlayer` keeps its own copy of the free ranges. `writeBuffer` copies the
caller's data to those ranges first and asks the server second, so the two sides agree only when the
copy is `fresh`: filled by a `getBufferAvailable` that was answered after the last `writeBuffer` the
server accepted. Nothing on the client's side checks this.

* `copyOut`: the client's copy. It may copy more than the data (the whole main range), but only to
  free bytes (`copyOut_of_notMem`), and the data is where the server takes it from
  (`readAt_copyOut`);
* `Session`, `step`: client, server and the calls between them, which may fail on the way to the
  server, on the way back, or be released without an answer when the connection is lost;
* `stream_of_fresh`: along every run whose writes are fresh and whose failed calls did not reach the
  server, GStreamer is handed the data of exactly the calls that returned true.
  `stale_write_corrupts`: a second write after one `getBufferAvailable` destroys stored data. -/

namespace Rialto.WebAudio.Client

open Rialto.Lib.Cyclic Rialto.Lib.Memory Rialto.Lib.Queue Rialto.Lib.Runs Rialto.Lib.Word
open Rialto.WebAudio.Server Rialto.WebAudio.Ring Rialto.WebAudio.Stream

variable {p : Partition} {info : WebAudioShmInfo} {shm : Mem UInt8}

/-- The `memcpy` calls of `WebAudioPlayer::writeBuffer`. `data` is the memory at the caller's
pointer; when the data fits the main range, the whole length of that range is copied. -/
def copyOut (info : WebAudioShmInfo) (data : Mem UInt8) (dataLength : ℕ) (shm : Mem UInt8) :
    Mem UInt8 :=
  if info.lengthMain < dataLength then
    write (write shm info.offsetMain (readRange data 0 info.lengthMain)) info.offsetWrap
      (readRange data info.lengthMain (sub32 dataLength info.lengthMain))
  else write shm info.offsetMain (readRange data 0 info.lengthMain)

theorem copyOut_of_notMem {data : Mem UInt8} {n : ℕ} (hn : n ≤ free info) (hlt : n < w32) {a : ℕ}
    (ha : a ∉ freeAddrs info) : copyOut info data n shm a = shm a := by
  unfold free at hn
  simp only [freeAddrs, List.mem_append, List.mem_range'_1, not_or, not_and, not_lt] at ha
  unfold copyOut
  split_ifs with h
  · rw [write_of_notMem (by rw [length_readRange, sub32_of_le h.le hlt]; omega),
      write_of_notMem (by rw [length_readRange]; omega)]
  · rw [write_of_notMem (by rw [length_readRange]; omega)]

/-- The data is where the server takes it from. -/
theorem readAt_copyOut {data : Mem UInt8} {n : ℕ} (hc : Consistent p info) (hn : n ≤ free info) :
    readAt (copyOut info data n shm) ((freeAddrs info).take n) = readRange data 0 n := by
  have hle := free_le hc
  have hfits := p.fits
  have hwr := hc.wrap_le
  have how := hc.offsetWrap
  unfold free at hn hle
  rw [← newOffer_addrs_take hc hn]
  unfold copyOut newOffer Offer.addrs
  by_cases h : n ≤ info.lengthMain
  · rw [if_neg (by omega), if_pos h, List.range'_zero, List.append_nil]
    have hself := readRange_write_self shm info.offsetMain (readRange data 0 info.lengthMain)
    rw [length_readRange] at hself
    calc readAt _ _ = (readRange (write shm info.offsetMain (readRange data 0 info.lengthMain))
          info.offsetMain info.lengthMain).take n := (readRange_take _ _ h).symm
      _ = readRange data 0 n := by rw [hself, readRange_take _ _ h]
  · rw [if_pos (by omega), if_neg h, readAt_append, sub32_of_le (by omega) (by omega)]
    have h1 := readRange_write_self (write shm info.offsetMain (readRange data 0 info.lengthMain))
      info.offsetWrap (readRange data info.lengthMain (n - info.lengthMain))
    have h2 := readRange_write_self shm info.offsetMain (readRange data 0 info.lengthMain)
    rw [length_readRange] at h1 h2
    conv_rhs => rw [show n = info.lengthMain + (n - info.lengthMain) by omega, readRange_append,
      Nat.zero_add]
    refine congrArg₂ (· ++ ·) ?_ h1
    refine Eq.trans (readRange_write_of_disjoint _ ?_) h2
    rw [length_readRange]
    simp only
    omega

/-! ## Client and server -/

/-- How the wait for the answer of a call ends: with the answer, with a failure, or without an
answer and without a failure (the connection was lost). -/
inductive Reply
  | answer
  | failure
  | none
  deriving DecidableEq, Repr

/-- Client and server. `info` is the client's copy of the free ranges, `sent` the data of the
`writeBuffer` calls that returned true. -/
structure Session where
  shm : Mem UInt8
  player : Player
  postedTasks : ℕ
  info : Option WebAudioShmInfo
  fresh : Bool
  sent : List UInt8

def Session.init (p : Partition) (shm : Mem UInt8) : Session :=
  ⟨shm, initWebAudioPlayerInternal p, 0, none, false, []⟩

/-- What can happen. `processed` says whether the server handles a call. -/
inductive Act
  | getBufferAvailable (processed : Bool) (reply : Reply)
  | writeBuffer (numberOfFrames : ℕ) (data : Mem UInt8) (mapped processed : Bool) (reply : Reply)
      (acceptStored acceptNew : ℕ)
  | timerExpires
  | writeDataTask (accept : ℕ)
  | setEos

/-- `WebAudioPlayer::getBufferAvailable`, answered by the server when it handles the call. -/
def getBufferAvailable (p : Partition) (w : Session) (processed : Bool) (reply : Reply) : Session :=
  let r := Server.getBufferAvailable p w.player
  let w := { w with player := if processed then r.2 else w.player }
  match reply with
  | .answer => { w with info := some r.1.2, fresh := true }
  | .failure => { w with info := some (w.info.getD ⟨0, 0, 0, 0⟩) }
  | .none => { w with info := some ⟨0, 0, 0, 0⟩, fresh := false }

/-- Whether `WebAudioPlayer::writeBuffer` gets as far as copying: the ranges it copies to. -/
def copyTarget (p : Partition) (w : Session) (numberOfFrames : ℕ) (mapped : Bool) :
    Option WebAudioShmInfo :=
  match w.info with
  | none => none
  | some info =>
    if add32 info.lengthMain info.lengthWrap < mul32 numberOfFrames p.bytesPerFrame then none
    else if mapped then some info
    else none

/-- `WebAudioPlayer::writeBuffer`: the value returned and the new state. -/
def writeBuffer (p : Partition) (w : Session) (numberOfFrames : ℕ) (data : Mem UInt8)
    (mapped processed : Bool) (reply : Reply) (acceptStored acceptNew : ℕ) : Bool × Session :=
  match copyTarget p w numberOfFrames mapped with
  | none => (false, w)
  | some info =>
    let shm := copyOut info data (mul32 numberOfFrames p.bytesPerFrame) w.shm
    let r := if processed then
      writeBufferInternal p shm numberOfFrames acceptStored acceptNew w.player
      else (false, w.player)
    let returned := match reply with
      | .answer => r.1
      | .failure => false
      | .none => true
    (returned, { w with
      shm := shm
      player := r.2
      fresh := w.fresh && !r.1
      sent := bif returned then w.sent ++ readRange data 0 (numberOfFrames * p.bytesPerFrame)
        else w.sent })

/-- One step. Only a call the server handles is answered. -/
def step (p : Partition) (w : Session) : Act → Option Session
  | .getBufferAvailable processed reply =>
    if reply = .answer → processed then some (getBufferAvailable p w processed reply) else none
  | .writeBuffer numberOfFrames data mapped processed reply acceptStored acceptNew =>
    if reply = .answer → processed then
      some (writeBuffer p w numberOfFrames data mapped processed reply acceptStored acceptNew).2
    else none
  | .timerExpires =>
    if w.player.writeDataTimer then
      some { w with
        player := { w.player with writeDataTimer := false }
        postedTasks := w.postedTasks + 1 }
    else none
  | .writeDataTask accept =>
    if w.postedTasks = 0 then none
    else some { w with
      player := handleWriteDataTimer p w.shm accept w.player
      postedTasks := w.postedTasks - 1 }
  | .setEos => some { w with player := setEos p w.player }

/-- A write that gets as far as copying is fresh and does not overflow, and its call is answered or
fails before it reaches the server. -/
def Fresh (p : Partition) (w : Session) : Act → Prop
  | .writeBuffer numberOfFrames _ mapped processed reply _ _ =>
    copyTarget p w numberOfFrames mapped ≠ none →
      w.fresh = true ∧ numberOfFrames * p.bytesPerFrame < w32 ∧
        (reply = .answer ∨ reply = .failure ∧ processed = false)
  | _ => True

instance (p : Partition) (w : Session) (a : Act) : Decidable (Fresh p w a) := by
  cases a <;> unfold Fresh <;> infer_instance

/-- **The partition is the queue `q` of the data sent.** A fresh copy of the ranges is a prefix of
the free ranges, and the server expects a write. -/
structure Agrees (p : Partition) (w : Session) (q : Fifo UInt8) : Prop where
  consistent : Consistent p w.player.availableBuffer
  pushed : q.pushed = w.sent
  popped : q.popped = handedOver w.player.gst
  contents : q.contents = stored p w.shm w.player
  fresh : w.fresh = true → w.player.expectWriteBuffer = true ∧
    ∃ info, w.info = some info ∧ Consistent p info ∧
      freeAddrs info <+: freeAddrs w.player.availableBuffer

theorem agrees_init (p : Partition) (shm : Mem UInt8) :
    Agrees p (Session.init p shm) Fifo.empty where
  consistent := consistent_init p
  pushed := rfl
  popped := rfl
  contents := (refines_init p shm).contents
  fresh := fun h => by cases h

theorem stored_copyOut {s : Player} (hc : Consistent p s.availableBuffer)
    (hpre : freeAddrs info <+: freeAddrs s.availableBuffer) (data shm : Mem UInt8) {n : ℕ}
    (hn : n ≤ free info) (hlt : n < w32) :
    stored p (copyOut info data n shm) s = stored p shm s := by
  refine readAt_congr fun a ha => copyOut_of_notMem hn hlt fun hmem => ?_
  exact stored_disjoint hc (hpre.subset hmem) ha

theorem copyTarget_some {w : Session} {numberOfFrames : ℕ} {mapped : Bool}
    (h : copyTarget p w numberOfFrames mapped = some info) :
    w.info = some info ∧
      mul32 numberOfFrames p.bytesPerFrame ≤ add32 info.lengthMain info.lengthWrap := by
  unfold copyTarget at h
  split at h
  · cases h
  next i hi =>
  split_ifs at h with hlen
  cases h
  exact ⟨hi, by omega⟩

theorem getBufferAvailable_agrees {w : Session} {q : Fifo UInt8} {processed : Bool} {reply : Reply}
    (h : Agrees p w q) (hans : reply = .answer → processed = true) :
    Agrees p (getBufferAvailable p w processed reply) q := by
  obtain ⟨hc, hpush, hpop, hcont, hfresh⟩ := h
  have hplayer : ∀ w', w'.availableBuffer = w.player.availableBuffer → w'.gst = w.player.gst →
      Consistent p w'.availableBuffer ∧ q.popped = handedOver w'.gst ∧
        q.contents = stored p w.shm w' := by
    intro w' hb hg
    rw [hb, hg, stored, hb]
    exact ⟨hc, hpop, hcont⟩
  have hif := hplayer
    (if processed then (Server.getBufferAvailable p w.player).2 else w.player)
    (by split_ifs <;> rfl) (by split_ifs <;> rfl)
  unfold getBufferAvailable
  cases reply with
  | answer =>
    simp only [hans rfl, if_true]
    obtain ⟨h1, h2, h3⟩ := hplayer (Server.getBufferAvailable p w.player).2 rfl rfl
    exact ⟨h1, hpush, h2, h3, fun _ => ⟨rfl, _, rfl, hc, List.prefix_refl _⟩⟩
  | failure =>
    refine ⟨hif.1, hpush, hif.2.1, hif.2.2, fun hf => ?_⟩
    obtain ⟨hexp, info, hinfo, hci, hpre⟩ := hfresh hf
    refine ⟨?_, info, by simp [hinfo], hci, ?_⟩
    · simp only
      split_ifs
      · rfl
      · exact hexp
    · simp only
      split_ifs
      · exact hpre
      · exact hpre
  | none => exact ⟨hif.1, hpush, hif.2.1, hif.2.2, fun hf => by cases hf⟩

/-- **A fresh write is a push of its data, or has no effect on the queue.** -/
theorem writeBuffer_agrees {w : Session} {q : Fifo UInt8} {numberOfFrames : ℕ} {data : Mem UInt8}
    {mapped processed : Bool} {reply : Reply} {acceptStored acceptNew : ℕ} (h : Agrees p w q)
    (hans : reply = .answer → processed = true)
    (hok : Fresh p w
      (.writeBuffer numberOfFrames data mapped processed reply acceptStored acceptNew)) :
    ∃ q', Agrees p (writeBuffer p w numberOfFrames data mapped processed reply acceptStored
        acceptNew).2 q' ∧
      ((writeBuffer p w numberOfFrames data mapped processed reply acceptStored
        acceptNew).1 = false → q' = q) := by
  have hag := h
  obtain ⟨hc, hpush, hpop, hcont, hfresh⟩ := h
  unfold writeBuffer
  rcases htarget : copyTarget p w numberOfFrames mapped with _ | info
  · exact ⟨q, hag, fun _ => rfl⟩
  obtain ⟨hf, hlt, hreply⟩ := hok (by rw [htarget]; simp)
  obtain ⟨hinfo, hlen⟩ := copyTarget_some htarget
  obtain ⟨hexp, info', hinfo', hci, hpre⟩ := hfresh hf
  obtain rfl : info = info' := by rw [hinfo] at hinfo'; exact Option.some.inj hinfo'
  have hfits := p.fits
  have hle := free_le hci
  have hfree : numberOfFrames * p.bytesPerFrame ≤ free info := by
    unfold free at hle ⊢
    rwa [mul32_of_lt hlt, add32_of_lt (by omega)] at hlen
  simp only [mul32_of_lt hlt]
  have hst := stored_copyOut hc hpre data w.shm hfree hlt
  rcases hreply with rfl | ⟨rfl, rfl⟩
  · have hlen' := hpre.length_le
    rw [freeAddrs_eq hci, freeAddrs_eq hc, length_cyc, length_cyc] at hlen'
    obtain ⟨hacc, hc', ⟨k, hk1, hk2⟩, hexp'⟩ := write_spec hc hexp
      (copyOut info data (numberOfFrames * p.bytesPerFrame) w.shm) hlt (le_trans hfree hlen')
      acceptStored acceptNew
    have hnew : readAt (copyOut info data (numberOfFrames * p.bytesPerFrame) w.shm)
        ((freeAddrs w.player.availableBuffer).take (numberOfFrames * p.bytesPerFrame)) =
          readRange data 0 (numberOfFrames * p.bytesPerFrame) := by
      obtain ⟨rest, hrest⟩ := hpre
      rw [← hrest, List.take_append_of_le_length
        (by rw [freeAddrs_eq hci, length_cyc]; exact hfree)]
      exact readAt_copyOut hci hfree
    rw [hst, hnew] at hk1 hk2
    simp only [hans rfl, if_true, hacc]
    refine ⟨(q.push (readRange data 0 (numberOfFrames * p.bytesPerFrame))).pop k,
      ⟨hc', ?_, ?_, ?_, fun hf' => ?_⟩, fun hfalse => by cases hfalse⟩
    · simp only [Fifo.pop, Fifo.push, hpush, cond_true]
    · simp only [Fifo.pop, Fifo.push, hpop, hcont, hk1]
    · simp only [Fifo.pop, Fifo.push, hcont, hk2]
    · simp at hf'
  · refine ⟨q, ⟨hc, hpush, hpop, ?_, fun _ => ⟨hexp, info, hinfo, hci, hpre⟩⟩, fun _ => rfl⟩
    rw [hcont]
    exact hst.symm

theorem step_agrees {w w' : Session} {q : Fifo UInt8} {a : Act} (h : Agrees p w q)
    (hok : Fresh p w a) (hstep : step p w a = some w') : ∃ q', Agrees p w' q' := by
  cases a with
  | getBufferAvailable processed reply =>
    simp only [step] at hstep
    split_ifs at hstep with hans
    cases hstep
    exact ⟨q, getBufferAvailable_agrees h hans⟩
  | writeBuffer numberOfFrames data mapped processed reply acceptStored acceptNew =>
    simp only [step] at hstep
    split_ifs at hstep with hans
    cases hstep
    obtain ⟨q', hq', -⟩ := writeBuffer_agrees h hans hok
    exact ⟨q', hq'⟩
  | timerExpires =>
    simp only [step] at hstep
    split_ifs at hstep
    cases hstep
    exact ⟨q, h.consistent, h.pushed, h.popped, h.contents, h.fresh⟩
  | writeDataTask accept =>
    simp only [step] at hstep
    split_ifs at hstep
    cases hstep
    obtain ⟨hc', hh, hs, hpre, -, hex, -⟩ := drain_spec h.consistent w.shm accept
    refine ⟨q.pop accept, hc', h.pushed, ?_, ?_, fun hf => ?_⟩
    · simp only [Fifo.pop, h.popped, h.contents]
      exact hh.symm
    · simp only [Fifo.pop, h.contents]
      exact hs.symm
    · obtain ⟨hexp, info, hinfo, hci, hp⟩ := h.fresh hf
      exact ⟨hex.trans hexp, info, hinfo, hci, hp.trans hpre⟩
  | setEos =>
    cases hstep
    obtain ⟨hb, he⟩ := setEos_buffer p w.player
    refine ⟨q, by simp only [hb]; exact h.consistent, h.pushed, ?_, ?_, fun hf => ?_⟩
    · rw [h.popped]
      exact (setEos_gst p w.player).symm
    · simp only [stored, hb]
      exact h.contents
    · simp only [hb, he]
      exact h.fresh hf

theorem run_agrees {shm : Mem UInt8} {as : List Act} {w : Session}
    (h : Run (step p) (Fresh p) (Session.init p shm) as w) : ∃ q, Agrees p w q := by
  refine Run.invariant (fun w => ∃ q, Agrees p w q) ?_ h ⟨_, agrees_init p shm⟩
  rintro w a w' ⟨q, hq⟩ hok hstep
  exact step_agrees hq hok hstep

/-- **The stream is the data of the calls that returned true.** After every run whose writes are
fresh, what GStreamer was handed, followed by what is stored, is the data of the `writeBuffer` calls
that returned true; and a next such write that returns false leaves the stored bytes and the stream
as they are. -/
theorem stream_of_fresh (p : Partition) (shm : Mem UInt8) {as : List Act} {w : Session}
    (h : Run (step p) (Fresh p) (Session.init p shm) as w) :
    handedOver w.player.gst ++ stored p w.shm w.player = w.sent ∧
    ∀ numberOfFrames data mapped processed reply acceptStored acceptNew,
      (reply = Reply.answer → processed = true) →
      Fresh p w (.writeBuffer numberOfFrames data mapped processed reply acceptStored acceptNew) →
      let r := writeBuffer p w numberOfFrames data mapped processed reply acceptStored acceptNew
      r.1 = false → stored p r.2.shm r.2.player = stored p w.shm w.player ∧
        handedOver r.2.player.gst = handedOver w.player.gst := by
  obtain ⟨q, hq⟩ := run_agrees h
  refine ⟨?_, ?_⟩
  · have := q.conserved
    rwa [hq.popped, hq.contents, hq.pushed] at this
  · intro numberOfFrames data mapped processed reply acceptStored acceptNew hans hok r hfalse
    obtain ⟨q', hq', heq⟩ := writeBuffer_agrees hq hans hok
    obtain rfl := heq hfalse
    exact ⟨hq'.contents.symm.trans hq.contents, hq'.popped.symm.trans hq.popped⟩

/-- Two frames are written and stored, one call is lost and one asks for too much space, two more
frames are written. -/
def freshActs : List Act :=
  [.getBufferAvailable true .answer,
    .writeBuffer 2 (fun i => if i = 0 then 1 else 2) true true .answer 0 0,
    .getBufferAvailable true .answer, .timerExpires, .writeDataTask 1,
    .writeBuffer 1 (fun _ => 9) true false .failure 0 0,
    .writeBuffer 3 (fun _ => 3) true true .answer 0 0,
    .writeBuffer 2 (fun _ => 4) true true .answer 0 0]

theorem stream_of_fresh_example :
    ∃ w, Run (step smallPartition) (Fresh smallPartition)
        (Session.init smallPartition fun _ => 0) freshActs w ∧
      handedOver w.player.gst ++ stored smallPartition w.shm w.player = w.sent ∧
      w.sent = [1, 2, 4, 4] ∧ handedOver w.player.gst = [1] := by
  have hrun : Run (step smallPartition) (Fresh smallPartition)
      (Session.init smallPartition fun _ => 0) freshActs
      ((runsIf (step smallPartition) (Fresh smallPartition)
        (Session.init smallPartition fun _ => 0) freshActs).get (by decide)) :=
    Run.of_runsIf (Option.some_get _).symm
  exact ⟨_, hrun, (stream_of_fresh smallPartition _ hrun).1, by decide, by decide⟩

/-- Two writes after one `getBufferAvailable`: the server refuses the second, so it returns false,
but its data is what the next drain hands over. -/
def staleActs : List Act :=
  [.getBufferAvailable true .answer, .writeBuffer 2 (fun _ => 1) true true .answer 0 0,
    .writeBuffer 2 (fun _ => 2) true true .answer 0 0, .timerExpires, .writeDataTask 2]

theorem stale_write_corrupts :
    ∃ w, Run (step smallPartition) (fun _ _ => True) (Session.init smallPartition fun _ => 0)
        staleActs w ∧
      w.sent = [1, 1] ∧ handedOver w.player.gst = [2, 2] ∧
      handedOver w.player.gst ++ stored smallPartition w.shm w.player ≠ w.sent := by
  have hrun : Run (step smallPartition) (fun _ _ => True) (Session.init smallPartition fun _ => 0)
      staleActs
      ((runs (step smallPartition) (Session.init smallPartition fun _ => 0)
        staleActs).get (by decide)) := Run.of_runs (Option.some_get _).symm
  exact ⟨_, hrun, by decide, by decide, by decide⟩

end Rialto.WebAudio.Client
